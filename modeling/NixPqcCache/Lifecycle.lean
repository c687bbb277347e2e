import NixPqcCache.ConcurrentKeygen
import NixPqcCache.ConcurrentSigning
import NixPqcCache.KeyFileRoundTrip

/-!
# From a key to an accepted narinfo

`keygen` saves a pair, `sign` signs a directory with the secret, and `verify`
checks a narinfo with the public key.  What was signed is accepted under the
strictest policy, at every moment while other keys sign the directory again
and other keys are made.
-/

namespace NixPqcCache.Lifecycle

open NixPqcCache.Commands
open NixPqcCache.ConcurrentCommands
open NixPqcCache.ConcurrentJobs
open NixPqcCache.ConcurrentKeygen
open NixPqcCache.ConcurrentSigning
open NixPqcCache.ConcurrentWrites
open NixPqcCache.Data
open NixPqcCache.DiskCommands
open NixPqcCache.Filesystem
open NixPqcCache.Foundation
open NixPqcCache.Hybrid
open NixPqcCache.HybridCandidates
open NixPqcCache.KeyFiles
open NixPqcCache.KeyFileRoundTrip
open NixPqcCache.KeygenRuns
open NixPqcCache.Keys
open NixPqcCache.Narinfo
open NixPqcCache.NarinfoRoundTrip
open NixPqcCache.Paths
open NixPqcCache.SignAgain
open NixPqcCache.SignDirectory
open NixPqcCache.SignRuns
open NixPqcCache.SignatureEntries
open NixPqcCache.VerifyPolicy
open NixPqcCache.Writes

variable {Rand : Type} {primitives : Primitives Rand}

/-! ## The key pair -/

/-- Both files of a key are there when `keygen` has succeeded. -/
theorem saved_of_cmdKeygen {pid : Nat} {faults : KeygenFaults} {name : Str}
    {signer : HybridSigner} {outDir : Path} {before after : Disk}
    (made : (cmdKeygen primitives pid faults name signer outDir).run before =
      .ok () after) :
    Saved primitives outDir after ⟨name, signer⟩ := by
  have effect := @cmdKeygen_effect outDir _ primitives pid faults name signer
    before
  rw [made] at effect
  cases effect with
  | both valid _ _ same =>
      refine ⟨valid, ?_, ?_⟩
      · rw [same _ isKeyFile_secretPath,
          Function.update_of_ne secretPath_ne_pubPath, Function.update_self]
      · rw [same _ isKeyFile_pubPath, Function.update_self]

theorem keyAt_of_saved {secret : SecretKey} {outDir : Path} {disk : Disk}
    (saved : Saved primitives outDir disk secret) :
    KeyAt disk (secretPath outDir secret.name) secret :=
  ⟨secret.body, readToString_file saved.2.1, loadText_secretBody saved.1⟩

/-! ## The signed narinfo -/

/-- A path holds a text in which a signing has left its pair. -/
def PairAt (primitives : Primitives Rand) (signing : Signing Rand)
    (disk : Disk) (path : Path) : Prop :=
  ∃ text info fingerprint, disk path = some (.file (asBytes text)) ∧
    Holds info fingerprint text ∧
      signing.LeavesPair primitives fingerprint info

theorem pairAt_of_signedFrom {signing : Signing Rand} {start disk : Disk}
    {path : Path} (signed : SignedFrom primitives signing start disk path) :
    PairAt primitives signing disk path := by
  rcases signed with ⟨text, written, -, rewritten, now⟩
  rcases Signing.holds_of_rewrite primitives rewritten with
    ⟨info, fingerprint, -, -, holds⟩
  exact ⟨written, _, fingerprint, now, holds,
    signing.apply_leavesPair primitives fingerprint info⟩

section Runs

variable {processes : Processes Rand} {cacheDir : Path} {umask : Mode}
  {start system : System}

/-- The pair survives what other keys do to the directory. -/
theorem pairAt_of_planned {signing : Signing Rand} {name : OsStr}
    {origin disk : Disk}
    (planned : Planned (Outcome primitives processes origin) origin disk)
    (others : ∀ pid other, processes.signs pid cacheDir other →
      other.secret.name ≠ signing.secret.name)
    (narinfo : isNarinfo (cacheDir.join name) = true)
    (pair : PairAt primitives signing origin (cacheDir.join name)) :
    PairAt primitives signing disk (cacheDir.join name) := by
  rcases pair with ⟨text, info, fingerprint, found, holds, leavesPair⟩
  rcases planned _ (not_isTmp_of_isNarinfo narinfo) with
    same | ⟨job, outcome, target, now⟩
  · exact ⟨text, info, fingerprint, same.trans found, holds, leavesPair⟩
  · cases outcome with
    | @signed otherDir otherName original final history _ before _ signers
        rewritten =>
        rcases Path.join_eq_join_iff.mp target with ⟨rfl, rfl⟩
        rw [found, Option.some.injEq, Node.file.injEq] at before
        rcases asBytes_injective before with rfl
        rcases @rewriteAll_holds _ primitives history _ _ _ holds with
          ⟨written, ran, finalHolds⟩
        rw [rewritten, Except.ok.injEq] at ran
        rcases ran with rfl
        refine ⟨final, _, fingerprint, now, finalHolds,
          leavesPair.applyAll_of_ne primitives ?_⟩
        intro later member
        rcases signers later member with ⟨pid, signs⟩
        exact others pid later signs
    | saved _ _ saves _ =>
        have other := not_isNarinfo_of_isKeyFile saves.isKeyFile
        rw [target, narinfo] at other
        cases other

/-- A key file stays. -/
theorem keyFile_of_planned {outDir path : Path} {origin disk : Disk}
    (planned : Planned (Outcome primitives processes origin) origin disk)
    (keyFile : IsKeyFile outDir path) (present : origin path ≠ none) :
    disk path = origin path := by
  rcases planned path (not_isTmp_of_isKeyFile keyFile) with
    same | ⟨job, outcome, rfl, -⟩
  · exact same
  · exact (present (saves_of_outcome outcome keyFile).1).elim

/-- What other keys do to a signed directory leaves it accepted. -/
theorem accepted_of_planned (correct : primitives.Correct)
    {pid signerPid : Nat} {faults : KeygenFaults} {name : Str}
    {signer : HybridSigner} {outDir : Path} {first second origin disk : Disk}
    {keyRead : Bool} {listed : List DirEntry} {rand : Rand}
    (made : (cmdKeygen primitives pid faults name signer outDir).run first =
      .ok () second)
    (complete : Complete cacheDir second (some listed))
    (signed : (cmdSign primitives signerPid keyRead (some listed) rand
      cacheDir (secretPath outDir name)).run second = .ok () origin)
    (others : ∀ pid other, processes.signs pid cacheDir other →
      other.secret.name ≠ name)
    (planned : Planned (Outcome primitives processes origin) origin disk)
    {spell : Str → Path} {narinfoPath pqcPubkeyPath : Str}
    (target : IsTarget cacheDir (spell narinfoPath))
    (present : second (spell narinfoPath) ≠ none)
    (pubSpelled : spell pqcPubkeyPath = pubPath outDir name) :
    cmdVerify primitives (files spell disk) narinfoPath
      (some (entryOf name
        (signer.verifyingKeys primitives).ed25519.toList))
      (some pqcPubkeyPath) true = .ok () := by
  have saved := saved_of_cmdKeygen made
  rcases signedSoFar_of_run (keyAt_of_saved saved) signed with
    ⟨signing, own, soFar⟩
  rcases target with ⟨narinfo, entryName, spelled⟩
  rw [spelled] at narinfo present
  rcases complete listed rfl entryName narinfo present with
    ⟨entry, member, named⟩
  have pair := pairAt_of_signedFrom
    (soFar.signed entry member entryName named narinfo)
  have foreign (pid : Nat) (other : Signing Rand)
      (signs : processes.signs pid cacheDir other) :
      other.secret.name ≠ signing.secret.name := by
    rw [own]
    exact others pid other signs
  rcases pairAt_of_planned planned foreign narinfo pair with
    ⟨text, info, fingerprint, now, holds, leavesPair⟩
  have signedPub : origin (pubPath outDir name) =
      pubFile primitives signing.secret := by
    rcases soFar.progress (pubPath outDir name) with same | ⟨pubTarget, -⟩
    · rw [same, own]
      exact saved.2.2
    · have other := not_isNarinfo_of_isKeyFile
        (@isKeyFile_pubPath outDir name)
      rw [pubTarget.1] at other
      cases other
  have pubKept : disk (pubPath outDir name) =
      pubFile primitives signing.secret := by
    rw [keyFile_of_planned planned isKeyFile_pubPath, signedPub]
    rw [signedPub]
    exact Option.some_ne_none _
  have accepted := leavesPair.cmdVerify correct holds
    (files_eq_some (spelled ▸ now)) (files_eq_some (pubSpelled ▸ pubKept))
  rw [own] at accepted
  exact accepted

/--
After `keygen` and a `sign` over a complete listing have succeeded, every
narinfo that was listed is accepted under that key and `--require-pqc`, at
every moment while other keys sign and are made.
-/
theorem keygen_sign_verify (correct : primitives.Correct) {pid signerPid : Nat}
    {faults : KeygenFaults} {name : Str} {signer : HybridSigner}
    {outDir : Path} {first second : Disk} {keyRead : Bool}
    {listed : List DirEntry} {rand : Rand}
    (made : (cmdKeygen primitives pid faults name signer outDir).run first =
      .ok () second)
    (complete : Complete cacheDir second (some listed))
    (signed : (cmdSign primitives signerPid keyRead (some listed) rand
      cacheDir (secretPath outDir name)).run second =
        .ok () start.world.view)
    (idle : ∀ pid, start.job pid = none)
    (others : ∀ pid other, processes.signs pid cacheDir other →
      other.secret.name ≠ name)
    (reached : Relation.ReflTransGen
      (ConcurrentJobs.Step umask (Asks primitives processes)) start system)
    {spell : Str → Path} {narinfoPath pqcPubkeyPath : Str}
    (target : IsTarget cacheDir (spell narinfoPath))
    (present : second (spell narinfoPath) ≠ none)
    (pubSpelled : spell pqcPubkeyPath = pubPath outDir name) :
    cmdVerify primitives (files spell system.world.view) narinfoPath
      (some (entryOf name
        (signer.verifyingKeys primitives).ed25519.toList))
      (some pqcPubkeyPath) true = .ok () :=
  accepted_of_planned correct made complete signed others
    (outcome_of_reached idle reached).2.planned target present pubSpelled

end Runs

/-! ## A key in the sample directory -/

/-- `keygen` in a directory that exists writes its two files. -/
theorem eq_of_cmdKeygen_ok {pid : Nat} {faults : KeygenFaults} {name : Str}
    {signer : HybridSigner} {outDir : Path} {before after : Disk}
    (present : OnDisk before outDir)
    (made : (cmdKeygen primitives pid faults name signer outDir).run before =
      .ok () after) :
    after = Function.update (Function.update before (secretPath outDir name)
      (secretFile ⟨name, signer⟩)) (pubPath outDir name)
        (pubFile primitives ⟨name, signer⟩) := by
  have saved {path : Path} {faults : Faults} {contents : Str}
      {start final : Disk}
      (ran : (save (writeNewAtomic pid faults path contents)).run start =
        .ok () final) :
      final =
        Function.update start path (some (.file (asBytes contents))) := by
    rcases save_writeNewAtomic_cases outDir path pid faults contents start
      with ⟨-, stopped⟩ | ⟨-, cause, left, stopped, -⟩ | ⟨-, written⟩
    · rw [stopped] at ran
      cases ran
    · rw [stopped] at ran
      cases ran
    · rw [written] at ran
      cases ran
      rfl
  rw [cmdKeygen] at made
  rcases Stateful.run_bind_eq_ok_iff.mp made with ⟨_, checked, valid, rest⟩
  have unchecked : checked = before := by
    cases result : validateKeyName name with
    | error cause =>
        rw [result] at valid
        cases valid
    | ok value =>
        rw [result] at valid
        cases valid
        rfl
  rcases unchecked with rfl
  rcases Stateful.run_bind_eq_ok_iff.mp rest with ⟨_, middle, ran, saves⟩
  have unchanged := finalState_createDirAll present faults.directories
  rw [ran, Stateful.finalState_ok] at unchanged
  rcases unchanged with rfl
  rcases Stateful.run_bind_eq_ok_iff.mp saves with
    ⟨_, written, secretRan, pubRan⟩
  rw [saved pubRan, saved secretRan]
  rfl

/-- The key that is made in the sample directory. -/
def madeKey : SecretKey := ⟨"m".toList, numberedSigner 1⟩

/-- The sample directory with the pair of that key. -/
def madeCache : Disk :=
  Function.update (Function.update sampleCache
    (secretPath Path.currentDir madeKey.name) (secretFile madeKey))
      (pubPath Path.currentDir madeKey.name)
        (pubFile Primitives.transparent madeKey)

theorem sampleCache_onDisk : OnDisk sampleCache Path.currentDir := by
  intro names onTheWay
  rw [List.prefix_nil.mp onTheWay]
  exact Option.some_ne_none _

theorem madeCache_made :
    (cmdKeygen Primitives.transparent 7 {} madeKey.name madeKey.signer
      Path.currentDir).run sampleCache = .ok () madeCache := by
  have made : ∃ made, (cmdKeygen Primitives.transparent 7 {} madeKey.name
      madeKey.signer Path.currentDir).run sampleCache = .ok () made :=
    ⟨_, rfl⟩
  rcases made with ⟨made, ran⟩
  rw [ran, eq_of_cmdKeygen_ok sampleCache_onDisk ran]
  rfl

theorem madeCache_of_ne {path : Path}
    (other : ∀ outDir, ¬ IsKeyFile outDir path) :
    madeCache path = sampleCache path := by
  rw [madeCache, Function.update_of_ne, Function.update_of_ne]
  · rintro rfl
    exact other _ isKeyFile_secretPath
  · rintro rfl
    exact other _ isKeyFile_pubPath

theorem madeCache_of_isNarinfo {path : Path}
    (narinfo : isNarinfo path = true) : madeCache path = sampleCache path := by
  apply madeCache_of_ne
  intro outDir keyFile
  rw [not_isNarinfo_of_isKeyFile keyFile] at narinfo
  cases narinfo

/-- The only narinfo is still met. -/
theorem madeCache_complete :
    Complete Path.currentDir madeCache
      (some [{ name := some (asBytes "a.narinfo".toList) }]) := by
  intro listed given name narinfo present
  rw [madeCache_of_isNarinfo narinfo] at present
  exact sampleCache_complete listed given name narinfo present

/-- `sign` with the new key, as its process runs alone. -/
theorem madeCache_signed :
    ∃ signed, (cmdSign Primitives.transparent 7 false
      (some [{ name := some (asBytes "a.narinfo".toList) }]) ()
        Path.currentDir (secretPath Path.currentDir madeKey.name)).run
          madeCache = .ok () signed := by
  let signing : Signing Unit := ⟨madeKey, (), by decide⟩
  have keyRead : madeCache.readToString
      (secretPath Path.currentDir madeKey.name) = some madeKey.body := by
    apply readToString_file
    rw [madeCache, Function.update_of_ne secretPath_ne_pubPath,
      Function.update_self]
    rfl
  have keyRan : (readFile (.readingSecretKey
      (secretPath Path.currentDir madeKey.name)) false
        (secretPath Path.currentDir madeKey.name)).run madeCache =
          .ok madeKey.body madeCache := by
    simp only [readFile, EStateM.run, keyRead, Bool.false_eq_true, if_false]
  have target : IsTarget Path.currentDir samplePath := ⟨by decide, _, rfl⟩
  have holds : madeCache samplePath =
      some (.file (asBytes sampleInfo.toText)) :=
    (madeCache_of_isNarinfo target.1).trans (Function.update_self _ _ _)
  have present : sampleCache samplePath ≠ none := by
    rw [← madeCache_of_isNarinfo target.1, holds]
    exact Option.some_ne_none _
  have tmpFree : madeCache (tmpPath samplePath 7) = none := by
    rw [madeCache_of_ne fun outDir keyFile =>
      keyFile.ne_tmpPath samplePath 7 rfl]
    exact sampleCache_tmpNamesFree _ target present
  have replaceable : madeCache.Replaceable samplePath :=
    ⟨by decide, by rw [holds]; simp⟩
  have creates : CanCreate 7 {} samplePath madeCache :=
    ⟨rfl, tmpFree, by decide⟩
  have entryRan := @run_signEntry _ Primitives.transparent signing
    Path.currentDir madeCache 7
    { name := some (asBytes "a.narinfo".toList) } _ _ _ rfl target.1 rfl
    (readToString_file holds)
    (signing.rewrite_eq Primitives.transparent
      ⟨parse_toText sampleInfo_representable, sampleInfo_fingerprint⟩)
    creates rfl ⟨rfl, replaceable⟩
  have ran := @run_cmdSign _ Primitives.transparent signing Path.currentDir
    madeCache 7 false _ _ keyRan (loadText_secretBody signing.nameValid)
    [{ name := some (asBytes "a.narinfo".toList) }]
  rw [List.forM_eq_forM, List.forM_cons, Stateful.run_bind_of_ok entryRan,
    List.forM_nil, EStateM.run_pure] at ran
  exact ⟨_, ran⟩

/-- Every process makes and signs with whatever it likes. -/
def anyProcesses : Processes Unit where
  signs _ _ _ := True
  makes _ _ _ := True

/-- The sample key signs what the new key has signed. -/
theorem sample_signed_again :
    ∃ start system,
      (cmdSign Primitives.transparent 7 false
        (some [{ name := some (asBytes "a.narinfo".toList) }]) ()
          Path.currentDir (secretPath Path.currentDir madeKey.name)).run
            madeCache = .ok () start.world.view ∧
      (∀ pid, start.job pid = none) ∧
      Relation.ReflTransGen (ConcurrentJobs.Step 0o022
        (Asks Primitives.transparent sampleProcesses)) start system := by
  rcases @cmdKeygen_reached _ Primitives.transparent anyProcesses
    Path.currentDir 0o022 sampleSystem 7 madeKey.name madeKey.signer trivial
    rfl (sampleSystem_view ▸ sampleCache_onDisk) {} with
    ⟨made, -, idle, madeView⟩
  rw [sampleSystem_view, madeCache_made, Stateful.finalState_ok] at madeView
  rcases madeCache_signed with ⟨signed, ran⟩
  rcases @cmdSign_reached _ Primitives.transparent anyProcesses
    Path.currentDir 0o022 made 7 false
    (some [{ name := some (asBytes "a.narinfo".toList) }]) ()
    (secretPath Path.currentDir madeKey.name) (congrFun idle 7)
    (fun _ _ _ => trivial) with ⟨start, -, sameJobs, signedView⟩
  rw [madeView, ran, Stateful.finalState_ok] at signedView
  rw [← signedView] at ran
  have noJobs : ∀ pid, start.job pid = none := by
    intro pid
    rw [sameJobs, idle]
    rfl
  rcases @signEntry_reached _ Primitives.transparent sampleProcesses
    Path.currentDir 0o022 start 8 ⟨sampleSecret, (), by decide⟩ rfl
    (noJobs 8) { name := some (asBytes "a.narinfo".toList) } with
    ⟨system, reached, -, -⟩
  exact ⟨start, system, ran, noJobs, reached⟩

/-- The sample key has another name. -/
theorem sampleProcesses_others (pid : Nat) (other : Signing Unit)
    (signs : sampleProcesses.signs pid Path.currentDir other) :
    other.secret.name ≠ madeKey.name := by
  rw [show other.secret = sampleSecret from signs]
  decide

theorem madeCache_samplePath : madeCache samplePath ≠ none := by
  rw [madeCache_of_isNarinfo (by decide)]
  exact Option.some_ne_none _

/-- What the new key has signed stays accepted. -/
theorem keygen_sign_verify_sample :
    ∃ start system,
      (cmdSign Primitives.transparent 7 false
        (some [{ name := some (asBytes "a.narinfo".toList) }]) ()
          Path.currentDir (secretPath Path.currentDir madeKey.name)).run
            madeCache = .ok () start.world.view ∧
      Relation.ReflTransGen (ConcurrentJobs.Step 0o022
        (Asks Primitives.transparent sampleProcesses)) start system ∧
      cmdVerify Primitives.transparent (files spellHere system.world.view)
        "a.narinfo".toList
        (some (entryOf madeKey.name (madeKey.signer.verifyingKeys
          Primitives.transparent).ed25519.toList))
        (some "m.pub".toList) true = .ok () := by
  rcases sample_signed_again with ⟨start, system, ran, noJobs, reached⟩
  exact ⟨start, system, ran, reached, @keygen_sign_verify _ _
    sampleProcesses Path.currentDir 0o022 start system
    Primitives.transparent_correct 7 7 {} madeKey.name madeKey.signer
    Path.currentDir sampleCache madeCache false _ () madeCache_made
    madeCache_complete ran noJobs sampleProcesses_others reached spellHere
    _ _ ⟨by decide, _, rfl⟩ madeCache_samplePath rfl⟩

end NixPqcCache.Lifecycle
