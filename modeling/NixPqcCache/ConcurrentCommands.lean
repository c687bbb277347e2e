import NixPqcCache.ConcurrentJobs
import NixPqcCache.KeygenRuns
import NixPqcCache.SignDirectory

/-!
# Commands at the same time

The processes of one machine run `keygen` and `sign` in directories that exist:
a `keygen` finds that its `create_dir_all` has nothing left to do.  What they
write is a sound choice of jobs: a narinfo is always the original one signed by
some of the processes in turn, and a key file is only written where nothing was
at the start.

A command that runs in one piece, whatever fails in it, is a run of the system.
-/

namespace NixPqcCache.ConcurrentCommands

open NixPqcCache.ConcurrentJobs
open NixPqcCache.ConcurrentWrites
open NixPqcCache.Data
open NixPqcCache.DiskCommands
open NixPqcCache.Foundation
open NixPqcCache.Hybrid
open NixPqcCache.KeygenRuns
open NixPqcCache.Keys
open NixPqcCache.Paths
open NixPqcCache.SignDirectory
open NixPqcCache.SignRuns
open NixPqcCache.Writes

/-! ## Narinfo files and key files -/

theorem not_isTmp_of_isNarinfo {path : Path}
    (narinfo : isNarinfo path = true) : ¬ IsTmp path := by
  rintro ⟨target, pid, equal⟩
  exact tmpPath_ne_of_isNarinfo narinfo equal.symm

theorem not_isTmp_of_isKeyFile {outDir path : Path}
    (keyFile : IsKeyFile outDir path) : ¬ IsTmp path := by
  rintro ⟨target, pid, equal⟩
  exact keyFile.ne_tmpPath target pid equal

/-- The name of a narinfo file ends in an `o`. -/
theorem getLast?_of_isNarinfo {dir : Path} {name : OsStr}
    (narinfo : isNarinfo (dir.join name) = true) :
    name.getLast? = some 111 := by
  have extension : (dir.join name).extension.bind fromUtf8 =
      some "narinfo".toList := by
    simpa [isNarinfo] using narinfo
  rcases Option.bind_eq_some_iff.mp extension with ⟨suffix, found, decoded⟩
  rcases Option.bind_eq_some_iff.mp found with ⟨other, named, split⟩
  have same : other = name := by
    rw [Path.fileName, Path.join, List.getLast?_concat] at named
    exact (Option.some.inj (Option.filter_eq_some_iff.mp named).1).symm
  rcases Path.eq_append_of_extensionOf split with ⟨before, rfl⟩
  have last : (asBytes "narinfo".toList).getLast? = some 111 := by decide
  rw [← same, ← asBytes_of_fromUtf8 decoded, List.append_cons,
    List.getLast?_append_of_ne_nil _ (by decide), last]

/-- No key file is a narinfo. -/
theorem not_isNarinfo_of_isKeyFile {outDir path : Path}
    (keyFile : IsKeyFile outDir path) : isNarinfo path = false := by
  rw [Bool.eq_false_iff]
  intro narinfo
  rcases keyFile with ⟨name, rfl | rfl⟩
  · have last := getLast?_of_isNarinfo narinfo
    rw [asBytes_append, List.getLast?_append_of_ne_nil _ (by decide)] at last
    revert last
    decide
  · have last := getLast?_of_isNarinfo narinfo
    rw [asBytes_append, List.getLast?_append_of_ne_nil _ (by decide)] at last
    revert last
    decide

/-! ## The processes -/

/--
Which processes sign in which directory, and which make keys in which.  All of
these directories exist.
-/
structure Processes (Rand : Type) where
  signs : Nat → Path → Signing Rand → Prop
  makes : Nat → Path → SecretKey → Prop

variable {Rand : Type} (primitives : Primitives Rand)

/-- The write of `SecretKey::save`. -/
def secretJob (outDir : Path) (secret : SecretKey) : Job where
  target := secretPath outDir secret.name
  contents := asBytes secret.body
  secret := true
  notTmp := not_isTmp_of_isKeyFile isKeyFile_secretPath

/-- The write of `PublicKey::save`. -/
def pubJob (outDir : Path) (secret : SecretKey) : Job where
  target := pubPath outDir secret.name
  contents := asBytes (secret.publicKey primitives).body
  secret := false
  notTmp := not_isTmp_of_isKeyFile isKeyFile_pubPath

/-- A job that saves one of the two files of a key. -/
inductive Saves (outDir : Path) (secret : SecretKey) : Job → Prop where
  | secretFile : Saves outDir secret (secretJob outDir secret)
  | pubFile : Saves outDir secret (pubJob primitives outDir secret)

/-- The write of a signed narinfo. -/
def signedJob {path : Path} (narinfo : isNarinfo path = true)
    (signed : Str) : Job where
  target := path
  contents := asBytes signed
  secret := false
  notTmp := not_isTmp_of_isNarinfo narinfo

/--
What a process decides on: the signed text of a narinfo it has read, or a key
file where it has found nothing, in a directory where `create_dir_all` leaves
everything as it is.
-/
inductive Asks (processes : Processes Rand) (pid : Nat) (disk : Disk) :
    Job → Prop where
  | sign {cacheDir : Path} {name : OsStr} {signing : Signing Rand}
      {text signed : Str} (signs : processes.signs pid cacheDir signing)
      (narinfo : isNarinfo (cacheDir.join name) = true)
      (read : disk.readToString (cacheDir.join name) = some text)
      (rewritten : Signing.rewrite primitives text signing = .ok signed) :
      Asks processes pid disk (signedJob narinfo signed)
  | keygen {outDir : Path} {secret : SecretKey} {job : Job}
      (makes : processes.makes pid outDir secret)
      (valid : validateKeyName secret.name = .ok ())
      (saves : Saves primitives outDir secret job)
      (free : disk job.target = none) :
      Asks processes pid disk job

/-- What a job can bring about, seen from the disk at the start. -/
inductive Outcome (processes : Processes Rand) (start : Disk) :
    Job → Prop where
  | signed {cacheDir : Path} {name : OsStr} {text final : Str}
      {history : List (Signing Rand)}
      (narinfo : isNarinfo (cacheDir.join name) = true)
      (original : start (cacheDir.join name) = some (.file (asBytes text)))
      (nonempty : history ≠ [])
      (signers : ∀ signing ∈ history, ∃ pid,
        processes.signs pid cacheDir signing)
      (rewritten : rewriteAll primitives text history = .ok final) :
      Outcome processes start (signedJob narinfo final)
  | saved {outDir : Path} {secret : SecretKey} {job : Job} {pid : Nat}
      (makes : processes.makes pid outDir secret)
      (valid : validateKeyName secret.name = .ok ())
      (saves : Saves primitives outDir secret job)
      (free : start job.target = none) :
      Outcome processes start job

variable {primitives}

section Runs

variable {processes : Processes Rand} {outDir cacheDir path : Path}
  {umask : Mode} {start system : System} {job : Job} {secret : SecretKey}
  {pid : Nat}

theorem Saves.isKeyFile (saves : Saves primitives outDir secret job) :
    IsKeyFile outDir job.target := by
  cases saves with
  | secretFile => exact isKeyFile_secretPath
  | pubFile => exact isKeyFile_pubPath

/-- One more rewrite of what a run of rewrites has left. -/
theorem rewriteAll_concat {history : List (Signing Rand)}
    {signing : Signing Rand} {text middle final : Str}
    (before : rewriteAll primitives text history = .ok middle)
    (last : Signing.rewrite primitives middle signing = .ok final) :
    rewriteAll primitives text (history ++ [signing]) = .ok final := by
  rw [rewriteAll, List.foldlM_append, ← rewriteAll, before]
  change (Signing.rewrite primitives middle signing >>= pure) = _
  rw [last]
  rfl

/--
Whatever is signed by then, a process puts one more signature on top; what is
free by then was free at the start.
-/
theorem asks_sound (start : Disk) :
    Sound (Asks primitives processes) (Outcome primitives processes start)
      start := by
  intro pid disk job planned asked
  cases asked with
  | @sign cacheDir name signing text signed signs narinfo read rewritten =>
      have holds := eq_file_of_readToString read
      rcases planned _ (not_isTmp_of_isNarinfo narinfo) with
        initial | ⟨earlier, outcome, same, now⟩
      · have once : rewriteAll primitives text [signing] = .ok signed :=
          @rewriteAll_concat _ primitives [] signing text text signed rfl
            rewritten
        refine .signed narinfo (initial.symm.trans holds)
          (List.cons_ne_nil signing []) ?_ once
        intro other member
        exact ⟨pid, List.mem_singleton.mp member ▸ signs⟩
      · cases outcome with
        | @signed otherDir otherName original final history _ found _ signers
            ran =>
            rcases Path.join_eq_join_iff.mp same with ⟨rfl, rfl⟩
            rw [now, Option.some.injEq, Node.file.injEq] at holds
            rcases asBytes_injective holds with rfl
            refine .signed narinfo found (by simp) ?_
              (rewriteAll_concat ran rewritten)
            intro other member
            rcases List.mem_append.mp member with old | new
            · exact signers other old
            · exact ⟨pid, List.mem_singleton.mp new ▸ signs⟩
        | saved _ _ saves _ =>
            have other := not_isNarinfo_of_isKeyFile saves.isKeyFile
            rw [same, narinfo] at other
            cases other
  | keygen makes valid saves free =>
      apply Outcome.saved makes valid saves
      rcases planned job.target job.notTmp with same | ⟨_, -, -, now⟩
      · rw [← same, free]
      · rw [free] at now
        cases now

/-- The rule, for these processes. -/
theorem outcome_of_reached (idle : ∀ pid, start.job pid = none)
    (reached : Relation.ReflTransGen
      (Step umask (Asks primitives processes)) start system) :
    Invariant umask (Outcome primitives processes start.world.view) start
        system ∧
      AsPlanned umask (Outcome primitives processes start.world.view) start
        system :=
  asPlanned_of_reached idle (asks_sound start.world.view) reached

/-! ## `sign` in one piece -/

theorem finalState_save {faults : Faults} {contents : Str} {disk : Disk} :
    Stateful.finalState ((save (writeAtomicOverwrite pid faults path
      contents)).run disk) =
      Stateful.finalState (writeViaTempRename pid faults path contents
        disk) := by
  simp only [save, EStateM.run, writeAtomicOverwrite]
  split <;> next ran => rw [ran]; rfl

/-- The body of the loop, as steps of an idle process. -/
theorem signEntry_reached {signing : Signing Rand}
    (signs : processes.signs pid cacheDir signing)
    (idle : system.job pid = none) (entry : DirEntry) :
    ∃ after, Relation.ReflTransGen
        (Step umask (Asks primitives processes)) system after ∧
      after.job = system.job ∧
      after.world.view = Stateful.finalState
        ((signEntry primitives pid signing.secret signing.rand cacheDir
          entry).run system.world.view) := by
  rcases signEntry_cases primitives pid signing cacheDir entry
    system.world.view with ⟨cause, stopped⟩ | ⟨name, -, -, passed⟩ |
      ⟨name, text, signed, -, narinfo, read, rewritten, written⟩
  · exact ⟨system, .refl, rfl, by rw [stopped]; rfl⟩
  · exact ⟨system, .refl, rfl, by rw [passed]; rfl⟩
  · rw [written, finalState_save]
    exact writeViaTempRename_reached rfl idle
      (Asks.sign signs narinfo read rewritten) rfl entry.write

/-- The loop, up to the entry where it stops. -/
theorem forM_signEntry_reached {signing : Signing Rand}
    (signs : processes.signs pid cacheDir signing)
    (idle : system.job pid = none) (entries : List DirEntry) :
    ∃ after, Relation.ReflTransGen
        (Step umask (Asks primitives processes)) system after ∧
      after.job = system.job ∧
      after.world.view = Stateful.finalState
        ((entries.forM (signEntry primitives pid signing.secret signing.rand
          cacheDir)).run system.world.view) := by
  induction entries generalizing system with
  | nil => exact ⟨system, .refl, rfl, rfl⟩
  | cons entry entries induction =>
      rcases @signEntry_reached _ primitives processes cacheDir umask system
        pid signing signs idle entry with ⟨middle, first, jobs, view⟩
      rw [List.forM_eq_forM, List.forM_cons]
      cases ran : (signEntry primitives pid signing.secret signing.rand
          cacheDir entry).run system.world.view with
      | error cause disk =>
          rw [ran] at view
          rw [Stateful.run_bind_of_error ran]
          exact ⟨middle, first, jobs, view⟩
      | ok value disk =>
          rw [ran, Stateful.finalState_ok] at view
          rw [Stateful.run_bind_of_ok ran, ← view]
          rcases @induction middle (jobs ▸ idle) with
            ⟨after, rest, sameJobs, finalView⟩
          exact ⟨after, first.trans rest, sameJobs.trans jobs, finalView⟩

/-- `cmd_sign`, by a process that signs with the key it loads. -/
theorem cmdSign_reached {keyRead : Bool} {entries : Option (List DirEntry)}
    {rand : Rand} {keyPath : Path} (idle : system.job pid = none)
    (signs : ∀ signing : Signing Rand, signing.rand = rand →
      KeyAt system.world.view keyPath signing.secret →
        processes.signs pid cacheDir signing) :
    ∃ after, Relation.ReflTransGen
        (Step umask (Asks primitives processes)) system after ∧
      after.job = system.job ∧
      after.world.view = Stateful.finalState
        ((cmdSign primitives pid keyRead entries rand cacheDir keyPath).run
          system.world.view) := by
  rcases cmdSign_cases primitives pid keyRead entries rand cacheDir keyPath
    system.world.view with
    ⟨cause, stopped⟩ | ⟨signing, listed, same, found, -, loop⟩
  · exact ⟨system, .refl, rfl, by rw [stopped]; rfl⟩
  · rw [loop]
    exact forM_signEntry_reached (signs signing same found) idle listed

/-! ## `keygen` in one piece -/

/-- A key file is refused or written by steps of an idle process. -/
theorem saveKey_reached (makes : processes.makes pid outDir secret)
    (valid : validateKeyName secret.name = .ok ())
    (saves : Saves primitives outDir secret job) {contents : Str}
    (text : job.contents = asBytes contents)
    (idle : system.job pid = none) (faults : Faults) :
    ∃ after, Relation.ReflTransGen
        (Step umask (Asks primitives processes)) system after ∧
      after.job = system.job ∧
      after.world.view = Stateful.finalState
        ((save (writeNewAtomic pid faults job.target contents)).run
          system.world.view) := by
  by_cases free : system.world.view job.target = none
  · rcases @writeViaTempRename_reached umask _ system pid job contents _ rfl
      idle (Asks.keygen makes valid saves free) text faults with
      ⟨after, reached, jobs, view⟩
    refine ⟨after, reached, jobs, view.trans ?_⟩
    simp only [save, EStateM.run, writeNewAtomic_of_free free]
    split <;> next ran => rw [ran]; rfl
  · refine ⟨system, .refl, rfl, ?_⟩
    simp only [save, EStateM.run, writeNewAtomic_of_exists free]
    rfl

/-- Every directory on the way to a path is there. -/
def OnDisk (disk : Disk) (outDir : Path) : Prop :=
  ∀ names, names <+: outDir.names → disk ⟨outDir.absolute, names⟩ ≠ none

theorem finalState_createDirAll {disk : Disk} (present : OnDisk disk outDir)
    (stops : Option Nat) :
    Stateful.finalState ((createDirAll stops outDir).run disk) = disk := by
  have same (depth : Nat) : createDirs disk outDir depth = disk := by
    funext path
    rw [createDirs]
    apply if_neg
    rintro ⟨absolute, onTheWay, -, absent⟩
    apply present path.names onTheWay
    rw [← absolute]
    exact absent
  simp only [createDirAll, EStateM.run]
  split
  next depth => exact same depth
  next =>
    split
    next => rfl
    next => exact same _

/-- `cmd_keygen` in a directory that exists. -/
theorem cmdKeygen_reached {name : Str} {signer : HybridSigner}
    (makes : processes.makes pid outDir ⟨name, signer⟩)
    (idle : system.job pid = none)
    (present : OnDisk system.world.view outDir) (faults : KeygenFaults) :
    ∃ after, Relation.ReflTransGen
        (Step umask (Asks primitives processes)) system after ∧
      after.job = system.job ∧
      after.world.view = Stateful.finalState
        ((cmdKeygen primitives pid faults name signer outDir).run
          system.world.view) := by
  have unchanged := finalState_createDirAll present faults.directories
  rw [cmdKeygen]
  cases valid : validateKeyName name with
  | error cause =>
      rw [Stateful.run_bind_of_error (run_check_error _ _ _)]
      exact ⟨system, .refl, rfl, rfl⟩
  | ok value =>
      rw [Stateful.run_bind_of_ok (run_check_ok _ _ _)]
      cases ran : (createDirAll faults.directories outDir).run
          system.world.view with
      | error cause disk =>
          rw [ran] at unchanged
          rw [Stateful.run_bind_of_error ran]
          exact ⟨system, .refl, rfl, unchanged.symm⟩
      | ok made disk =>
          rw [ran, Stateful.finalState_ok] at unchanged
          rcases unchanged with rfl
          rw [Stateful.run_bind_of_ok ran]
          rcases @saveKey_reached _ primitives processes outDir umask system
            _ ⟨name, signer⟩ pid makes valid .secretFile _ rfl idle
              faults.secretFile with ⟨middle, reached, jobs, view⟩
          cases written : (save (writeNewAtomic pid faults.secretFile
              (secretPath outDir name) (SecretKey.body ⟨name, signer⟩))).run
                system.world.view with
          | error cause disk =>
              rw [Stateful.run_bind_of_error written]
              exact ⟨middle, reached, jobs,
                view.trans (congrArg Stateful.finalState written)⟩
          | ok value disk =>
              rw [Stateful.run_bind_of_ok written]
              have same : middle.world.view = disk :=
                view.trans (congrArg Stateful.finalState written)
              rcases @saveKey_reached _ primitives processes outDir umask
                middle _ ⟨name, signer⟩ pid makes valid .pubFile _ rfl
                  (jobs ▸ idle) faults.pubFile with
                ⟨after, rest, sameJobs, final⟩
              rw [same] at final
              exact ⟨after, reached.trans rest, sameJobs.trans jobs, final⟩

end Runs

end NixPqcCache.ConcurrentCommands
