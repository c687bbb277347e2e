import NixPqcCache.ConcurrentCommands
import NixPqcCache.SignNormalForm

/-!
# Signing at the same time

Processes of `cmd_sign` with any keys work on one directory.  Each of them
reads a narinfo, signs what it has read, and writes the result some time later.
Another process may have written in between; its signature is then lost, but
the narinfo is still the original one signed by some of the processes in turn.

With one key the result does not depend on who was first.  A directory that
crashed runs have left half signed is completed by one more run.
-/

namespace NixPqcCache.ConcurrentSigning

open NixPqcCache.Commands
open NixPqcCache.ConcurrentCommands
open NixPqcCache.ConcurrentJobs
open NixPqcCache.ConcurrentWrites
open NixPqcCache.Data
open NixPqcCache.DiskCommands
open NixPqcCache.Filesystem
open NixPqcCache.Foundation
open NixPqcCache.Hybrid
open NixPqcCache.HybridCandidates
open NixPqcCache.KeygenRuns
open NixPqcCache.Keys
open NixPqcCache.Narinfo
open NixPqcCache.NarinfoRoundTrip
open NixPqcCache.Paths
open NixPqcCache.SignAgain
open NixPqcCache.SignDirectory
open NixPqcCache.SignNormalForm
open NixPqcCache.SignRuns
open NixPqcCache.SignatureEntries
open NixPqcCache.VerifyPolicy
open NixPqcCache.Writes

variable {Rand : Type} (primitives : Primitives Rand)

/-! ## Signing in turn -/

/-- Two records differ in the entries of some signers only. -/
structure KeepsForeign (signings : List (Signing Rand))
    (before after : NarInfo) : Prop where
  fields : after =
    { before with sigs := after.sigs, sigPqc := after.sigPqc }
  sigs : foreignEntries signings after.sigs =
    foreignEntries signings before.sigs
  sigPqc : foreignEntries signings after.sigPqc =
    foreignEntries signings before.sigPqc

theorem KeepsForeign.apply {signings : List (Signing Rand)}
    {before after : NarInfo} (keeps : KeepsForeign signings before after)
    {signing : Signing Rand} (member : signing ∈ signings)
    (fingerprint : Str) :
    KeepsForeign signings before
      (signing.apply primitives fingerprint after) where
  fields := by
    rw [Signing.apply, signInfo, keeps.fields]
  sigs := by
    rw [← keeps.sigs]
    simp only [Signing.apply, signInfo, sigEntry_eq_entryOf]
    exact foreignEntries_replaced member _ _
  sigPqc := by
    rw [← keeps.sigPqc]
    simp only [Signing.apply, signInfo, encodeSigPqc_eq_entryOf]
    exact foreignEntries_replaced member _ _

/-- Signing in turn replaces the entries of the signers only. -/
theorem KeepsForeign.applyAll {signings part : List (Signing Rand)}
    {before after : NarInfo} (keeps : KeepsForeign signings before after)
    (members : ∀ signing ∈ part, signing ∈ signings) (fingerprint : Str) :
    KeepsForeign signings before
      (applyAll primitives fingerprint after part) := by
  induction part generalizing after with
  | nil => exact keeps
  | cons signing part induction =>
      rw [List.forall_mem_cons] at members
      exact induction (keeps.apply primitives members.1 fingerprint)
        members.2

/--
A narinfo after some keys have signed it in turn: the same fingerprint, the
same fields and entries of others, and whoever signed last under a name is
accepted under the strictest policy.
-/
structure SignedInTurn (history : List (Signing Rand)) (text final : Str) :
    Prop where
  rewritten : rewriteAll primitives text history = .ok final
  records : ∃ info finalInfo fingerprint,
    Holds info fingerprint text ∧ Holds finalInfo fingerprint final ∧
      KeepsForeign history info finalInfo
  accepted : ∀ before signing after, history = before ++ signing :: after →
    (∀ later ∈ after, later.secret.name ≠ signing.secret.name) →
      ∀ files narinfoPath pqcPubkeyPath,
        files narinfoPath = some (asBytes final) →
        files pqcPubkeyPath = some (asBytes
          (signing.secret.publicKey primitives).body) →
        cmdVerify primitives files narinfoPath
          (some (entryOf signing.secret.name
            (signing.secret.publicKey primitives).keys.ed25519.toList))
          (some pqcPubkeyPath) true = .ok ()

variable {primitives}

/-- A text that was signed at all was signed in turn. -/
theorem signedInTurn_of_rewriteAll (correct : primitives.Correct)
    {history : List (Signing Rand)} {text final : Str}
    (nonempty : history ≠ [])
    (rewritten : rewriteAll primitives text history = .ok final) :
    SignedInTurn primitives history text final := by
  have record : ∃ info fingerprint, Holds info fingerprint text := by
    cases history with
    | nil => exact (nonempty rfl).elim
    | cons signing history =>
        rw [rewriteAll, List.foldlM_cons] at rewritten
        rcases Runs.bind_eq_ok_iff.mp rewritten with ⟨next, written, -⟩
        rcases Signing.holds_of_rewrite primitives written with
          ⟨info, fingerprint, holds, -⟩
        exact ⟨info, fingerprint, holds⟩
  rcases record with ⟨info, fingerprint, holds⟩
  rcases @rewriteAll_holds _ primitives history _ _ _ holds with
    ⟨written, ran, finalHolds⟩
  rw [rewritten, Except.ok.injEq] at ran
  rcases ran with rfl
  have unchanged : KeepsForeign history info info := ⟨rfl, rfl, rfl⟩
  refine ⟨rewritten, ⟨info, _, fingerprint, holds, finalHolds,
    unchanged.applyAll primitives (fun _ member => member) fingerprint⟩, ?_⟩
  rintro before signing after rfl last files narinfoPath pqcPubkeyPath narinfo
    pqcPubkey
  exact (applyAll_leavesPair primitives last before fingerprint
    info).cmdVerify correct finalHolds narinfo pqcPubkey

/-! ## Any keys -/

section AnyKeys

variable {processes : Processes Rand} {umask : Mode} {start system : System}

/-- What is written is a narinfo or a key file. -/
theorem not_outcome_of_other {disk : Disk} {job : Job}
    (notNarinfo : isNarinfo job.target = false)
    (notKeyFile : ∀ outDir, ¬ IsKeyFile outDir job.target) :
    ¬ Outcome primitives processes disk job := by
  intro outcome
  cases outcome with
  | signed narinfo _ _ _ _ =>
      have never := notNarinfo.symm.trans narinfo
      cases never
  | saved _ _ saves _ => exact notKeyFile _ saves.isKeyFile

/-- What is written at a narinfo is the original one, signed in turn. -/
theorem signedInTurn_of_outcome (correct : primitives.Correct)
    {cacheDir : Path} {name : OsStr} {disk : Disk} {job : Job}
    (narinfo : isNarinfo (cacheDir.join name) = true)
    (outcome : Outcome primitives processes disk job)
    (target : job.target = cacheDir.join name) :
    job.secret = false ∧ ∃ text history final,
      disk (cacheDir.join name) = some (.file (asBytes text)) ∧
        job.contents = asBytes final ∧ history ≠ [] ∧
          (∀ signing ∈ history, ∃ pid,
            processes.signs pid cacheDir signing) ∧
            SignedInTurn primitives history text final := by
  cases outcome with
  | signed _ original nonempty signers rewritten =>
      rcases Path.join_eq_join_iff.mp target with ⟨rfl, rfl⟩
      exact ⟨rfl, _, _, _, original, rfl, nonempty, signers,
        signedInTurn_of_rewriteAll correct nonempty rewritten⟩
  | saved _ _ saves _ =>
      have other := not_isNarinfo_of_isKeyFile saves.isKeyFile
      rw [target, narinfo] at other
      cases other

/--
However the processes interleave, fail and end in directories that exist, a
path that is no narinfo, no key file and no temporary file is as it was, and a
narinfo is as it was or the original one signed in turn by some of the
processes.
-/
theorem concurrent_signing (correct : primitives.Correct)
    (idle : ∀ pid, start.job pid = none)
    (reached : Relation.ReflTransGen
      (Step umask (Asks primitives processes)) start system) :
    (∀ path, ¬ IsTmp path → isNarinfo path = false →
      (∀ outDir, ¬ IsKeyFile outDir path) →
        system.look path = start.look path) ∧
      ∀ cacheDir name, isNarinfo (cacheDir.join name) = true →
        system.look (cacheDir.join name) = start.look (cacheDir.join name) ∨
          ∃ text history final,
            start.world.view (cacheDir.join name) =
              some (.file (asBytes text)) ∧
            system.look (cacheDir.join name) =
              some (.file (asBytes final), 0o644 &&& ~~~umask) ∧
            history ≠ [] ∧
            (∀ signing ∈ history, ∃ pid,
              processes.signs pid cacheDir signing) ∧
            SignedInTurn primitives history text final := by
  have planned := (outcome_of_reached idle reached).2
  constructor
  · intro path notTmp notNarinfo notKeyFile
    rcases planned path notTmp with same | ⟨job, outcome, rfl, -⟩
    · exact same
    · exact (not_outcome_of_other notNarinfo notKeyFile outcome).elim
  · intro cacheDir name narinfo
    rcases planned _ (not_isTmp_of_isNarinfo narinfo) with
      same | ⟨job, outcome, target, now⟩
    · exact Or.inl same
    · rcases signedInTurn_of_outcome correct narinfo outcome target with
        ⟨visible, text, history, final, original, contents, nonempty,
          signers, inTurn⟩
      rw [contents, Job.mode, visible] at now
      exact Or.inr ⟨text, history, final, original, now, nonempty, signers,
        inTurn⟩

end AnyKeys

/-- The sample directory, and processes without a job. -/
def sampleSystem : System where
  world :=
    { entry := Function.update (Function.update (Function.update
        (fun _ => none) Path.currentDir (some 0)) sampleKeyPath (some 1))
          samplePath (some 2)
      data := fun inode =>
        if inode = 0 then .directory
        else if inode = 1 then .file (asBytes sampleSecret.body)
        else .file (asBytes sampleInfo.toText)
      next := 3
      bounded := by
        apply Bounded.update _ _ (by simp)
        apply Bounded.update _ _ (by simp)
        apply Bounded.update _ _ (by simp)
        intro path inode absent
        cases absent
      phase := fun _ => .waiting }
  mode := fun _ => 0o600
  job := fun _ => none

theorem sampleSystem_view : sampleSystem.world.view = sampleCache := by
  funext path
  simp only [World.view, sampleSystem, sampleCache, emptyDirectory,
    Function.update_apply]
  split
  next => rfl
  next =>
    split
    next => rfl
    next =>
      split
      next => rfl
      next => rfl

theorem sampleCache_samplePath :
    sampleCache samplePath = some (.file (asBytes sampleInfo.toText)) :=
  Function.update_self _ _ _

theorem sampleSystem_samplePath :
    sampleSystem.world.view samplePath =
      some (.file (asBytes sampleInfo.toText)) := by
  rw [sampleSystem_view, sampleCache_samplePath]

/-- The sample key signs in every process. -/
def sampleProcesses : Processes Unit where
  signs _ _ signing := signing.secret = sampleSecret
  makes _ _ _ := False

/-- The sample narinfo, as the sample key signs it. -/
theorem sample_signed :
    ∃ signed, sampleInfo.toText ≠ signed ∧
      (signEntry Primitives.transparent 7 sampleSecret () Path.currentDir
        { name := some (asBytes "a.narinfo".toList) }).run sampleCache =
        .ok () (Function.update sampleCache samplePath
          (some (.file (asBytes signed)))) := by
  let signing : Signing Unit := ⟨sampleSecret, (), by decide⟩
  have holds : Holds sampleInfo sampleFingerprint sampleInfo.toText :=
    ⟨parse_toText sampleInfo_representable, sampleInfo_fingerprint⟩
  have contents := sampleCache_samplePath
  have present : sampleCache samplePath ≠ none := by
    rw [contents]
    exact Option.some_ne_none _
  have creates : CanCreate 7 {} samplePath sampleCache :=
    ⟨rfl, sampleCache_tmpNamesFree _ ⟨by decide, _, rfl⟩ present, by decide⟩
  have replaceable : sampleCache.Replaceable samplePath :=
    ⟨by decide, by rw [contents]; simp⟩
  refine ⟨_, ?_, @run_signEntry _ Primitives.transparent signing
    Path.currentDir sampleCache 7
    { name := some (asBytes "a.narinfo".toList) } _ _ _ rfl (by decide) rfl
    (readToString_file contents)
    (signing.rewrite_eq Primitives.transparent holds) creates rfl
    ⟨rfl, replaceable⟩⟩
  intro equal
  have parsed := (signing.holds_toText Primitives.transparent holds).1
  rw [← equal, holds.1, Except.ok.injEq] at parsed
  have sigs := congrArg NarInfo.sigs parsed
  simp [Signing.apply, signInfo, sampleInfo, dropOwn] at sigs

/-- A process has signed the sample narinfo. -/
theorem sample_reached :
    ∃ system signed, sampleInfo.toText ≠ signed ∧
      Relation.ReflTransGen (Step 0o022 (Asks Primitives.transparent
        sampleProcesses)) sampleSystem system ∧
      system.world.view = Function.update sampleCache samplePath
        (some (.file (asBytes signed))) := by
  rcases sample_signed with ⟨signed, changed, ran⟩
  rcases @signEntry_reached _ Primitives.transparent sampleProcesses
    Path.currentDir 0o022 sampleSystem 7 ⟨sampleSecret, (), by decide⟩ rfl rfl
    { name := some (asBytes "a.narinfo".toList) } with
    ⟨system, reached, -, view⟩
  rw [sampleSystem_view, ran, Stateful.finalState_ok] at view
  exact ⟨system, signed, changed, reached, view⟩

theorem concurrent_signing_sample :
    ∃ system text history final,
      Relation.ReflTransGen (Step 0o022 (Asks Primitives.transparent
        sampleProcesses)) sampleSystem system ∧
      system.look samplePath =
        some (.file (asBytes final), 0o644 &&& ~~~0o022) ∧
      history ≠ [] ∧
      SignedInTurn Primitives.transparent history text final := by
  rcases sample_reached with ⟨system, signed, changed, reached, view⟩
  rcases (concurrent_signing Primitives.transparent_correct (fun _ => rfl)
    reached).2 Path.currentDir (asBytes "a.narinfo".toList) (by decide) with
    same | ⟨text, history, final, -, now, nonempty, -, inTurn⟩
  · have views : system.world.view samplePath = sampleCache samplePath := by
      rw [System.view_eq_map_look, samplePath, same,
        ← System.view_eq_map_look, sampleSystem_view]
    rw [view, sampleCache, Function.update_self, Function.update_self,
      Option.some.injEq, Node.file.injEq] at views
    exact (changed (asBytes_injective views).symm).elim
  · exact ⟨system, text, history, final, reached, now, nonempty, inTurn⟩

/-! ## One key -/

/-- Signing again under the same name forgets the first signature. -/
theorem rewrite_again {first second : Signing Rand} {text signed : Str}
    (same : first.secret = second.secret)
    (written : Signing.rewrite primitives text first = .ok signed) :
    Signing.rewrite primitives signed second =
      Signing.rewrite primitives text second := by
  rcases Signing.holds_of_rewrite primitives written with
    ⟨info, fingerprint, holds, rfl, signedHolds⟩
  rw [second.rewrite_eq primitives signedHolds,
    second.rewrite_eq primitives holds]
  simp only [Signing.apply, signInfo, sigEntry_eq_entryOf,
    encodeSigPqc_eq_entryOf, same, dropOwn_append_own second.colon]

/-- What stands at a path is the original text, signed once by a key. -/
def SignedOnce (primitives : Primitives Rand) (secret : SecretKey)
    (start : Disk) (path : Path) (node : Option Node) : Prop :=
  ∃ signing : Signing Rand, ∃ text signed, signing.secret = secret ∧
    start path = some (.file (asBytes text)) ∧
      Signing.rewrite primitives text signing = .ok signed ∧
        node = some (.file (asBytes signed))

/-- The same key signs what is original, or signed once. -/
theorem SignedOnce.again {signing : Signing Rand} {start disk : Disk}
    {path : Path} {text signed : Str}
    (before : disk path = start path ∨
      SignedOnce primitives signing.secret start path (disk path))
    (holds : disk path = some (.file (asBytes text)))
    (written : Signing.rewrite primitives text signing = .ok signed) :
    SignedOnce primitives signing.secret start path
      (some (.file (asBytes signed))) := by
  rcases before with same | ⟨earlier, original, first, same, found, ran, now⟩
  · exact ⟨signing, text, signed, rfl, same.symm.trans holds, written, rfl⟩
  · rw [holds, Option.some.injEq, Node.file.injEq] at now
    rcases asBytes_injective now with rfl
    rw [rewrite_again same ran] at written
    exact ⟨signing, original, signed, rfl, found, written, rfl⟩

/-- A run of one key is its last signing. -/
theorem rewriteAll_same_key {secret : SecretKey}
    {history : List (Signing Rand)} {text final : Str}
    (own : ∀ signing ∈ history, signing.secret = secret)
    (nonempty : history ≠ [])
    (rewritten : rewriteAll primitives text history = .ok final) :
    ∃ signing : Signing Rand, signing.secret = secret ∧
      Signing.rewrite primitives text signing = .ok final := by
  induction history using List.reverseRecOn generalizing final with
  | nil => exact (nonempty rfl).elim
  | append_singleton history last induction =>
      rw [rewriteAll, List.foldlM_append, ← rewriteAll] at rewritten
      rcases Runs.bind_eq_ok_iff.mp rewritten with ⟨middle, before, step⟩
      have written :
          Signing.rewrite primitives middle last = .ok final := by
        rcases Runs.bind_eq_ok_iff.mp step with ⟨_, ran, done⟩
        rw [← Except.ok.inj done, ran]
      have lastOwn := own last (by simp)
      refine ⟨last, lastOwn, ?_⟩
      cases history with
      | nil =>
          rw [← Except.ok.inj before] at written
          exact written
      | cons first history =>
          rcases induction (fun other member =>
            own other (List.mem_append_left _ member))
            (List.cons_ne_nil _ _) before with ⟨earlier, earlierOwn, ran⟩
          rw [← rewrite_again (earlierOwn.trans lastOwn.symm) ran]
          exact written

section OneKey

variable {processes : Processes Rand} {cacheDir path : Path}
  {umask : Mode} {start system : System} {secret : SecretKey}

/-- What the processes of one key leave at a narinfo is signed once. -/
theorem signedOnce_of_outcome {name : OsStr} {job : Job} {disk : Disk}
    (own : ∀ pid signing, processes.signs pid cacheDir signing →
      signing.secret = secret)
    (narinfo : isNarinfo (cacheDir.join name) = true)
    (outcome : Outcome primitives processes disk job)
    (target : job.target = cacheDir.join name) :
    SignedOnce primitives secret disk (cacheDir.join name)
      (some (.file job.contents)) := by
  cases outcome with
  | @signed otherDir otherName text final history _ original nonempty signers
      rewritten =>
      rcases Path.join_eq_join_iff.mp target with ⟨rfl, rfl⟩
      have sameKey : ∀ signing ∈ history, signing.secret = secret := by
        intro signing member
        rcases signers signing member with ⟨pid, signs⟩
        exact own pid signing signs
      rcases rewriteAll_same_key sameKey nonempty rewritten with
        ⟨signing, same, ran⟩
      exact ⟨signing, text, final, same, original, ran, rfl⟩
  | saved _ _ saves _ =>
      have other := not_isNarinfo_of_isKeyFile saves.isKeyFile
      rw [target, narinfo] at other
      cases other

/-- At every moment a narinfo is as it was, or signed once. -/
theorem signedOnce_of_reached {name : OsStr}
    (own : ∀ pid signing, processes.signs pid cacheDir signing →
      signing.secret = secret) (idle : ∀ pid, start.job pid = none)
    (reached : Relation.ReflTransGen
      (Step umask (Asks primitives processes)) start system)
    (narinfo : isNarinfo (cacheDir.join name) = true) :
    system.world.view (cacheDir.join name) =
        start.world.view (cacheDir.join name) ∨
      SignedOnce primitives secret start.world.view (cacheDir.join name)
        (system.world.view (cacheDir.join name)) := by
  rcases (outcome_of_reached idle reached).2.planned _
    (not_isTmp_of_isNarinfo narinfo) with same | ⟨job, outcome, target, now⟩
  · exact Or.inl same
  · rw [now]
    exact Or.inr (signedOnce_of_outcome own narinfo outcome target)

/-- A run that succeeds has signed every entry it was to sign. -/
theorem signedSoFar_of_run {pid : Nat} {keyRead : Bool}
    {listed : List DirEntry} {rand : Rand} {keyPath : Path}
    {disk left : Disk} (found : KeyAt disk keyPath secret)
    (ran : (cmdSign primitives pid keyRead (some listed) rand cacheDir
      keyPath).run disk = .ok () left) :
    ∃ signing : Signing Rand, signing.secret = secret ∧
      SignedSoFar primitives signing cacheDir disk listed left := by
  rcases cmdSign_cases primitives pid keyRead (some listed) rand cacheDir
    keyPath disk with ⟨cause, stopped⟩ | ⟨signing, entries, -, loaded, given,
      loop⟩
  · rw [stopped] at ran
    cases ran
  · rcases Option.some.inj given with rfl
    have holds : SignedSoFar primitives signing cacheDir disk [] disk :=
      ⟨fun _ => Or.inl rfl, by simp⟩
    have ended := @Stateful.forM_endsIn _ _ _
      (signEntry primitives pid signing.secret signing.rand cacheDir)
      (SignedSoFar primitives signing cacheDir disk) (fun _ => True)
      (fun _ _ _ _ soFar stepped => soFar.completed primitives stepped)
      (fun _ _ _ _ _ _ _ => trivial) listed [] disk holds
    rw [← loop, ran, List.nil_append] at ended
    exact ⟨signing, loaded.unique found, ended⟩

/--
With one key the processes do not get in each other's way: a narinfo is at
every moment as it was or signed once, and once it is signed it stays signed.
After any number of failed, crashed or concurrent runs, one run that succeeds
on a complete listing leaves every narinfo signed once.
-/
theorem one_key_converges
    (own : ∀ pid signing, processes.signs pid cacheDir signing →
      signing.secret = secret) (idle : ∀ pid, start.job pid = none)
    (reached : Relation.ReflTransGen
      (Step umask (Asks primitives processes)) start system) :
    (∀ path, IsTarget cacheDir path →
      system.world.view path = start.world.view path ∨
        SignedOnce primitives secret start.world.view path
          (system.world.view path)) ∧
      (∀ path after, IsTarget cacheDir path →
        SignedOnce primitives secret start.world.view path
          (system.world.view path) →
        Relation.ReflTransGen (Step umask (Asks primitives processes))
          system after →
        SignedOnce primitives secret start.world.view path
          (after.world.view path)) ∧
      ∀ pid keyRead listed rand keyPath left,
        KeyAt system.world.view keyPath secret →
        Complete cacheDir start.world.view (some listed) →
        (cmdSign primitives pid keyRead (some listed) rand cacheDir
          keyPath).run system.world.view = .ok () left →
        ∀ path, IsTarget cacheDir path → start.world.view path ≠ none →
          SignedOnce primitives secret start.world.view path (left path) := by
  refine ⟨?_, ?_, ?_⟩
  · rintro _ ⟨narinfo, name, rfl⟩
    exact signedOnce_of_reached own idle reached narinfo
  · rintro _ after ⟨narinfo, name, rfl⟩ signed later
    rw [System.view_eq_map_look] at signed ⊢
    have agree (job : Job)
        (outcome : Outcome primitives processes start.world.view job)
        (target : job.target = cacheDir.join name) :
        SignedOnce primitives secret start.world.view (cacheDir.join name)
          ((some (Node.file job.contents, job.mode umask)).map Prod.fst) :=
      signedOnce_of_outcome own narinfo outcome target
    exact @settled_of_reached umask _ _ start system after _
      (fun looks => SignedOnce primitives secret start.world.view
        (cacheDir.join name) (looks.map Prod.fst)) idle
      (asks_sound start.world.view) agree (not_isTmp_of_isNarinfo narinfo)
      reached signed later
  · rintro pid keyRead listed rand keyPath left found complete ran _
      ⟨narinfo, name, rfl⟩ present
    rcases signedSoFar_of_run found ran with ⟨signing, rfl, soFar⟩
    rcases complete listed rfl name narinfo present with
      ⟨entry, member, named⟩
    rcases soFar.signed entry member name named narinfo with
      ⟨text, written, holds, rewritten, now⟩
    rw [now]
    exact SignedOnce.again
      (signedOnce_of_reached own idle reached narinfo) holds rewritten

end OneKey

/-- The narinfo is signed, and stays signed while others sign it again. -/
theorem one_key_converges_sample :
    ∃ system, Relation.ReflTransGen (Step 0o022 (Asks Primitives.transparent
        sampleProcesses)) sampleSystem system ∧
      ∀ after, Relation.ReflTransGen (Step 0o022
          (Asks Primitives.transparent sampleProcesses)) system after →
        SignedOnce Primitives.transparent sampleSecret sampleCache samplePath
          (after.world.view samplePath) := by
  rcases sample_reached with ⟨system, signed, changed, reached, view⟩
  have target : IsTarget Path.currentDir samplePath := ⟨by decide, _, rfl⟩
  have converges := @one_key_converges _ Primitives.transparent
    sampleProcesses Path.currentDir 0o022 sampleSystem system sampleSecret
    (fun _ _ signs => signs) (fun _ => rfl) reached
  rw [sampleSystem_view] at converges
  refine ⟨system, reached, fun after later => converges.2.1 samplePath after
    target ?_ later⟩
  rcases converges.1 samplePath target with same | signedOnce
  · rw [view, sampleCache, Function.update_self, Function.update_self,
      Option.some.injEq, Node.file.injEq] at same
    exact (changed (asBytes_injective same).symm).elim
  · exact signedOnce

end NixPqcCache.ConcurrentSigning
