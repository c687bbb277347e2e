import NixPqcCache.DiskCommands
import NixPqcCache.KeyFiles

/-!
# Key pairs on disk

A `keygen` writes two files, one after the other, and each only if it does not
exist.  Started where `name.pub` is left without its `name.secret` it writes a
new secret beside the old public key.  Without such a start every state that
runs of `keygen` and deletions reach has its pairs in step.
-/

namespace NixPqcCache.KeygenRuns

open NixPqcCache.Data
open NixPqcCache.DiskCommands
open NixPqcCache.Foundation
open NixPqcCache.Hybrid
open NixPqcCache.KeyFiles
open NixPqcCache.Keys
open NixPqcCache.Paths
open NixPqcCache.Writes

/-! ## Key files -/

/-- A path that `keygen` writes to. -/
def IsKeyFile (outDir path : Path) : Prop :=
  ∃ name, path = secretPath outDir name ∨ path = pubPath outDir name

variable {outDir path : Path} {name other : Str}

theorem isKeyFile_secretPath : IsKeyFile outDir (secretPath outDir name) :=
  ⟨name, Or.inl rfl⟩

theorem isKeyFile_pubPath : IsKeyFile outDir (pubPath outDir name) :=
  ⟨name, Or.inr rfl⟩

theorem secretPath_inj :
    secretPath outDir name = secretPath outDir other ↔ name = other := by
  simp [secretPath, Path.join_eq_join_iff, asBytes_injective.eq_iff]

theorem pubPath_inj :
    pubPath outDir name = pubPath outDir other ↔ name = other := by
  simp [pubPath, Path.join_eq_join_iff, asBytes_injective.eq_iff]

theorem secretPath_ne_pubPath :
    secretPath outDir name ≠ pubPath outDir other := by
  intro equal
  have texts : name ++ ".secret".toList = other ++ ".pub".toList :=
    asBytes_injective (Path.join_eq_join_iff.mp equal).2
  have last := congrArg List.getLast? texts
  rw [List.getLast?_append_of_ne_nil _ (by decide),
    List.getLast?_append_of_ne_nil _ (by decide)] at last
  revert last
  decide

/-- No key file is a temporary file. -/
theorem IsKeyFile.ne_tmpPath (keyFile : IsKeyFile outDir path)
    (target : Path) (pid : Nat) : path ≠ tmpPath target pid := by
  rcases keyFile with ⟨name, rfl | rfl⟩
  · rw [secretPath, asBytes_append]
    exact (@tmpPath_ne_join target outDir pid (asBytes name)
      ".secret".toList 116 (by decide) (by decide)).symm
  · rw [pubPath, asBytes_append]
    exact (@tmpPath_ne_join target outDir pid (asBytes name)
      ".pub".toList 98 (by decide) (by decide)).symm

/-- Two disks hold the same key files. -/
def AgreeOnKeys (outDir : Path) (left right : Disk) : Prop :=
  ∀ path, IsKeyFile outDir path → left path = right path

theorem AgreeOnKeys.trans {left middle right : Disk}
    (first : AgreeOnKeys outDir left middle)
    (second : AgreeOnKeys outDir middle right) :
    AgreeOnKeys outDir left right :=
  fun path keyFile => (first path keyFile).trans (second path keyFile)

theorem AgreeOnKeys.update {left right : Disk}
    (agree : AgreeOnKeys outDir left right) (target : Path)
    (node : Option Node) :
    AgreeOnKeys outDir (Function.update left target node)
      (Function.update right target node) := by
  intro path keyFile
  by_cases same : path = target
  · subst same
    rw [Function.update_self, Function.update_self]
  · rw [Function.update_of_ne same, Function.update_of_ne same]
    exact agree path keyFile

/-! ## The calls of `keygen` -/

variable {disk : Disk}

/-- A directory on the way to the key files is not one of them. -/
theorem agreeOnKeys_createDirs (depth : Nat) :
    AgreeOnKeys outDir (createDirs disk outDir depth) disk := by
  intro path keyFile
  rw [createDirs, if_neg]
  rintro ⟨-, onTheWay, -⟩
  rcases keyFile with ⟨name, rfl | rfl⟩
  · have short := onTheWay.length_le
    simp [secretPath, Path.join] at short
  · have short := onTheWay.length_le
    simp [pubPath, Path.join] at short

theorem agreeOnKeys_createDirAll (stops : Option Nat) :
    AgreeOnKeys outDir
      (Stateful.finalState ((createDirAll stops outDir).run disk)) disk := by
  simp only [createDirAll, EStateM.run]
  split
  next => exact agreeOnKeys_createDirs _
  next =>
    split
    next => exact fun _ _ => rfl
    next => exact agreeOnKeys_createDirs _

/-- A new key file is refused, lost on the way, or written. -/
theorem save_writeNewAtomic_cases (outDir path : Path) (pid : Nat)
    (faults : Faults) (contents : Str) (disk : Disk) :
    (disk path ≠ none ∧
      (save (writeNewAtomic pid faults path contents)).run disk =
        .error (.write (.refusingToOverwrite path)) disk) ∨
      (disk path = none ∧ ∃ cause after,
        (save (writeNewAtomic pid faults path contents)).run disk =
            .error cause after ∧
          (∀ refused, cause ≠ .write (.refusingToOverwrite refused)) ∧
            AgreeOnKeys outDir after disk) ∨
      (disk path = none ∧
        (save (writeNewAtomic pid faults path contents)).run disk =
          .ok () (Function.update disk path
            (some (.file (asBytes contents))))) := by
  by_cases free : disk path = none
  · right
    simp only [save, EStateM.run, writeNewAtomic_of_free free]
    cases ran : writeViaTempRename pid faults path contents disk with
    | error cause after =>
        left
        rcases writeViaTempRename_error ran with ⟨frame, notRefused⟩
        refine ⟨free, .write cause, after, rfl, ?_, ?_⟩
        · intro refused equal
          exact notRefused refused (CommandError.write.inj equal)
        · intro other otherFile
          exact frame other (otherFile.ne_tmpPath path pid)
    | ok value after =>
        right
        rw [eq_of_writeViaTempRename_ok ran]
        exact ⟨free, rfl⟩
  · left
    refine ⟨free, ?_⟩
    simp only [save, EStateM.run, writeNewAtomic_of_exists free]

/-! ## One run of `keygen` -/

variable {Rand : Type} (primitives : Primitives Rand)

/-- The contents of a secret key file. -/
def secretFile (secret : SecretKey) : Option Node :=
  some (.file (asBytes secret.body))

/-- The contents of the matching public key file. -/
def pubFile (secret : SecretKey) : Option Node :=
  some (.file (asBytes (secret.publicKey primitives).body))

/-- What a run of `keygen` does to the key files. -/
inductive Effect (outDir : Path) (secret : SecretKey) (before : Disk) :
    EStateM.Result CommandError Disk Unit → Prop where
  | untouched {cause : CommandError} {after : Disk}
      (same : AgreeOnKeys outDir after before) :
      Effect outDir secret before (.error cause after)
  | secretOnly {cause : CommandError} {after : Disk}
      (valid : validateKeyName secret.name = .ok ())
      (free : before (secretPath outDir secret.name) = none)
      (stopped : before (pubPath outDir secret.name) = none →
        ∀ refused, cause ≠ .write (.refusingToOverwrite refused))
      (same : AgreeOnKeys outDir after
        (Function.update before (secretPath outDir secret.name)
          (secretFile secret))) :
      Effect outDir secret before (.error cause after)
  | both {after : Disk} (valid : validateKeyName secret.name = .ok ())
      (free : before (secretPath outDir secret.name) = none)
      (pubFree : before (pubPath outDir secret.name) = none)
      (same : AgreeOnKeys outDir after
        (Function.update (Function.update before
          (secretPath outDir secret.name) (secretFile secret))
            (pubPath outDir secret.name) (pubFile primitives secret))) :
      Effect outDir secret before (.ok () after)

/-- The part of `keygen` behind the directory. -/
theorem saveBoth_effect {secret : SecretKey} {before middle : Disk}
    (valid : validateKeyName secret.name = .ok ())
    (agree : AgreeOnKeys outDir middle before) (pid : Nat)
    (faults : KeygenFaults) :
    Effect primitives outDir secret before
      ((save (writeNewAtomic pid faults.secretFile
          (secretPath outDir secret.name) secret.body) >>= fun _ =>
        save (writeNewAtomic pid faults.pubFile (pubPath outDir secret.name)
          (secret.publicKey primitives).body)).run middle) := by
  have secretAgrees := agree _ (@isKeyFile_secretPath outDir secret.name)
  have pubAgrees := agree _ (@isKeyFile_pubPath outDir secret.name)
  rcases save_writeNewAtomic_cases outDir (secretPath outDir secret.name) pid
    faults.secretFile secret.body middle with
    ⟨taken, ran⟩ | ⟨free, cause, after, ran, -, same⟩ | ⟨free, ran⟩
  · rw [Stateful.run_bind_of_error ran]
    exact .untouched agree
  · rw [Stateful.run_bind_of_error ran]
    exact .untouched (same.trans agree)
  · rw [Stateful.run_bind_of_ok ran]
    have written := agree.update (secretPath outDir secret.name)
      (secretFile secret)
    have pubKept : Function.update middle (secretPath outDir secret.name)
        (secretFile secret) (pubPath outDir secret.name) =
          before (pubPath outDir secret.name) := by
      rw [Function.update_of_ne secretPath_ne_pubPath.symm, pubAgrees]
    rw [secretAgrees] at free
    rcases save_writeNewAtomic_cases outDir (pubPath outDir secret.name) pid
      faults.pubFile (secret.publicKey primitives).body
      (Function.update middle (secretPath outDir secret.name)
        (secretFile secret)) with
      ⟨taken, stopped⟩ | ⟨pubFree, cause, after, stopped, notRefused, same⟩ |
        ⟨pubFree, finished⟩
    · rw [pubKept] at taken
      rw [secretFile] at stopped
      rw [stopped]
      exact .secretOnly valid free (fun pubFree => (taken pubFree).elim)
        written
    · rw [secretFile] at stopped
      rw [stopped]
      exact .secretOnly valid free (fun _ => notRefused)
        (same.trans written)
    · rw [pubKept] at pubFree
      rw [secretFile] at finished
      rw [finished]
      exact .both valid free pubFree (written.update _ _)

/-- A run of `keygen` writes both files, the secret alone, or nothing. -/
theorem cmdKeygen_effect (pid : Nat) (faults : KeygenFaults) (name : Str)
    (signer : HybridSigner) (before : Disk) :
    Effect primitives outDir ⟨name, signer⟩ before
      ((cmdKeygen primitives pid faults name signer outDir).run before) := by
  rw [cmdKeygen]
  cases valid : validateKeyName name with
  | error cause =>
      rw [Stateful.run_bind_of_error (run_check_error _ _ _)]
      exact .untouched fun _ _ => rfl
  | ok value =>
      rw [Stateful.run_bind_of_ok (run_check_ok _ _ _)]
      have agree := @agreeOnKeys_createDirAll outDir before
        faults.directories
      cases ran : (createDirAll faults.directories outDir).run before with
      | error cause after =>
          rw [Stateful.run_bind_of_error ran]
          rw [ran] at agree
          exact .untouched agree
      | ok made middle =>
          rw [Stateful.run_bind_of_ok ran]
          rw [ran] at agree
          exact saveBoth_effect primitives valid agree pid faults

/-! ## Pairs in step -/

/--
Whenever both files of a name exist they load, under that name, and the public
keys are those of the secret.
-/
def InStep (outDir : Path) (disk : Disk) : Prop :=
  ∀ name, disk (secretPath outDir name) ≠ none →
    disk (pubPath outDir name) ≠ none →
      ∃ secretText pubText secret,
        disk.readToString (secretPath outDir name) = some secretText ∧
          disk.readToString (pubPath outDir name) = some pubText ∧
            SecretKey.loadText secretText = .ok secret ∧
              secret.name = name ∧
                PublicKey.loadText pubText =
                  .ok (secret.publicKey primitives)

/-- Both files of a key are on disk as one run saves them. -/
def Saved (outDir : Path) (disk : Disk) (secret : SecretKey) : Prop :=
  validateKeyName secret.name = .ok () ∧
    disk (secretPath outDir secret.name) = secretFile secret ∧
      disk (pubPath outDir secret.name) = pubFile primitives secret

/-- Whenever both files of a name exist, one run saved them. -/
def AllSaved (outDir : Path) (disk : Disk) : Prop :=
  ∀ name, disk (secretPath outDir name) ≠ none →
    disk (pubPath outDir name) ≠ none →
      ∃ secret, secret.name = name ∧ Saved primitives outDir disk secret

theorem AllSaved.inStep (saved : AllSaved primitives outDir disk) :
    InStep primitives outDir disk := by
  intro name secretExists pubExists
  rcases saved name secretExists pubExists with
    ⟨secret, rfl, valid, secretKept, pubKept⟩
  exact ⟨secret.body, (secret.publicKey primitives).body, secret,
    readToString_file secretKept, readToString_file pubKept,
    loadText_secretBody valid, rfl,
    loadText_publicKey_body primitives valid⟩

/-- What happens to the files of one name does not touch another pair. -/
theorem Saved.of_eq {secret : SecretKey} {before after : Disk}
    (saved : Saved primitives outDir before secret)
    (secretKept : after (secretPath outDir secret.name) =
      before (secretPath outDir secret.name))
    (pubKept : after (pubPath outDir secret.name) =
      before (pubPath outDir secret.name)) :
    Saved primitives outDir after secret :=
  ⟨saved.1, secretKept.trans saved.2.1, pubKept.trans saved.2.2⟩

/-- The pairs survive what leaves every pair alone or breaks it up. -/
theorem AllSaved.of_forall {before after : Disk}
    (saved : AllSaved primitives outDir before)
    (changes : ∀ name, after (secretPath outDir name) ≠ none →
      after (pubPath outDir name) ≠ none →
        (∃ secret, secret.name = name ∧
          Saved primitives outDir after secret) ∨
          (after (secretPath outDir name) =
              before (secretPath outDir name) ∧
            after (pubPath outDir name) = before (pubPath outDir name))) :
    AllSaved primitives outDir after := by
  intro name secretExists pubExists
  rcases changes name secretExists pubExists with
    new | ⟨secretKept, pubKept⟩
  · exact new
  · rw [secretKept] at secretExists
    rw [pubKept] at pubExists
    rcases saved name secretExists pubExists with ⟨secret, rfl, old⟩
    exact ⟨secret, rfl, old.of_eq primitives secretKept pubKept⟩

/-! ## Runs -/

/-- One run of `keygen`, or the deletion of one file. -/
inductive Event where
  | keygen (pid : Nat) (faults : KeygenFaults) (name : Str)
      (signer : HybridSigner)
  | delete (path : Path)

/-- The disk after an event. -/
def Event.apply (outDir : Path) (disk : Disk) : Event → Disk
  | .keygen pid faults name signer =>
      Stateful.finalState
        ((cmdKeygen primitives pid faults name signer outDir).run disk)
  | .delete path => (disk.removeFile path).getD disk

/-- One event of a kind that is allowed on the disk. -/
def Step (outDir : Path) (allowed : Disk → Event → Prop)
    (before after : Disk) : Prop :=
  ∃ event, allowed before event ∧
    after = Event.apply primitives outDir before event

/-- No `keygen` finds the public key of its name without the secret. -/
def NotOrphaned (outDir : Path) (disk : Disk) : Event → Prop
  | .keygen _ _ name _ =>
      disk (pubPath outDir name) ≠ none →
        disk (secretPath outDir name) ≠ none
  | .delete _ => True

theorem AllSaved.delete (saved : AllSaved primitives outDir disk)
    (path : Path) :
    AllSaved primitives outDir ((disk.removeFile path).getD disk) := by
  rw [Disk.removeFile]
  split
  next contents found =>
    apply saved.of_forall
    intro name secretExists pubExists
    right
    rw [Option.getD_some] at secretExists pubExists ⊢
    have secretOther : secretPath outDir name ≠ path := by
      rintro rfl
      exact secretExists (Function.update_self _ _ _)
    have pubOther : pubPath outDir name ≠ path := by
      rintro rfl
      exact pubExists (Function.update_self _ _ _)
    exact ⟨Function.update_of_ne secretOther _ _,
      Function.update_of_ne pubOther _ _⟩
  next => exact saved

theorem AllSaved.effect {secret : SecretKey}
    {result : EStateM.Result CommandError Disk Unit}
    (saved : AllSaved primitives outDir disk)
    (notOrphaned : disk (pubPath outDir secret.name) ≠ none →
      disk (secretPath outDir secret.name) ≠ none)
    (effect : Effect primitives outDir secret disk result) :
    AllSaved primitives outDir (Stateful.finalState result) := by
  cases effect with
  | untouched same =>
      apply saved.of_forall
      intro name secretExists pubExists
      exact Or.inr ⟨same _ isKeyFile_secretPath, same _ isKeyFile_pubPath⟩
  | secretOnly valid free stopped same =>
      apply saved.of_forall
      intro name secretExists pubExists
      right
      rw [Stateful.finalState_error] at pubExists ⊢
      have pubKept := same _ (@isKeyFile_pubPath outDir name)
      rw [Function.update_of_ne secretPath_ne_pubPath.symm] at pubKept
      refine ⟨?_, pubKept⟩
      rw [same _ isKeyFile_secretPath, Function.update_of_ne]
      intro equal
      rcases secretPath_inj.mp equal with rfl
      rw [pubKept] at pubExists
      exact notOrphaned pubExists free
  | both valid free pubFree same =>
      apply saved.of_forall
      intro name secretExists pubExists
      rw [Stateful.finalState_ok]
      have secretKept := same _ (@isKeyFile_secretPath outDir name)
      have pubKept := same _ (@isKeyFile_pubPath outDir name)
      rw [Function.update_of_ne secretPath_ne_pubPath] at secretKept
      by_cases own : name = secret.name
      · left
        subst own
        rw [Function.update_self] at secretKept pubKept
        exact ⟨secret, rfl, valid, secretKept, pubKept⟩
      · right
        rw [Function.update_of_ne (mt secretPath_inj.mp own)] at secretKept
        rw [Function.update_of_ne (mt pubPath_inj.mp own),
          Function.update_of_ne secretPath_ne_pubPath.symm] at pubKept
        exact ⟨secretKept, pubKept⟩

/-- An allowed event keeps every pair as one run saved it. -/
theorem AllSaved.step {before after : Disk}
    (saved : AllSaved primitives outDir before)
    (stepped : Step primitives outDir (NotOrphaned outDir) before after) :
    AllSaved primitives outDir after := by
  rcases stepped with ⟨event, allowed, rfl⟩
  cases event with
  | keygen pid faults name signer =>
      refine saved.effect primitives ?_
        (cmdKeygen_effect primitives pid faults name signer before)
      exact allowed
  | delete path => exact saved.delete primitives path

/-- A refusal that was not started on an orphan changes no key file. -/
theorem refused_keeps_key_files {pid : Nat} {faults : KeygenFaults}
    {signer : HybridSigner} {refused : Path} {after : Disk}
    (notOrphaned : disk (pubPath outDir name) ≠ none →
      disk (secretPath outDir name) ≠ none)
    (ran : (cmdKeygen primitives pid faults name signer outDir).run disk =
      .error (.write (.refusingToOverwrite refused)) after) :
    AgreeOnKeys outDir after disk := by
  have effect := @cmdKeygen_effect outDir _ primitives pid faults name
    signer disk
  rw [ran] at effect
  cases effect with
  | untouched same => exact same
  | secretOnly valid free stopped same =>
      have pubFree : disk (pubPath outDir name) = none := by
        by_contra taken
        exact notOrphaned taken free
      exact absurd rfl (stopped pubFree refused)

/--
In every state that runs of `keygen` and deletions reach from an empty
directory, the pairs are in step, and a run that refuses has left all key
files as they were, provided that no `keygen` is started for a name whose
public key file exists without its secret key file.
-/
theorem keygen_runs_in_step {start : Disk}
    (empty : ∀ name, start (outDir.join name) = none) {disk : Disk}
    (reached : Relation.ReflTransGen
      (Step primitives outDir (NotOrphaned outDir)) start disk) :
    InStep primitives outDir disk ∧
      ∀ pid faults name signer refused after,
        NotOrphaned outDir disk (.keygen pid faults name signer) →
          (cmdKeygen primitives pid faults name signer outDir).run disk =
              .error (.write (.refusingToOverwrite refused)) after →
            AgreeOnKeys outDir after disk := by
  have saved : AllSaved primitives outDir disk := by
    refine Stateful.invariant_of_reached ?_ ?_ reached
    · intro before after holds stepped
      exact holds.step primitives stepped
    · intro name secretExists
      exact (secretExists (empty _)).elim
  refine ⟨saved.inStep primitives, ?_⟩
  intro pid faults name signer refused after notOrphaned ran
  exact refused_keeps_key_files primitives notOrphaned ran

/-- A secret beside the public keys of another secret is out of step. -/
theorem not_inStep_of_foreign {old new : HybridSigner}
    (valid : validateKeyName name = .ok ())
    (foreign : SecretKey.publicKey primitives ⟨name, old⟩ ≠
      SecretKey.publicKey primitives ⟨name, new⟩)
    (secretKept : disk (secretPath outDir name) = secretFile ⟨name, new⟩)
    (pubKept : disk (pubPath outDir name) =
      pubFile primitives ⟨name, old⟩) :
    ¬ InStep primitives outDir disk := by
  intro inStep
  rcases inStep name (by simp [secretKept, secretFile])
    (by simp [pubKept, pubFile]) with
    ⟨secretText, pubText, secret, secretRead, pubRead, secretLoaded, -,
      pubLoaded⟩
  rw [readToString_file secretKept, Option.some.injEq] at secretRead
  rw [readToString_file pubKept, Option.some.injEq] at pubRead
  rw [← secretRead, loadText_secretBody valid, Except.ok.injEq]
    at secretLoaded
  rw [← pubRead, loadText_publicKey_body primitives valid,
    Except.ok.injEq, ← secretLoaded] at pubLoaded
  exact foreign pubLoaded

/-- The signer of a small number. -/
def numberedSigner (index : Nat) : HybridSigner :=
  ⟨fit ed25519SecretKeyLen [UInt8.ofNat index],
    fit mlDsa65SecretSeedLen [UInt8.ofNat index]⟩

/-- The empty directory after one `keygen`. -/
def pairSaved : Disk :=
  Event.apply Primitives.transparent Path.currentDir emptyDirectory
    (.keygen 7 {} "k".toList (numberedSigner 1))

/-- That pair without its secret key file. -/
def secretDeleted : Disk :=
  Event.apply Primitives.transparent Path.currentDir pairSaved
    (.delete (secretPath Path.currentDir "k".toList))

/-- What a second `keygen` makes of it. -/
def secretRenewed : Disk :=
  Event.apply Primitives.transparent Path.currentDir secretDeleted
    (.keygen 8 {} "k".toList (numberedSigner 2))

/-- The first pair is in step. -/
theorem keygen_runs_in_step_sample :
    InStep Primitives.transparent Path.currentDir pairSaved := by
  have step : Step Primitives.transparent Path.currentDir
      (NotOrphaned Path.currentDir) emptyDirectory pairSaved := by
    refine ⟨.keygen 7 {} "k".toList (numberedSigner 1), ?_, rfl⟩
    intro pubExists
    exact (pubExists (emptyDirectory_join _)).elim
  exact (keygen_runs_in_step Primitives.transparent emptyDirectory_join
    (.single step)).1

/--
A key pair, the deletion of its secret, and a second `keygen` of that name: it
is refused at the public key, after it has written a new secret.
-/
theorem keygen_leaves_pair_out_of_step :
    (∀ name, emptyDirectory (Path.currentDir.join name) = none) ∧
      Relation.ReflTransGen (Step Primitives.transparent Path.currentDir
        fun _ _ => True) emptyDirectory secretRenewed ∧
      ¬ InStep Primitives.transparent Path.currentDir secretRenewed ∧
      (∃ after,
        (cmdKeygen Primitives.transparent 8 {} "k".toList (numberedSigner 2)
            Path.currentDir).run secretDeleted =
          .error (.write (.refusingToOverwrite
            (pubPath Path.currentDir "k".toList))) after) ∧
      secretDeleted (secretPath Path.currentDir "k".toList) = none ∧
      secretRenewed (secretPath Path.currentDir "k".toList) ≠ none := by
  have secretKept : secretRenewed (secretPath Path.currentDir "k".toList) =
      secretFile ⟨"k".toList, numberedSigner 2⟩ := rfl
  have pubKept : secretRenewed (pubPath Path.currentDir "k".toList) =
      pubFile Primitives.transparent ⟨"k".toList, numberedSigner 1⟩ := rfl
  have saves : Step Primitives.transparent Path.currentDir
      (fun _ _ => True) emptyDirectory pairSaved := ⟨_, trivial, rfl⟩
  have deletes : Step Primitives.transparent Path.currentDir
      (fun _ _ => True) pairSaved secretDeleted := ⟨_, trivial, rfl⟩
  have renews : Step Primitives.transparent Path.currentDir
      (fun _ _ => True) secretDeleted secretRenewed := ⟨_, trivial, rfl⟩
  have valid : validateKeyName "k".toList = .ok () := rfl
  have foreign :
      SecretKey.publicKey Primitives.transparent
          ⟨"k".toList, numberedSigner 1⟩ ≠
        SecretKey.publicKey Primitives.transparent
          ⟨"k".toList, numberedSigner 2⟩ := by
    intro equal
    have keys := congrArg (fun pk => pk.keys.ed25519) equal
    revert keys
    decide
  refine ⟨emptyDirectory_join, ((Relation.ReflTransGen.single saves).tail
    deletes).tail renews, ?_, ⟨_, rfl⟩, rfl, ?_⟩
  · exact not_inStep_of_foreign Primitives.transparent valid foreign
      secretKept pubKept
  · rw [secretKept]
    simp [secretFile]

end NixPqcCache.KeygenRuns
