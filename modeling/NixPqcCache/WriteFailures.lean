import NixPqcCache.Writes

/-!
# What a failed write leaves

A write that fails should leave the disk as it was.  The error branch removes
whatever bears the temporary name, so it also removes a file that it did not
create; and after a failed rename nothing removes the temporary file.  A
failed write undoes itself exactly when neither happens.
-/

namespace NixPqcCache.WriteFailures

open NixPqcCache.Data
open NixPqcCache.Paths
open NixPqcCache.Writes

variable {pid : Nat} {faults : Faults} {path : Path} {contents : Str}
  {disk : Disk}

/-- A failure undoes what the write did, and nothing else. -/
structure Undoes (pid : Nat) (faults : Faults) (path : Path) (disk : Disk) :
    Prop where
  /-- A file that already bears the temporary name cannot be removed. -/
  notOthers : ∀ other, disk (tmpPath path pid) = some (.file other) →
    faults.remove = true
  /-- After a partial write the removal works. -/
  partly : CanCreate pid faults path disk → faults.write ≠ none →
    faults.remove = false
  /-- After a complete write the rename works. -/
  wholly : CanCreate pid faults path disk → faults.write = none →
    CanRename faults path disk

/-! ## Each failing step -/

theorem update_ne_self {target : Path} {node : Option Node}
    (different : node ≠ disk target) :
    Function.update disk target node ≠ disk := by
  intro equal
  apply different
  rw [← congrFun equal target, Function.update_self]

/-- The removal without a creation is harmless when it finds no file. -/
theorem uncreated_eq_iff :
    uncreated pid faults path disk = disk ↔
      ∀ other, disk (tmpPath path pid) = some (.file other) →
        faults.remove = true := by
  rw [uncreated, attempt]
  split
  next fails => simp [fails]
  next works =>
    rw [Disk.removeFile]
    split
    next other found =>
      constructor
      · intro equal
        exact absurd equal (update_ne_self (by simp [found]))
      · intro fails
        exact absurd (fails other found) works
    next none =>
      constructor
      · intro _ other found
        exact (none other found).elim
      · intro _
        rfl

/-- A write that fails leaves the disk as it was. -/
def KeepsDisk (pid : Nat) (faults : Faults) (path : Path) (contents : Str)
    (disk : Disk) : Prop :=
  ∀ cause after,
    writeViaTempRename pid faults path contents disk = .error cause after →
      after = disk

theorem keepsDisk_of_eq_error {cause : WriteError} {after : Disk}
    (ran : writeViaTempRename pid faults path contents disk =
      .error cause after) :
    KeepsDisk pid faults path contents disk ↔ after = disk := by
  simp only [KeepsDisk, ran, EStateM.Result.error.injEq]
  constructor
  · intro keeps
    exact keeps cause after ⟨rfl, rfl⟩
  · rintro equal _ _ ⟨-, rfl⟩
    exact equal

theorem keepsDisk_of_eq_ok {after : Disk}
    (ran : writeViaTempRename pid faults path contents disk = .ok () after) :
    KeepsDisk pid faults path contents disk := by
  intro cause other failed
  rw [ran] at failed
  cases failed

/-- Nothing has to be undone before the temporary file exists. -/
theorem undoes_of_not_canCreate
    (blocked : ¬ CanCreate pid faults path disk) :
    Undoes pid faults path disk ↔
      ∀ other, disk (tmpPath path pid) = some (.file other) →
        faults.remove = true := by
  constructor
  · exact Undoes.notOthers
  · intro harmless
    exact ⟨harmless, fun creates => (blocked creates).elim,
      fun creates => (blocked creates).elim⟩

/-- A write that creates its temporary file has to get rid of it. -/
theorem undoes_of_canCreate (creates : CanCreate pid faults path disk) :
    Undoes pid faults path disk ↔
      (faults.write ≠ none → faults.remove = false) ∧
        (faults.write = none → CanRename faults path disk) := by
  constructor
  · rintro ⟨-, partly, wholly⟩
    exact ⟨partly creates, wholly creates⟩
  · rintro ⟨partly, wholly⟩
    refine ⟨?_, fun _ => partly, fun _ => wholly⟩
    intro other found
    rw [creates.2.1] at found
    cases found

/-- A failed write leaves the disk as it was exactly when it undoes itself. -/
theorem keepsDisk_iff :
    KeepsDisk pid faults path contents disk ↔
      Undoes pid faults path disk := by
  by_cases creates : CanCreate pid faults path disk
  · rw [undoes_of_canCreate creates]
    cases stops : faults.write with
    | some count =>
        rw [keepsDisk_of_eq_error
          (writeViaTempRename_of_write creates stops contents)]
        cases fails : faults.remove with
        | false => simp
        | true =>
            have changed := @update_ne_self disk (tmpPath path pid)
              (some (.file ((asBytes contents).take count)))
              (by simp [creates.2.1])
            simp [changed]
    | none =>
        by_cases renames : CanRename faults path disk
        · have keeps := keepsDisk_of_eq_ok
            (writeViaTempRename_of_canRename creates stops renames contents)
          simp [keeps, renames]
        · have changed := @update_ne_self disk (tmpPath path pid)
            (some (.file (asBytes contents))) (by simp [creates.2.1])
          rw [keepsDisk_of_eq_error (writeViaTempRename_of_not_canRename
            creates stops renames contents)]
          simp [changed, renames]
  · rw [keepsDisk_of_eq_error
      (writeViaTempRename_of_not_canCreate creates contents),
      uncreated_eq_iff, undoes_of_not_canCreate creates]

/-! ## Both functions -/

/--
A failed `write_atomic_overwrite` leaves the disk as it was exactly when its
failure undoes what it did and nothing else; `write_new_atomic` also when it
refuses.
-/
theorem failed_write_keeps_disk_iff (pid : Nat) (faults : Faults)
    (path : Path) (contents : Str) (disk : Disk) :
    ((∀ cause after,
      writeAtomicOverwrite pid faults path contents disk =
          .error cause after →
        after = disk) ↔
      Undoes pid faults path disk) ∧
      ((∀ cause after,
        writeNewAtomic pid faults path contents disk = .error cause after →
          after = disk) ↔
        (disk path = none → Undoes pid faults path disk)) := by
  constructor
  · exact keepsDisk_iff
  · by_cases fresh : disk path = none
    · simp only [writeNewAtomic_of_free fresh, fresh, forall_const]
      exact keepsDisk_iff
    · simp only [writeNewAtomic_of_exists fresh, fresh, false_implies,
        iff_true]
      rintro cause after failed
      cases failed
      rfl

/-- A current directory with nothing but a file of some name. -/
def diskWith (name : Str) : Disk :=
  Function.update emptyDirectory (Path.currentDir.join (asBytes name))
    (some (.file []))

/--
A stale temporary file of another run is removed, and a failed rename leaves
the text of a secret key in a new one.
-/
theorem failed_write_changes_disk :
    let secretPath := Path.currentDir.join (asBytes "k.secret".toList)
    let stale := tmpPath secretPath 7
    (∃ after,
      writeNewAtomic 7 {} secretPath "k".toList
          (diskWith ".k.secret.tmp-7".toList) =
        .error (.creatingTmp stale) after ∧
      diskWith ".k.secret.tmp-7".toList stale = some (.file []) ∧
        after stale = none) ∧
      ∃ after,
        writeNewAtomic 7 { rename := true } secretPath "k".toList
            (diskWith "other".toList) =
          .error (.renamingTmp stale secretPath) after ∧
        diskWith "other".toList stale = none ∧
          after stale = some (.file (asBytes "k".toList)) := by
  intro secretPath stale
  refine ⟨⟨_, rfl, ?_, ?_⟩, _, rfl, ?_, ?_⟩
  · decide
  · decide
  · decide
  · decide

end NixPqcCache.WriteFailures
