import NixPqcCache.Foundation.Stateful
import NixPqcCache.Paths
import Mathlib.Logic.Function.Basic

/-!
# Writing a file

The functions of the `keys` module that write to disk.  The contents go to a
temporary file beside the target, which is then renamed over it.

A disk is what stands at every path.  Each call of the operating system can be
made to fail, with the effect that a failing call has; only `write_all` has
one, a beginning of the contents.  The permission bits that a secret file is
created with are not part of the model.
-/

namespace NixPqcCache.Writes

open NixPqcCache.Data
open NixPqcCache.Foundation
open NixPqcCache.Paths

/-! ## Disks -/

/-- What stands at a path. -/
inductive Node where
  | file (contents : Bytes)
  | directory
  deriving DecidableEq

abbrev Disk := Path → Option Node

namespace Disk

/-- `open` with `create_new`: an empty file under an unused name. -/
def createNew (disk : Disk) (path : Path) : Option Disk :=
  if disk path = none ∧ path.parent.bind disk = some .directory then
    some (Function.update disk path (some (.file [])))
  else
    none

/-- `fs::remove_file`. -/
def removeFile (disk : Disk) (path : Path) : Option Disk :=
  match disk path with
  | some (.file _) => some (Function.update disk path none)
  | _ => none

/-- A file may be renamed to this path. -/
def Replaceable (disk : Disk) (path : Path) : Prop :=
  path.fileName ≠ none ∧ disk path ≠ some .directory

instance (disk : Disk) (path : Path) : Decidable (disk.Replaceable path) :=
  inferInstanceAs (Decidable (_ ∧ _))

/-- `fs::rename` of a file. -/
def rename (disk : Disk) (source target : Path) : Option Disk :=
  match disk source with
  | some (.file contents) =>
      if disk.Replaceable target then
        some (Function.update (Function.update disk source none) target
          (some (.file contents)))
      else
        none
  | _ => none

/-- `fs::read_to_string`. -/
def readToString (disk : Disk) (path : Path) : Option Str :=
  match disk path with
  | some (.file contents) => fromUtf8 contents
  | _ => none

section Calls

variable {disk after : Disk} {path source target : Path}

theorem eq_of_createNew (created : disk.createNew path = some after) :
    disk path = none ∧
      after = Function.update disk path (some (.file [])) := by
  rw [createNew, Option.ite_none_right_eq_some] at created
  exact ⟨created.1.1, (Option.some.inj created.2).symm⟩

theorem eq_of_removeFile (removed : disk.removeFile path = some after) :
    (∃ contents, disk path = some (.file contents)) ∧
      after = Function.update disk path none := by
  rw [removeFile] at removed
  split at removed
  next contents found =>
    exact ⟨⟨contents, found⟩, (Option.some.inj removed).symm⟩
  next => cases removed

theorem eq_of_rename (renamed : disk.rename source target = some after) :
    (∃ contents, disk source = some (.file contents)) ∧
      disk.Replaceable target ∧
      after = Function.update (Function.update disk source none) target
        (disk source) := by
  rw [rename] at renamed
  split at renamed
  next contents found =>
    rw [Option.ite_none_right_eq_some] at renamed
    exact ⟨⟨contents, found⟩, renamed.1,
      (Option.some.inj renamed.2).symm.trans (by rw [found])⟩
  next => cases renamed

end Calls

end Disk

/-! ## Errors and faults -/

/-- The errors of a write, with the paths their messages show. -/
inductive WriteError where
  | refusingToOverwrite (path : Path)
  | creatingTmp (tmpPath : Path)
  | writingTmp (tmpPath : Path)
  | renamingTmp (tmpPath path : Path)
  deriving DecidableEq

/-- The message of a write error, with `debug` for `{:?}`. -/
def WriteError.message (debug : Path → Str) : WriteError → Str
  | refusingToOverwrite path =>
      "refusing to overwrite existing file ".toList ++ debug path
  | creatingTmp tmpPath => "creating ".toList ++ debug tmpPath
  | writingTmp tmpPath => "writing ".toList ++ debug tmpPath
  | renamingTmp tmpPath path =>
      "renaming ".toList ++ debug tmpPath ++ " -> ".toList ++ debug path

/-- Which calls of a write fail, and how much of the contents was written. -/
structure Faults where
  create : Bool := false
  write : Option Nat := none
  remove : Bool := false
  rename : Bool := false

/-- A call that may be made to fail. -/
def attempt (fails : Bool) (result : Option Disk) : Option Disk :=
  if fails then none else result

theorem eq_some_of_attempt {fails : Bool} {result : Option Disk}
    {after : Disk} (worked : attempt fails result = some after) :
    result = some after := by
  rw [attempt] at worked
  split at worked
  next => cases worked
  next => exact worked

/-! ## The functions -/

/-- The text of the temporary name. -/
def tmpText (path : Path) (pid : Nat) : Str :=
  '.' :: (path.fileName.bind fromUtf8).getD "key".toList ++
    ".tmp-".toList ++ Nat.toDigits 10 pid

/-- `tmp_name`. -/
def tmpName (path : Path) (pid : Nat) : OsStr :=
  asBytes (tmpText path pid)

/-- `tmp_path`: in the directory of the file, by default the current one. -/
def tmpPath (path : Path) (pid : Nat) : Path :=
  (path.parent.getD Path.currentDir).join (tmpName path pid)

/-- The closure that creates and fills the temporary file. -/
def fillTmp (faults : Faults) (tmpPath : Path) (contents : Bytes)
    (disk : Disk) : EStateM.Result WriteError Disk Unit :=
  match attempt faults.create (disk.createNew tmpPath) with
  | none => .error (.creatingTmp tmpPath) disk
  | some created =>
      match faults.write with
      | none =>
          .ok () (Function.update created tmpPath (some (.file contents)))
      | some count =>
          .error (.writingTmp tmpPath) (Function.update created tmpPath
            (some (.file (contents.take count))))

/-- `write_via_temp_rename`. -/
def writeViaTempRename (pid : Nat) (faults : Faults) (path : Path)
    (contents : Str) (disk : Disk) : EStateM.Result WriteError Disk Unit :=
  match fillTmp faults (tmpPath path pid) (asBytes contents) disk with
  | .error cause disk =>
      -- the outcome of the removal is dropped
      .error cause ((attempt faults.remove
        (disk.removeFile (tmpPath path pid))).getD disk)
  | .ok _ disk =>
      match attempt faults.rename
          (disk.rename (tmpPath path pid) path) with
      | some disk => .ok () disk
      | none => .error (.renamingTmp (tmpPath path pid) path) disk

/-- `write_new_atomic`. -/
def writeNewAtomic (pid : Nat) (faults : Faults) (path : Path)
    (contents : Str) (disk : Disk) : EStateM.Result WriteError Disk Unit :=
  if disk path ≠ none then
    .error (.refusingToOverwrite path) disk
  else
    writeViaTempRename pid faults path contents disk

/-- `write_atomic_overwrite`. -/
def writeAtomicOverwrite (pid : Nat) (faults : Faults) (path : Path)
    (contents : Str) (disk : Disk) : EStateM.Result WriteError Disk Unit :=
  writeViaTempRename pid faults path contents disk

/-! ## The temporary name -/

theorem tmpName_ne_parentDir (path : Path) (pid : Nat) :
    tmpName path pid ≠ parentDir := by
  intro equal
  have bytes := length_le_byteLength (tmpText path pid)
  rw [byteLength, ← tmpName, equal] at bytes
  simp [tmpText, parentDir] at bytes
  omega

/-- The temporary name is not the name of the file. -/
theorem tmpPath_ne (path : Path) (pid : Nat) : tmpPath path pid ≠ path := by
  intro equal
  have name : some (tmpName path pid) = path.fileName := by
    rw [← Path.fileName_join (tmpName_ne_parentDir path pid)
      (path.parent.getD Path.currentDir), ← tmpPath, equal]
  -- the temporary name would contain itself
  have longer : tmpText path pid =
      '.' :: tmpText path pid ++ ".tmp-".toList ++ Nat.toDigits 10 pid := by
    conv_lhs => rw [tmpText, ← name, Option.bind_some, tmpName,
      fromUtf8_asBytes, Option.getD_some]
  have lengths := congrArg List.length longer
  simp at lengths
  omega

theorem tmpPath_injective {path : Path} {pid other : Nat}
    (equal : tmpPath path pid = tmpPath path other) : pid = other := by
  have texts : tmpText path pid = tmpText path other :=
    asBytes_injective (Path.join_eq_join_iff.mp equal).2
  exact Decimal.toDigits_injective (List.append_cancel_left texts)

/-- A temporary name ends in a digit. -/
theorem getLast?_tmpName {path : Path} {pid : Nat} {byte : UInt8}
    (last : (tmpName path pid).getLast? = some byte) : byte < 58 := by
  have digits : ∀ value ∈ List.range' 48 10,
      ∀ byte ∈ String.utf8EncodeChar (Char.ofNat value), byte < 58 := by
    decide +kernel
  have nonempty : asBytes (Nat.toDigits 10 pid) ≠ [] := by
    intro empty
    have bytes := length_le_byteLength (Nat.toDigits 10 pid)
    rw [byteLength, empty, List.length_nil, Nat.le_zero,
      List.length_eq_zero_iff] at bytes
    exact Nat.toDigits_ne_nil bytes
  rw [tmpName, tmpText, asBytes_append,
    List.getLast?_append_of_ne_nil _ nonempty] at last
  rcases List.mem_flatMap.mp (List.mem_of_getLast? last) with
    ⟨symbol, member, inside⟩
  have digit := Nat.isDigit_of_mem_toDigits (by decide) (by decide) member
  rw [Char.isDigit_iff_toNat] at digit
  rw [← Char.ofNat_toNat symbol] at inside
  refine digits symbol.toNat (List.mem_range'_1.mpr ?_) byte inside
  have bounds : '0'.toNat = 48 ∧ '9'.toNat = 57 := by decide
  omega

/-- No temporary name ends in a text that does not end in a digit. -/
theorem tmpName_ne_append {path : Path} {pid : Nat} {before : OsStr}
    {suffix : Str} {byte : UInt8}
    (last : (asBytes suffix).getLast? = some byte)
    (noDigit : ¬ byte < 58) :
    tmpName path pid ≠ before ++ asBytes suffix := by
  intro equal
  have nonempty : asBytes suffix ≠ [] := by
    intro empty
    simp [empty] at last
  apply noDigit
  apply @getLast?_tmpName path pid byte
  rw [equal, List.getLast?_append_of_ne_nil _ nonempty, last]

theorem tmpPath_ne_join {path dir : Path} {pid : Nat} {before : OsStr}
    {suffix : Str} {byte : UInt8}
    (last : (asBytes suffix).getLast? = some byte)
    (noDigit : ¬ byte < 58) :
    tmpPath path pid ≠ dir.join (before ++ asBytes suffix) := fun equal =>
  tmpName_ne_append last noDigit (Path.join_eq_join_iff.mp equal).2

@[simp]
theorem parent_tmpPath (path : Path) (pid : Nat) :
    (tmpPath path pid).parent =
      some (path.parent.getD Path.currentDir) :=
  Path.parent_join _ _

/-! ## What a write does -/

section Outcomes

variable {pid : Nat} {faults : Faults} {path : Path} {contents : Str}
  {disk : Disk}

/-- The temporary file is created. -/
def CanCreate (pid : Nat) (faults : Faults) (path : Path) (disk : Disk) :
    Prop :=
  faults.create = false ∧ disk (tmpPath path pid) = none ∧
    disk (path.parent.getD Path.currentDir) = some .directory

/-- The temporary file is renamed over the target. -/
def CanRename (faults : Faults) (path : Path) (disk : Disk) : Prop :=
  faults.rename = false ∧ disk.Replaceable path

instance : Decidable (CanRename faults path disk) :=
  inferInstanceAs (Decidable (_ ∧ _))

/-- What is left when the temporary file was not created. -/
def uncreated (pid : Nat) (faults : Faults) (path : Path) (disk : Disk) :
    Disk :=
  (attempt faults.remove (disk.removeFile (tmpPath path pid))).getD disk

theorem fillTmp_of_not_canCreate (blocked : ¬ CanCreate pid faults path disk)
    (contents : Bytes) :
    fillTmp faults (tmpPath path pid) contents disk =
      .error (.creatingTmp (tmpPath path pid)) disk := by
  have refused :
      attempt faults.create (disk.createNew (tmpPath path pid)) = none := by
    rw [attempt, Disk.createNew, parent_tmpPath, Option.bind_some]
    split
    next => rfl
    next works =>
      apply if_neg
      rintro ⟨free, directory⟩
      exact blocked ⟨by simpa using works, free, directory⟩
  rw [fillTmp, refused]

theorem attempt_createNew (creates : CanCreate pid faults path disk) :
    attempt faults.create (disk.createNew (tmpPath path pid)) =
      some (Function.update disk (tmpPath path pid) (some (.file []))) := by
  rcases creates with ⟨works, free, directory⟩
  rw [attempt, works, if_neg (by decide), Disk.createNew, parent_tmpPath,
    Option.bind_some, if_pos ⟨free, directory⟩]

theorem fillTmp_of_canCreate (creates : CanCreate pid faults path disk)
    (contents : Bytes) :
    fillTmp faults (tmpPath path pid) contents disk =
      match faults.write with
      | none => .ok () (Function.update disk (tmpPath path pid)
          (some (.file contents)))
      | some count => .error (.writingTmp (tmpPath path pid))
          (Function.update disk (tmpPath path pid)
            (some (.file (contents.take count)))) := by
  rw [fillTmp, attempt_createNew creates]
  simp only [Function.update_idem]

/-- Without its temporary file a write only removes what has its name. -/
theorem writeViaTempRename_of_not_canCreate
    (blocked : ¬ CanCreate pid faults path disk) (contents : Str) :
    writeViaTempRename pid faults path contents disk =
      .error (.creatingTmp (tmpPath path pid))
        (uncreated pid faults path disk) := by
  rw [writeViaTempRename, fillTmp_of_not_canCreate blocked]
  rfl

/-- A partly written temporary file is removed, if that works. -/
theorem writeViaTempRename_of_write
    (creates : CanCreate pid faults path disk) {count : Nat}
    (stops : faults.write = some count) (contents : Str) :
    writeViaTempRename pid faults path contents disk =
      .error (.writingTmp (tmpPath path pid))
        (if faults.remove then
          Function.update disk (tmpPath path pid)
            (some (.file ((asBytes contents).take count)))
        else
          disk) := by
  have free : Function.update disk (tmpPath path pid) none = disk := by
    rw [← creates.2.1, Function.update_eq_self]
  rw [writeViaTempRename, fillTmp_of_canCreate creates, stops]
  simp only [Disk.removeFile, Function.update_self, attempt]
  split
  next => rfl
  next => rw [Option.getD_some, Function.update_idem, free]

theorem replaceable_update_tmpPath (node : Option Node) :
    Disk.Replaceable (Function.update disk (tmpPath path pid) node) path ↔
      disk.Replaceable path := by
  rw [Disk.Replaceable, Disk.Replaceable,
    Function.update_of_ne (tmpPath_ne path pid).symm]

theorem rename_tmp (contents : Bytes) :
    attempt faults.rename
        (Disk.rename (Function.update disk (tmpPath path pid)
          (some (.file contents))) (tmpPath path pid) path) =
      if CanRename faults path disk then
        some (Function.update (Function.update disk (tmpPath path pid) none)
          path (some (.file contents)))
      else
        none := by
  rw [attempt]
  split
  next fails =>
    rw [if_neg]
    rintro ⟨works, -⟩
    rw [works] at fails
    cases fails
  next works =>
    simp only [Disk.rename, Function.update_self, Function.update_idem]
    apply if_congr _ rfl rfl
    rw [replaceable_update_tmpPath, CanRename, Bool.eq_false_iff]
    simp [works]

/-- A complete temporary file stays behind when the rename fails. -/
theorem writeViaTempRename_of_not_canRename
    (creates : CanCreate pid faults path disk) (whole : faults.write = none)
    (blocked : ¬ CanRename faults path disk) (contents : Str) :
    writeViaTempRename pid faults path contents disk =
      .error (.renamingTmp (tmpPath path pid) path)
        (Function.update disk (tmpPath path pid)
          (some (.file (asBytes contents)))) := by
  rw [writeViaTempRename, fillTmp_of_canCreate creates, whole]
  simp only [rename_tmp]
  rw [if_neg blocked]

/-- A write that succeeds changes the target only. -/
theorem writeViaTempRename_of_canRename
    (creates : CanCreate pid faults path disk) (whole : faults.write = none)
    (renames : CanRename faults path disk) (contents : Str) :
    writeViaTempRename pid faults path contents disk =
      .ok () (Function.update disk path
        (some (.file (asBytes contents)))) := by
  have free : Function.update disk (tmpPath path pid) none = disk := by
    rw [← creates.2.1, Function.update_eq_self]
  rw [writeViaTempRename, fillTmp_of_canCreate creates, whole]
  simp only [rename_tmp]
  rw [if_pos renames, free]

theorem uncreated_of_ne {other : Path} (elsewhere : other ≠ tmpPath path pid) :
    uncreated pid faults path disk other = disk other := by
  rw [uncreated, attempt]
  split
  next => rfl
  next =>
    rw [Disk.removeFile]
    split
    next => exact Function.update_of_ne elsewhere _ _
    next => rfl

/--
A write that fails has touched nothing but its temporary file, and it has not
refused its target.
-/
theorem writeViaTempRename_error {cause : WriteError} {after : Disk}
    (failed : writeViaTempRename pid faults path contents disk =
      .error cause after) :
    (∀ other, other ≠ tmpPath path pid → after other = disk other) ∧
      ∀ refused, cause ≠ .refusingToOverwrite refused := by
  by_cases creates : CanCreate pid faults path disk
  · cases stops : faults.write with
    | some count =>
        rw [writeViaTempRename_of_write creates stops] at failed
        cases failed
        refine ⟨fun other elsewhere => ?_, by simp⟩
        split
        next => exact Function.update_of_ne elsewhere _ _
        next => rfl
    | none =>
        by_cases renames : CanRename faults path disk
        · rw [writeViaTempRename_of_canRename creates stops renames] at failed
          cases failed
        · rw [writeViaTempRename_of_not_canRename creates stops renames]
            at failed
          cases failed
          exact ⟨fun other elsewhere =>
            Function.update_of_ne elsewhere _ _, by simp⟩
  · rw [writeViaTempRename_of_not_canCreate creates] at failed
    cases failed
    exact ⟨fun other elsewhere => uncreated_of_ne elsewhere, by simp⟩

/-- A write that succeeds has put the contents at its target. -/
theorem eq_of_writeViaTempRename_ok {after : Disk}
    (ran : writeViaTempRename pid faults path contents disk = .ok () after) :
    after = Function.update disk path (some (.file (asBytes contents))) := by
  by_cases creates : CanCreate pid faults path disk
  · cases stops : faults.write with
    | some count =>
        rw [writeViaTempRename_of_write creates stops] at ran
        cases ran
    | none =>
        by_cases renames : CanRename faults path disk
        · rw [writeViaTempRename_of_canRename creates stops renames] at ran
          cases ran
          rfl
        · rw [writeViaTempRename_of_not_canRename creates stops renames]
            at ran
          cases ran
  · rw [writeViaTempRename_of_not_canCreate creates] at ran
    cases ran

/-- A file that already exists is not written. -/
theorem writeNewAtomic_of_exists (taken : disk path ≠ none)
    (contents : Str) :
    writeNewAtomic pid faults path contents disk =
      .error (.refusingToOverwrite path) disk :=
  if_pos taken

theorem writeNewAtomic_of_free (free : disk path = none)
    (contents : Str) :
    writeNewAtomic pid faults path contents disk =
      writeViaTempRename pid faults path contents disk :=
  if_neg (not_not.mpr free)

/-- A new file stands at a free path, and nothing else has changed. -/
theorem eq_of_writeNewAtomic_ok {after : Disk}
    (written : writeNewAtomic pid faults path contents disk = .ok () after) :
    disk path = none ∧
      after = Function.update disk path (some (.file (asBytes contents))) := by
  by_cases free : disk path = none
  · rw [writeNewAtomic_of_free free] at written
    exact ⟨free, eq_of_writeViaTempRename_ok written⟩
  · rw [writeNewAtomic_of_exists free] at written
    cases written

end Outcomes

/-! ## A small disk -/

/-- A current directory without files. -/
def emptyDirectory : Disk :=
  Function.update (fun _ => none) Path.currentDir (some .directory)

theorem emptyDirectory_join (name : OsStr) :
    emptyDirectory (Path.currentDir.join name) = none := by
  rw [emptyDirectory, Function.update_of_ne]
  simp [Path.join, Path.currentDir]

end NixPqcCache.Writes
