import NixPqcCache.Foundation.Joined
import NixPqcCache.Foundation.Runs
import NixPqcCache.Narinfo

/-!
# The shape of a fingerprint

A fingerprint is five parts joined with `';'`, the last of which is the sorted
list of reference paths joined with `','`.  It reads four fields of the record,
so no change of the signatures changes it.
-/

namespace NixPqcCache.Fingerprint

open NixPqcCache.Data
open NixPqcCache.Foundation
open NixPqcCache.Narinfo

/-! ## The store directory -/

/-- Splitting a path at its last slash gives its store directory. -/
theorem storeDir_eq_ok_iff {info : NarInfo} {directory : Str} :
    info.storeDir = .ok directory ↔
      ∃ base, info.storePath = directory ++ '/' :: base ∧ '/' ∉ base := by
  rw [NarInfo.storeDir]
  split
  next index found =>
    rcases Text.rfind_eq_some_iff.mp found with
      ⟨before, after, equal, rfl, fresh⟩
    rw [equal, List.take_left, Except.ok.injEq]
    constructor
    · rintro rfl
      exact ⟨after, rfl, fresh⟩
    · rintro ⟨base, same, baseFresh⟩
      have again : Text.rfind '/' info.storePath = some directory.length :=
        Text.rfind_eq_some_iff.mpr
          ⟨directory, base, equal.trans same, rfl, baseFresh⟩
      rw [found, Option.some.injEq] at again
      exact (List.append_inj same again).1
  next missing =>
    constructor
    · intro impossible
      cases impossible
    · rintro ⟨base, equal, -⟩
      apply absurd (Text.rfind_eq_none_iff.mp missing)
      simp [equal]

theorem exists_storeDir {info : NarInfo} (slash : '/' ∈ info.storePath) :
    ∃ directory, info.storeDir = .ok directory := by
  cases found : Text.rfind '/' info.storePath with
  | none => exact absurd slash (Text.rfind_eq_none_iff.mp found)
  | some index => exact ⟨_, by rw [NarInfo.storeDir, found]⟩

/-! ## The five parts -/

/-- The full path of a reference. -/
def referencePath (directory reference : Str) : Str :=
  directory ++ '/' :: reference

/-- The last part: the sorted references as full paths. -/
def referencesPart (directory : Str) (references : List Str) : Str :=
  [','].intercalate ((references.insertionSort (· ≤ ·)).map
    (referencePath directory))

/-- What a fingerprint joins, given its last part. -/
def parts (info : NarInfo) (references : Str) : List Str :=
  ["1".toList, info.storePath, info.narHash, displayU64 info.narSize,
    references]

theorem intercalate_parts (info : NarInfo) (references : Str) :
    [';'].intercalate (parts info references) =
      "1;".toList ++ info.storePath ++ [';'] ++ info.narHash ++ [';'] ++
        displayU64 info.narSize ++ [';'] ++ references := by
  simp [parts, List.intercalate_cons_cons]

/-- A fingerprint exists exactly when there is a store directory. -/
theorem fingerprint_eq_ok_iff {info : NarInfo} {fingerprint : Str} :
    info.fingerprint = .ok fingerprint ↔
      ∃ directory, info.storeDir = .ok directory ∧
        fingerprint = [';'].intercalate
          (parts info (referencesPart directory info.references)) := by
  have paths (directory : Str) :
      (referencePath directory) =
        fun reference => directory ++ ['/'] ++ reference := by
    funext reference
    simp [referencePath]
  rw [NarInfo.fingerprint, Runs.bind_eq_ok_iff]
  simp only [intercalate_parts, referencesPart, paths, Except.ok.injEq]
  constructor
  · rintro ⟨directory, found, equal⟩
    exact ⟨directory, found, equal.symm⟩
  · rintro ⟨directory, found, equal⟩
    exact ⟨directory, found, equal.symm⟩

/-- A fingerprint does not depend on the signatures. -/
theorem fingerprint_withSignatures (info : NarInfo)
    (sigs sigPqc : List Str) :
    NarInfo.fingerprint { info with sigs, sigPqc } = info.fingerprint := by
  rfl

end NixPqcCache.Fingerprint
