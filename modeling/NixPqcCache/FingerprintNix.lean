import Mathlib.Data.Finset.Sort
import NixPqcCache.Fingerprint

/-!
# The fingerprint as Nix defines it

`ValidPathInfo::fingerprint` joins a set of store paths in ascending order.
The crate sorts the list of references instead, and the two agree exactly when
the list has no repetitions: each repetition makes the join longer.
-/

namespace NixPqcCache.FingerprintNix

open NixPqcCache.Data
open NixPqcCache.Fingerprint
open NixPqcCache.Foundation
open NixPqcCache.Narinfo

/-! ## The definition over a set of paths -/

/-- A path up to its last slash. -/
def storeDirectory (path : Str) : Str :=
  (path.rdropWhile (· != '/')).dropLast

/-- The references as a set of full paths. -/
def referencePaths (info : NarInfo) : Finset Str :=
  info.references.toFinset.image
    (referencePath (storeDirectory info.storePath))

/-- `ValidPathInfo::fingerprint` over a `StorePathSet`. -/
def nixFingerprint (info : NarInfo) : Str :=
  "1;".toList ++ info.storePath ++ [';'] ++ info.narHash ++ [';'] ++
    displayU64 info.narSize ++ [';'] ++
      [','].intercalate ((referencePaths info).sort (· ≤ ·))

theorem nixFingerprint_eq (info : NarInfo) :
    nixFingerprint info =
      [';'].intercalate (parts info
        ([','].intercalate ((referencePaths info).sort (· ≤ ·)))) :=
  (intercalate_parts info _).symm

/-! ## Paths in order -/

theorem referencePath_injective (directory : Str) :
    Function.Injective (referencePath directory) := by
  intro left right equal
  simpa [referencePath] using equal

theorem referencePath_le_iff (directory left right : Str) :
    referencePath directory left ≤ referencePath directory right ↔
      left ≤ right := by
  have mono : StrictMono (referencePath directory) := by
    intro left right less
    apply List.append_left_lt
    exact List.Lex.cons less
  exact mono.le_iff_le

theorem storeDirectory_eq {info : NarInfo} {directory : Str}
    (found : info.storeDir = .ok directory) :
    storeDirectory info.storePath = directory := by
  rcases storeDir_eq_ok_iff.mp found with ⟨base, equal, fresh⟩
  have dropped :
      (directory ++ '/' :: base).rdropWhile (· != '/') =
        directory ++ ['/'] := by
    have skip : ∀ symbol ∈ base.reverse, (symbol != '/') = true := by
      intro symbol member
      rw [bne_iff_ne]
      rintro rfl
      exact fresh (List.mem_reverse.mp member)
    rw [List.rdropWhile, List.reverse_append, List.reverse_cons,
      List.append_assoc, List.dropWhile_append_of_pos skip]
    simp
  rw [storeDirectory, equal, dropped, List.dropLast_concat]

/-- Sorting the references sorts their paths. -/
theorem map_referencePath_sorted (directory : Str)
    (references : List Str) :
    ((references.insertionSort (· ≤ ·)).map
      (referencePath directory)).Pairwise (· ≤ ·) := by
  rw [List.pairwise_map]
  simp only [referencePath_le_iff]
  exact List.pairwise_insertionSort _ _

/-- The paths of the references, as a set, are those of the sorted list. -/
theorem toFinset_map_referencePath (directory : Str)
    (references : List Str) :
    ((references.insertionSort (· ≤ ·)).map
        (referencePath directory)).toFinset =
      references.toFinset.image (referencePath directory) := by
  ext path
  simp

theorem nodup_map_referencePath_iff (directory : Str)
    (references : List Str) :
    ((references.insertionSort (· ≤ ·)).map
        (referencePath directory)).Nodup ↔ references.Nodup := by
  rw [List.nodup_map_iff (referencePath_injective directory)]
  exact (List.perm_insertionSort _ _).nodup_iff

/-! ## Agreement -/

/-- The crate's last part is that of Nix when no reference repeats. -/
theorem referencesPart_eq_iff (directory : Str) (references : List Str) :
    referencesPart directory references =
        [','].intercalate ((references.toFinset.image
          (referencePath directory)).sort (· ≤ ·)) ↔
      references.Nodup := by
  rw [← nodup_map_referencePath_iff directory,
    ← toFinset_map_referencePath]
  exact Joined.intercalate_eq_sort_iff
    (map_referencePath_sorted directory references)

/-- The crate computes Nix's fingerprint exactly when no reference repeats. -/
theorem fingerprint_eq_nixFingerprint_iff {info : NarInfo}
    (slash : '/' ∈ info.storePath) :
    info.fingerprint = .ok (nixFingerprint info) ↔ info.references.Nodup := by
  rcases exists_storeDir slash with ⟨directory, found⟩
  rw [← referencesPart_eq_iff directory]
  have computed := fingerprint_eq_ok_iff.mpr ⟨directory, found, rfl⟩
  rw [computed, Except.ok.injEq, nixFingerprint_eq, intercalate_parts,
    intercalate_parts, referencePaths, storeDirectory_eq found,
    List.append_right_inj]

theorem nixFingerprint_congr {info other : NarInfo}
    (storePath : other.storePath = info.storePath)
    (narHash : other.narHash = info.narHash)
    (narSize : other.narSize = info.narSize)
    (references : ∀ reference,
      reference ∈ other.references ↔ reference ∈ info.references) :
    nixFingerprint other = nixFingerprint info := by
  have sets : other.references.toFinset = info.references.toFinset := by
    ext reference
    simp [references]
  rw [nixFingerprint_eq, nixFingerprint_eq, parts, parts, referencePaths,
    referencePaths, storePath, narHash, narSize, sets]

/--
The fingerprint is that of Nix exactly when no reference repeats.  Of two
records that agree up to order and repetition of their references, the one
without repetitions has the fingerprint of the other exactly when the other
has no repetitions either.
-/
theorem fingerprint_is_nix_iff_nodup (info : NarInfo)
    (slash : '/' ∈ info.storePath) :
    (info.fingerprint = .ok (nixFingerprint info) ↔
        info.references.Nodup) ∧
      ∀ other : NarInfo, other.storePath = info.storePath →
        other.narHash = info.narHash → other.narSize = info.narSize →
          (∀ reference,
            reference ∈ other.references ↔ reference ∈ info.references) →
          info.references.Nodup →
            (other.fingerprint = info.fingerprint ↔
              other.references.Nodup) := by
  refine ⟨fingerprint_eq_nixFingerprint_iff slash, ?_⟩
  intro other storePath narHash narSize references nodup
  have own := (fingerprint_eq_nixFingerprint_iff slash).mpr nodup
  have otherSlash : '/' ∈ other.storePath := by rwa [storePath]
  rw [own, ← nixFingerprint_congr storePath narHash narSize references]
  exact fingerprint_eq_nixFingerprint_iff otherSlash

theorem fingerprint_is_nix_sample :
    let info : NarInfo :=
      { storePath := "/s/a".toList, narHash := "h".toList,
        references := ["q".toList, "r".toList] }
    let other : NarInfo :=
      { info with references := ["r".toList, "q".toList] }
    other.fingerprint = info.fingerprint := by
  intro info other
  refine ((fingerprint_is_nix_iff_nodup info (by decide)).2 other rfl rfl rfl
    ?_ (by decide)).mpr (by decide)
  intro reference
  simp [info, other, or_comm]

/-- A repeated reference stays in the crate's fingerprint. -/
theorem fingerprint_keeps_repetitions :
    let once : NarInfo :=
      { storePath := "/s/a".toList, narHash := "h".toList,
        references := ["r".toList] }
    let twice : NarInfo :=
      { once with references := ["r".toList, "r".toList] }
    twice.fingerprint = .ok "1;/s/a;h;0;/s/r,/s/r".toList ∧
      once.fingerprint = .ok "1;/s/a;h;0;/s/r".toList ∧
        nixFingerprint twice = "1;/s/a;h;0;/s/r".toList := by
  refine ⟨by decide, by decide, ?_⟩
  rw [nixFingerprint_eq, show referencePaths _ = {"/s/r".toList} by decide,
    Finset.sort_singleton, List.intercalate_singleton]
  decide

end NixPqcCache.FingerprintNix
