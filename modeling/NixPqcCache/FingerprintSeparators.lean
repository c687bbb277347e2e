import NixPqcCache.Fingerprint
import NixPqcCache.NarinfoRoundTrip

/-!
# What a fingerprint says about the fields

The parts of a fingerprint are joined without escaping, so a separator inside
a field can move its border.  A record without `';'` has a fingerprint that no
other fields share, whatever they contain; the references are determined as
well when neither record has a `','` in them.
-/

namespace NixPqcCache.FingerprintSeparators

open NixPqcCache.Data
open NixPqcCache.Fingerprint
open NixPqcCache.Foundation
open NixPqcCache.Narinfo

/-- The fields of a fingerprint do not contain the separator of its parts. -/
structure SemicolonFree (info : NarInfo) : Prop where
  storePath : ';' ∉ info.storePath
  narHash : ';' ∉ info.narHash
  references : ∀ reference ∈ info.references, ';' ∉ reference

/-- The references do not contain the separator of their paths. -/
def CommaFree (info : NarInfo) : Prop :=
  ∀ reference ∈ info.references, ',' ∉ reference

/-! ## The parts -/

theorem SemicolonFree.not_mem_referencesPart {info : NarInfo} {directory : Str}
    (clean : SemicolonFree info) (found : info.storeDir = .ok directory) :
    ';' ∉ referencesPart directory info.references := by
  rcases storeDir_eq_ok_iff.mp found with ⟨base, equal, -⟩
  apply Joined.not_mem_intercalate (by decide)
  intro path member
  rcases List.mem_map.mp member with ⟨reference, inside, rfl⟩
  have referenceClean :=
    clean.references reference ((List.mem_insertionSort _).mp inside)
  have directoryClean : ';' ∉ directory := by
    intro inDirectory
    apply clean.storePath
    simp [equal, inDirectory]
  simp [referencePath, directoryClean, referenceClean]

theorem SemicolonFree.forall_parts {info : NarInfo} {directory : Str}
    (clean : SemicolonFree info) (found : info.storeDir = .ok directory) :
    ∀ part ∈ parts info (referencesPart directory info.references),
      ';' ∉ part := by
  have digits : ';' ∉ displayU64 info.narSize :=
    Decimal.not_mem_toDigits (by decide) _
  simp only [parts, List.forall_mem_cons]
  refine ⟨by decide, clean.storePath, clean.narHash, digits,
    clean.not_mem_referencesPart found, ?_⟩
  simp

theorem displayU64_injective {left right : UInt64}
    (equal : displayU64 left = displayU64 right) : left = right :=
  UInt64.toNat_inj.mp (Decimal.toDigits_injective equal)

/-! ## Fields -/

/-- The fields and the last part of a clean record are determined. -/
theorem fields_eq_of_parts_eq {info other : NarInfo}
    {references otherReferences : Str}
    (clean : ∀ part ∈ parts info references, ';' ∉ part)
    (equal : [';'].intercalate (parts info references) =
      [';'].intercalate (parts other otherReferences)) :
    (info.storePath = other.storePath ∧ info.narHash = other.narHash ∧
      info.narSize = other.narSize) ∧ references = otherReferences := by
  have same : parts info references = parts other otherReferences :=
    Joined.intercalate_injective_of_clean rfl clean equal
  simp only [parts, List.cons.injEq, and_true, true_and] at same
  rcases same with ⟨storePath, narHash, narSize, references⟩
  exact ⟨⟨storePath, narHash, displayU64_injective narSize⟩, references⟩

/-- A fingerprint that a clean record has determines these fields. -/
theorem fields_eq_of_fingerprint_eq {info other : NarInfo}
    {fingerprint : Str} (clean : SemicolonFree info)
    (computed : info.fingerprint = .ok fingerprint)
    (otherComputed : other.fingerprint = .ok fingerprint) :
    info.storePath = other.storePath ∧ info.narHash = other.narHash ∧
      info.narSize = other.narSize := by
  rcases fingerprint_eq_ok_iff.mp computed with ⟨directory, found, equal⟩
  rcases fingerprint_eq_ok_iff.mp otherComputed with
    ⟨otherDirectory, otherFound, otherEqual⟩
  exact (fields_eq_of_parts_eq (clean.forall_parts found)
    (equal.symm.trans otherEqual)).1

/-! ## References -/

theorem perm_of_referencesPart_eq {directory : Str}
    {references otherReferences : List Str}
    (clean : ∀ reference ∈ references, ',' ∉ reference)
    (otherClean : ∀ reference ∈ otherReferences, ',' ∉ reference)
    (equal : referencesPart directory references =
      referencesPart directory otherReferences) :
    references.Perm otherReferences := by
  have paths : referencePath directory =
      ((directory ++ ['/']) ++ ·) := by
    funext reference
    simp [referencePath]
  simp only [referencesPart, paths] at equal
  have sorted := Joined.intercalate_map_append_injective (by simp)
    (fun reference member =>
      clean reference ((List.mem_insertionSort _).mp member))
    (fun reference member =>
      otherClean reference ((List.mem_insertionSort _).mp member)) equal
  calc
    references.Perm (references.insertionSort (· ≤ ·)) :=
      (List.perm_insertionSort _ _).symm
    _ = otherReferences.insertionSort (· ≤ ·) := sorted
    List.Perm _ otherReferences := List.perm_insertionSort _ _

/-- The fingerprint of a clean record determines its references. -/
theorem references_perm_of_fingerprint_eq {info other : NarInfo}
    {fingerprint : Str} (clean : SemicolonFree info)
    (commas : CommaFree info) (otherCommas : CommaFree other)
    (computed : info.fingerprint = .ok fingerprint)
    (otherComputed : other.fingerprint = .ok fingerprint) :
    info.references.Perm other.references := by
  rcases fingerprint_eq_ok_iff.mp computed with ⟨directory, found, equal⟩
  rcases fingerprint_eq_ok_iff.mp otherComputed with
    ⟨otherDirectory, otherFound, otherEqual⟩
  rcases fields_eq_of_parts_eq (clean.forall_parts found)
    (equal.symm.trans otherEqual) with ⟨⟨storePath, -⟩, references⟩
  have sameDirectory : otherDirectory = directory := by
    rw [NarInfo.storeDir, ← storePath, ← NarInfo.storeDir, found] at otherFound
    exact (Except.ok.inj otherFound).symm
  rw [sameDirectory] at references
  exact perm_of_referencesPart_eq commas otherCommas references

/-- The order of the references does not reach a fingerprint. -/
theorem referencesPart_eq_of_perm {directory : Str}
    {references otherReferences : List Str}
    (rearranged : otherReferences.Perm references) :
    referencesPart directory otherReferences =
      referencesPart directory references := by
  have sorted :
      otherReferences.insertionSort (· ≤ ·) =
        references.insertionSort (· ≤ ·) := by
    apply List.Perm.eq_of_pairwise' (r := (· ≤ ·))
    · exact List.pairwise_insertionSort _ _
    · exact List.pairwise_insertionSort _ _
    · calc
        (otherReferences.insertionSort (· ≤ ·)).Perm otherReferences :=
          List.perm_insertionSort _ _
        List.Perm _ references := rearranged
        List.Perm _ (references.insertionSort (· ≤ ·)) :=
          (List.perm_insertionSort _ _).symm
  rw [referencesPart, sorted, referencesPart]

/-- Records that agree on these fields share their fingerprint. -/
theorem fingerprint_of_fields_eq {info other : NarInfo} {fingerprint : Str}
    (computed : info.fingerprint = .ok fingerprint)
    (storePath : other.storePath = info.storePath)
    (narHash : other.narHash = info.narHash)
    (narSize : other.narSize = info.narSize)
    (references : other.references.Perm info.references) :
    other.fingerprint = .ok fingerprint := by
  rcases fingerprint_eq_ok_iff.mp computed with ⟨directory, found, rfl⟩
  refine fingerprint_eq_ok_iff.mpr ⟨directory, ?_, ?_⟩
  · rw [NarInfo.storeDir, storePath]
    exact found
  · rw [referencesPart_eq_of_perm references, parts, parts, storePath,
      narHash, narSize]

/-! ## Clean records -/

/--
A record whose fields are free of `';'` shares its fingerprint only with
records of the same path, hash and size, whatever those contain.  If the
references of both are free of `','`, it shares it exactly with those that
also list the same references, in any order.
-/
theorem clean_fingerprint_unambiguous {info : NarInfo} {fingerprint : Str}
    (computed : info.fingerprint = .ok fingerprint)
    (clean : SemicolonFree info) (other : NarInfo) :
    (other.fingerprint = info.fingerprint →
      other.storePath = info.storePath ∧ other.narHash = info.narHash ∧
        other.narSize = info.narSize) ∧
      (CommaFree info → CommaFree other →
        (other.fingerprint = info.fingerprint ↔
          other.storePath = info.storePath ∧ other.narHash = info.narHash ∧
            other.narSize = info.narSize ∧
              other.references.Perm info.references)) := by
  have fields (equal : other.fingerprint = info.fingerprint) :
      other.storePath = info.storePath ∧ other.narHash = info.narHash ∧
        other.narSize = info.narSize := by
    rcases fields_eq_of_fingerprint_eq clean computed
      (equal.trans computed) with ⟨storePath, narHash, narSize⟩
    exact ⟨storePath.symm, narHash.symm, narSize.symm⟩
  refine ⟨fields, ?_⟩
  intro commas otherCommas
  constructor
  · intro equal
    rcases fields equal with ⟨storePath, narHash, narSize⟩
    exact ⟨storePath, narHash, narSize,
      (references_perm_of_fingerprint_eq clean commas otherCommas computed
        (equal.trans computed)).symm⟩
  · rintro ⟨storePath, narHash, narSize, references⟩
    rw [computed]
    exact fingerprint_of_fields_eq computed storePath narHash narSize
      references

/-- Two orders of the same references. -/
theorem clean_fingerprint_sample :
    let info : NarInfo :=
      { storePath := "/s/a".toList, narHash := "h".toList,
        references := ["q".toList, "r".toList] }
    let other : NarInfo :=
      { info with references := ["r".toList, "q".toList] }
    other.fingerprint = info.fingerprint := by
  intro info other
  have computed :
      info.fingerprint = .ok "1;/s/a;h;0;/s/q,/s/r".toList := by decide
  have clean : SemicolonFree info :=
    ⟨by decide, by decide, by decide⟩
  apply ((clean_fingerprint_unambiguous computed clean other).2
    (by unfold CommaFree; decide) (by unfold CommaFree; decide)).mpr
  exact ⟨rfl, rfl, rfl, List.Perm.swap _ _ []⟩

/-! ## Accepted texts -/

/--
Two accepted texts with one fingerprint agree on the fields it joins, once one
of them is free of `';'`, and on the references, once both are free of `','`
there.
-/
theorem parsed_fields_eq_of_fingerprint_eq {text otherText : Str}
    {info other : NarInfo} {fingerprint : Str}
    (_parsed : NarInfo.parse text = .ok info)
    (_otherParsed : NarInfo.parse otherText = .ok other)
    (computed : info.fingerprint = .ok fingerprint)
    (otherComputed : other.fingerprint = .ok fingerprint)
    (clean : SemicolonFree info ∨ SemicolonFree other) :
    info.storePath = other.storePath ∧ info.narHash = other.narHash ∧
      info.narSize = other.narSize ∧
        (CommaFree info → CommaFree other →
          ∀ reference,
            reference ∈ info.references ↔ reference ∈ other.references) := by
  rcases clean with clean | clean
  · rcases fields_eq_of_fingerprint_eq clean computed otherComputed with
      ⟨storePath, narHash, narSize⟩
    refine ⟨storePath, narHash, narSize, ?_⟩
    intro commas otherCommas reference
    exact (references_perm_of_fingerprint_eq clean commas otherCommas
      computed otherComputed).mem_iff
  · rcases fields_eq_of_fingerprint_eq clean otherComputed computed with
      ⟨storePath, narHash, narSize⟩
    refine ⟨storePath.symm, narHash.symm, narSize.symm, ?_⟩
    intro commas otherCommas reference
    exact (references_perm_of_fingerprint_eq clean otherCommas commas
      otherComputed computed).mem_iff.symm

/-- The order of the references is not part of a fingerprint. -/
theorem parsed_fields_eq_sample :
    let info : NarInfo :=
      { storePath := "/s/a".toList, narHash := "h".toList,
        references := ["q".toList, "r".toList] }
    let other : NarInfo :=
      { info with references := ["r".toList, "q".toList] }
    info.storePath = other.storePath ∧ info.narHash = other.narHash ∧
      info.narSize = other.narSize ∧
        ∀ reference,
          reference ∈ info.references ↔ reference ∈ other.references := by
  intro info other
  have parsed :
      NarInfo.parse "StorePath: /s/a\nNarHash: h\nReferences: q r\n".toList =
        .ok info := by decide
  have otherParsed :
      NarInfo.parse "StorePath: /s/a\nNarHash: h\nReferences: r q\n".toList =
        .ok other := by decide
  have computed :
      info.fingerprint = .ok "1;/s/a;h;0;/s/q,/s/r".toList := by decide
  have otherComputed :
      other.fingerprint = .ok "1;/s/a;h;0;/s/q,/s/r".toList := by decide
  have clean : SemicolonFree info :=
    ⟨by decide, by decide, by decide⟩
  rcases parsed_fields_eq_of_fingerprint_eq parsed otherParsed computed
      otherComputed (.inl clean) with
    ⟨storePath, narHash, narSize, references⟩
  exact ⟨storePath, narHash, narSize,
    references (by unfold CommaFree; decide) (by unfold CommaFree; decide)⟩

/--
A `';'` moves the border of two fields and a `','` the border of two
references, so accepted texts that differ there share a fingerprint.
-/
theorem fingerprint_shared_by_different_fields :
    let shifted : NarInfo :=
      { storePath := "/s/a;x".toList, narHash := "y".toList }
    let unshifted : NarInfo :=
      { storePath := "/s/a".toList, narHash := "x;y".toList }
    let joined : NarInfo :=
      { storePath := "/s/a".toList, narHash := "h".toList,
        references := ["b,/s/c".toList] }
    let separate : NarInfo :=
      { joined with references := ["b".toList, "c".toList] }
    (NarInfo.parse "StorePath: /s/a;x\nNarHash: y\n".toList = .ok shifted ∧
      NarInfo.parse "StorePath: /s/a\nNarHash: x;y\n".toList =
        .ok unshifted ∧
      shifted.fingerprint = .ok "1;/s/a;x;y;0;".toList ∧
      unshifted.fingerprint = .ok "1;/s/a;x;y;0;".toList ∧
      shifted.storePath ≠ unshifted.storePath ∧
      shifted.narHash ≠ unshifted.narHash) ∧
      NarInfo.parse "StorePath: /s/a\nNarHash: h\nReferences: b,/s/c\n".toList =
        .ok joined ∧
      NarInfo.parse "StorePath: /s/a\nNarHash: h\nReferences: b c\n".toList =
        .ok separate ∧
      joined.fingerprint = .ok "1;/s/a;h;0;/s/b,/s/c".toList ∧
      separate.fingerprint = .ok "1;/s/a;h;0;/s/b,/s/c".toList ∧
      "b".toList ∉ joined.references ∧ "b".toList ∈ separate.references := by
  decide

end NixPqcCache.FingerprintSeparators
