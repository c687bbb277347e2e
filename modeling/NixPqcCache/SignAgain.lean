import NixPqcCache.SignRuns

/-!
# Signing again and signing in turn

For fixed signature functions a second signing by the same key writes the text
it found, and two keys of different names can sign in either order: each
leaves the entries of the other alone, and only the order of the two appended
pairs tells the results apart.
-/

namespace NixPqcCache.SignAgain

open NixPqcCache.Commands
open NixPqcCache.Data
open NixPqcCache.Foundation
open NixPqcCache.Hybrid
open NixPqcCache.HybridCandidates
open NixPqcCache.Keys
open NixPqcCache.Narinfo
open NixPqcCache.NarinfoRoundTrip
open NixPqcCache.SignRuns
open NixPqcCache.SignatureEntries
open NixPqcCache.VerifyPolicy

/-! ## Lists of entries -/

/-- A key's own entry is dropped with the others it has. -/
theorem dropOwn_append_own {name : Str} (clean : ':' ∉ name)
    (entries : List Str) (bytes : Bytes) :
    dropOwn name (dropOwn name entries ++ [entryOf name bytes]) =
      dropOwn name entries := by
  have own : (name ++ [':']).isPrefixOf (entryOf name bytes) = true :=
    (isPrefixOf_entryOf_iff clean bytes).mpr rfl
  simp [dropOwn, List.filter_append, List.filter_filter, own]

/-- The entry of another key stays. -/
theorem dropOwn_append_of_ne {name other : Str} (otherClean : ':' ∉ other)
    (different : name ≠ other) (entries : List Str) (bytes : Bytes) :
    dropOwn name (entries ++ [entryOf other bytes]) =
      dropOwn name entries ++ [entryOf other bytes] := by
  have foreign :
      (name ++ [':']).isPrefixOf (entryOf other bytes) = false := by
    rw [Bool.eq_false_iff]
    intro starts
    exact different ((isPrefixOf_entryOf_iff otherClean bytes).mp starts)
  rw [dropOwn, List.filter_append, ← dropOwn, List.filter_cons_of_pos]
  · rfl
  · simp [foreign]

theorem dropOwn_comm (name other : Str) (entries : List Str) :
    dropOwn name (dropOwn other entries) =
      dropOwn other (dropOwn name entries) := by
  simp only [dropOwn, List.filter_filter]
  apply List.filter_congr
  intro entry member
  exact Bool.and_comm _ _

/-- Two replacements differ by the order of the two new entries. -/
theorem replaced_perm {name other : Str} (clean : ':' ∉ name)
    (otherClean : ':' ∉ other) (different : name ≠ other)
    (entries : List Str) (bytes otherBytes : Bytes) :
    (dropOwn other (dropOwn name entries ++ [entryOf name bytes]) ++
        [entryOf other otherBytes]).Perm
      (dropOwn name (dropOwn other entries ++ [entryOf other otherBytes]) ++
        [entryOf name bytes]) := by
  rw [dropOwn_append_of_ne clean different.symm,
    dropOwn_append_of_ne otherClean different, dropOwn_comm other name,
    List.append_assoc, List.append_assoc]
  exact (List.Perm.swap _ _ []).append_left _

/-! ## Records -/

variable {Rand : Type} (primitives : Primitives Rand)

/-- A second signing of a record changes nothing. -/
theorem Signing.apply_apply (signing : Signing Rand) (fingerprint : Str)
    (info : NarInfo) :
    signing.apply primitives fingerprint
        (signing.apply primitives fingerprint info) =
      signing.apply primitives fingerprint info := by
  simp only [Signing.apply, signInfo, sigEntry_eq_entryOf,
    encodeSigPqc_eq_entryOf, dropOwn_append_own signing.colon]

/-- The entries of a name are the same in two records. -/
def KeepsEntries (name : Str) (before after : NarInfo) : Prop :=
  ownEntries name after.sigs = ownEntries name before.sigs ∧
    ownEntries name after.sigPqc = ownEntries name before.sigPqc

theorem Signing.apply_keepsEntries {signing other : Signing Rand}
    (different : signing.secret.name ≠ other.secret.name)
    (fingerprint : Str) (info : NarInfo) :
    KeepsEntries other.secret.name info
      (signing.apply primitives fingerprint info) := by
  constructor
  · simp only [Signing.apply, signInfo, sigEntry_eq_entryOf]
    exact ownEntries_append_of_ne other.colon signing.colon different _ _
  · simp only [Signing.apply, signInfo, encodeSigPqc_eq_entryOf]
    exact ownEntries_append_of_ne other.colon signing.colon different _ _

/-- Two records that differ in the order of their signatures only. -/
structure SameButOrder (left right : NarInfo) : Prop where
  fields : left =
    { right with sigs := left.sigs, sigPqc := left.sigPqc }
  sigs : left.sigs.Perm right.sigs
  sigPqc : left.sigPqc.Perm right.sigPqc

/-- Two keys sign in either order. -/
theorem Signing.apply_comm {first second : Signing Rand}
    (different : first.secret.name ≠ second.secret.name)
    (fingerprint : Str) (info : NarInfo) :
    SameButOrder
      (second.apply primitives fingerprint
        (first.apply primitives fingerprint info))
      (first.apply primitives fingerprint
        (second.apply primitives fingerprint info)) where
  fields := rfl
  sigs := by
    simp only [Signing.apply, signInfo, sigEntry_eq_entryOf]
    exact replaced_perm first.colon second.colon different _ _ _
  sigPqc := by
    simp only [Signing.apply, signInfo, encodeSigPqc_eq_entryOf]
    exact replaced_perm first.colon second.colon different _ _ _

/-! ## Texts -/

/-- A text that is signed holds a record, and the result its rewrite. -/
theorem Signing.holds_of_rewrite {signing : Signing Rand} {text signed : Str}
    (written : Signing.rewrite primitives text signing = .ok signed) :
    ∃ info fingerprint, Holds info fingerprint text ∧
      signed = (signing.apply primitives fingerprint info).toText ∧
        Holds (signing.apply primitives fingerprint info) fingerprint
          signed := by
  rcases Runs.bind_eq_ok_iff.mp written with ⟨info, parsed, rest⟩
  rcases Runs.bind_eq_ok_iff.mp rest with ⟨fingerprint, computed, -⟩
  have holds : Holds info fingerprint text := ⟨parsed, computed⟩
  rw [signing.rewrite_eq primitives holds, Except.ok.injEq] at written
  rw [← written]
  exact ⟨info, fingerprint, holds, rfl, signing.holds_toText primitives holds⟩

/-- A signed text is its own signed text. -/
theorem Signing.rewrite_signed {signing : Signing Rand} {text signed : Str}
    (written : Signing.rewrite primitives text signing = .ok signed) :
    Signing.rewrite primitives signed signing = .ok signed := by
  rcases Signing.holds_of_rewrite primitives written with
    ⟨info, fingerprint, holds, rfl, -⟩
  rw [signing.rewrite_eq primitives (signing.holds_toText primitives holds),
    Signing.apply_apply]

/-- A signing under another name keeps the entries of a text. -/
theorem Signing.rewrite_keepsEntries {signing other : Signing Rand}
    (different : signing.secret.name ≠ other.secret.name)
    {text signed : Str} {before after : NarInfo}
    (parsed : NarInfo.parse text = .ok before)
    (written : Signing.rewrite primitives text signing = .ok signed)
    (signedParsed : NarInfo.parse signed = .ok after) :
    KeepsEntries other.secret.name before after := by
  rcases Signing.holds_of_rewrite primitives written with
    ⟨info, fingerprint, holds, -, signedHolds⟩
  rw [holds.1, Except.ok.injEq] at parsed
  rw [signedHolds.1, Except.ok.injEq] at signedParsed
  rw [← parsed, ← signedParsed]
  exact Signing.apply_keepsEntries primitives different fingerprint info

/-- Two keys sign a text in either order. -/
theorem Signing.rewrite_comm {first second : Signing Rand}
    (different : first.secret.name ≠ second.secret.name) {info : NarInfo}
    {fingerprint text : Str} (holds : Holds info fingerprint text) :
    ∃ left right leftInfo rightInfo,
      rewriteAll primitives text [first, second] = .ok left ∧
        rewriteAll primitives text [second, first] = .ok right ∧
          NarInfo.parse left = .ok leftInfo ∧
            NarInfo.parse right = .ok rightInfo ∧
              SameButOrder leftInfo rightInfo := by
  rcases @rewriteAll_holds _ primitives [first, second] _ _ _ holds with
    ⟨left, leftRan, leftHolds⟩
  rcases @rewriteAll_holds _ primitives [second, first] _ _ _ holds with
    ⟨right, rightRan, rightHolds⟩
  exact ⟨left, right, _, _, leftRan, rightRan, leftHolds.1, rightHolds.1,
    Signing.apply_comm primitives different fingerprint info⟩

/--
Signing is idempotent on texts, and keys of different names commute: either
order succeeds, the results differ in the order of the signatures only, and a
key never removes an entry of the other.
-/
theorem rewrite_idempotent_and_commutes {text fingerprint : Str}
    {info : NarInfo} (parsed : NarInfo.parse text = .ok info)
    (computed : info.fingerprint = .ok fingerprint) :
    (∀ signing : Signing Rand, ∃ signed,
      Signing.rewrite primitives text signing = .ok signed ∧
        Signing.rewrite primitives signed signing = .ok signed) ∧
      ∀ first second : Signing Rand,
        first.secret.name ≠ second.secret.name →
          (∃ left right leftInfo rightInfo,
            rewriteAll primitives text [first, second] = .ok left ∧
              rewriteAll primitives text [second, first] = .ok right ∧
                NarInfo.parse left = .ok leftInfo ∧
                  NarInfo.parse right = .ok rightInfo ∧
                    SameButOrder leftInfo rightInfo) ∧
            ∀ written signed before after,
              NarInfo.parse written = .ok before →
                Signing.rewrite primitives written first = .ok signed →
                  NarInfo.parse signed = .ok after →
                    KeepsEntries second.secret.name before after := by
  constructor
  · intro signing
    have written := signing.rewrite_eq primitives ⟨parsed, computed⟩
    exact ⟨_, written, Signing.rewrite_signed primitives written⟩
  · intro first second different
    constructor
    · exact Signing.rewrite_comm primitives different ⟨parsed, computed⟩
    · intro written signed before after found ran signedParsed
      exact Signing.rewrite_keepsEntries primitives different found ran
        signedParsed

/-- Two keys sign a narinfo that has entries of both. -/
theorem rewrite_idempotent_sample :
    ∃ signed after left right leftInfo rightInfo,
      Signing.rewrite Primitives.transparent sampleMixed.toText
          sampleSigning = .ok signed ∧
        Signing.rewrite Primitives.transparent signed sampleSigning =
          .ok signed ∧
        NarInfo.parse signed = .ok after ∧
        KeepsEntries sampleOther.name sampleMixed after ∧
        rewriteAll Primitives.transparent sampleMixed.toText
          [sampleSigning, sampleOtherSigning] = .ok left ∧
        rewriteAll Primitives.transparent sampleMixed.toText
          [sampleOtherSigning, sampleSigning] = .ok right ∧
        NarInfo.parse left = .ok leftInfo ∧
        NarInfo.parse right = .ok rightInfo ∧
        SameButOrder leftInfo rightInfo := by
  rcases rewrite_idempotent_and_commutes Primitives.transparent
    sampleMixed_holds.1 sampleMixed_holds.2 with ⟨idempotent, commutes⟩
  rcases idempotent sampleSigning with ⟨signed, written, again⟩
  rcases Signing.holds_of_rewrite _ written with
    ⟨info, fingerprint, -, -, signedHolds⟩
  rcases commutes sampleSigning sampleOtherSigning (by decide) with
    ⟨⟨left, right, leftInfo, rightInfo, orders⟩, keeps⟩
  exact ⟨signed, _, left, right, leftInfo, rightInfo, written, again,
    signedHolds.1,
    keeps _ _ _ _ sampleMixed_holds.1 written signedHolds.1, orders⟩

end NixPqcCache.SignAgain
