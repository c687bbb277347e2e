import NixPqcCache.NarinfoGrammar
import NixPqcCache.NarinfoRoundTrip

/-!
# The signature lines of a text

The parser appends the value of each `Sig:` and each `Sig-PQC:` line, so the
two lists of a parsed record are the values of those lines in text order.
-/

namespace NixPqcCache.NarinfoLines

open NixPqcCache.Data
open NixPqcCache.Foundation
open NixPqcCache.Narinfo
open NixPqcCache.NarinfoGrammar
open NixPqcCache.NarinfoRoundTrip

/-- The value of a line that has a given key. -/
def lineValue (field : Field) (line : Str) : Option Str :=
  match splitLine (Text.trimEndMatches '\r' line) with
  | .ok (key, value) => if key = field.key then some value else none
  | .error _ => none

/-- The values of the lines that have a given key, in text order. -/
def valuesOf (field : Field) (text : Str) : List Str :=
  (Text.lines text).filterMap (lineValue field)

/-! ## A whole text -/

/-- A line that is not effective has no value. -/
theorem toList_lineValue (field : Field) (line : Str) :
    (lineValue field line).toList =
      valuesIn field (entriesOf (effective [line])) := by
  rw [lineValue]
  by_cases empty : Text.trimEndMatches '\r' line = []
  · have none : effective [line] = [] := by
      simp [effective, empty]
    rw [none, empty]
    rfl
  · have kept : effective [line] = [Text.trimEndMatches '\r' line] := by
      simp [effective, empty]
    rw [kept]
    cases split : splitLine (Text.trimEndMatches '\r' line) with
    | error cause =>
        simp [entriesOf, valuesIn, split, Except.toOption]
    | ok entry =>
        by_cases same : entry.1 = field.key
        · simp [entriesOf, valuesIn, split, Except.toOption, same]
        · simp [entriesOf, valuesIn, split, Except.toOption, same]

theorem valuesOf_eq_valuesIn (field : Field) (text : Str) :
    valuesOf field text =
      valuesIn field (entriesOf (effectiveLines text)) := by
  rw [valuesOf, effectiveLines]
  induction Text.lines text with
  | nil => rfl
  | cons line lines induction =>
      rw [effective_cons, entriesOf_append, valuesIn_append,
        ← toList_lineValue, ← induction]
      exact List.filterMap_append (l := [line])

theorem sigs_eq_valuesOf {text : Str} {info : NarInfo}
    (parsed : NarInfo.parse text = .ok info) :
    info.sigs = valuesOf .sig text := by
  rw [eq_recordOf_of_parse parsed, valuesOf_eq_valuesIn]
  rfl

theorem sigPqc_eq_valuesOf {text : Str} {info : NarInfo}
    (parsed : NarInfo.parse text = .ok info) :
    info.sigPqc = valuesOf .sigPqc text := by
  rw [eq_recordOf_of_parse parsed, valuesOf_eq_valuesIn]
  rfl

/-- The text has a line `key: value`, up to its line ending. -/
def HasLine (text : Str) (field : Field) (value : Str) : Prop :=
  ∃ line ∈ Text.lines text,
    Text.trimEndMatches '\r' line = lineOf field.key value

theorem lineValue_eq_some_iff {field : Field} {line value : Str}
    (nonempty : value ≠ []) :
    lineValue field line = some value ↔
      Text.trimEndMatches '\r' line = lineOf field.key value := by
  rw [lineValue]
  constructor
  · intro found
    split at found
    next key other halves =>
      split at found
      next keyEq =>
        cases found
        subst key
        rcases splitLine_eq_ok_iff.mp halves with
          ⟨equal, -⟩ | ⟨-, empty, -⟩
        · rw [equal]
          simp [lineOf]
        · exact (nonempty empty).elim
      next => cases found
    next => cases found
  · intro equal
    have split : splitLine (lineOf field.key value) =
        .ok (field.key, value) :=
      splitLine_eq_ok_iff.mpr
        (Or.inl ⟨by simp [lineOf], Field.key_separator field⟩)
    simp [equal, split]

theorem mem_valuesOf_iff {field : Field} {text value : Str}
    (nonempty : value ≠ []) :
    value ∈ valuesOf field text ↔ HasLine text field value := by
  simp only [valuesOf, List.mem_filterMap, lineValue_eq_some_iff nonempty,
    HasLine]

/-! ## How many long entries fit -/

theorem length_le_of_lineValue {field : Field} {line value : Str}
    (found : lineValue field line = some value) :
    value.length ≤ line.length := by
  by_cases empty : value = []
  · simp [empty]
  · have trimmed := (Text.trimEndMatches_prefix '\r' line).length_le
    rw [(lineValue_eq_some_iff empty).mp found, lineOf] at trimmed
    simp only [List.length_append] at trimmed
    omega

/-- Entries of at least `least` symbols are few in a short text. -/
theorem mul_length_filterMap_valuesOf_le {α : Type} {field : Field}
    {text : Str} {decode : Str → Option α} {least : Nat}
    (long : ∀ entry value, decode entry = some value →
      least ≤ entry.length) :
    least * ((valuesOf field text).filterMap decode).length ≤
      text.length := by
  refine Nat.le_trans ?_ (Text.sum_length_lines_le text)
  rw [valuesOf]
  generalize Text.lines text = lines
  induction lines with
  | nil => simp
  | cons line lines induction =>
      rw [List.map_cons, List.sum_cons]
      cases found : lineValue field line with
      | none =>
          rw [List.filterMap_cons_none found]
          omega
      | some entry =>
          rw [List.filterMap_cons_some found]
          cases decoded : decode entry with
          | none =>
              rw [List.filterMap_cons_none decoded]
              omega
          | some value =>
              have entryLong := long entry value decoded
              have lineLong := length_le_of_lineValue found
              rw [List.filterMap_cons_some decoded, List.length_cons,
                Nat.mul_add]
              omega

end NixPqcCache.NarinfoLines
