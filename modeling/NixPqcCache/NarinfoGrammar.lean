import NixPqcCache.Foundation.Runs
import NixPqcCache.Foundation.Stateful
import NixPqcCache.Narinfo

/-!
# The grammar of a narinfo

What `NarInfo::parse` accepts and what it makes of it, without its loop.  A
text is the list of its effective lines; an effective line is an entry, a key
and a value, or is rejected by itself.  An accepted record says for each key
what its last value is, or all of them where the values are collected.

Since the loop only appears through the effective lines and, key by key,
through the values, edits of the text that keep these cannot be noticed.
-/

namespace NixPqcCache.NarinfoGrammar

open NixPqcCache.Data
open NixPqcCache.Foundation
open NixPqcCache.Narinfo

/-! ## The grammar -/

/-- Lines without the returns they end in, when something is left. -/
def effective (lines : List Str) : List Str :=
  (lines.map (Text.trimEndMatches '\r')).filter (· ≠ [])

/-- The lines of a text that the parser looks at. -/
def effectiveLines (text : Str) : List Str :=
  effective (Text.lines text)

/-- The line contains `": "` or ends in `":"`. -/
def Shaped (line : Str) : Prop :=
  [':', ' '] <:+: line ∨ [':'] <:+ line

/-- The entries that lines hold, in their order. -/
def entriesOf (lines : List Str) : List (Str × Str) :=
  lines.filterMap fun line => (splitLine line).toOption

/-- The values that entries give to a key, in their order. -/
def valuesIn (field : Field) (entries : List (Str × Str)) : List Str :=
  entries.filterMap fun entry =>
    if entry.1 = field.key then some entry.2 else none

/-- The value of the last entry of a key. -/
def lastValue (field : Field) (entries : List (Str × Str)) : Option Str :=
  (valuesIn field entries).getLast?

/-- The value of a `u64` literal. -/
def u64Value (value : Str) : Option UInt64 :=
  (parseU64 value).toOption

/-- What entries say. -/
def recordOf (entries : List (Str × Str)) : NarInfo where
  storePath := (lastValue .storePath entries).getD []
  url := (lastValue .url entries).getD []
  compression := (lastValue .compression entries).getD []
  fileHash := lastValue .fileHash entries
  fileSize := (lastValue .fileSize entries).bind u64Value
  narHash := (lastValue .narHash entries).getD []
  narSize := ((lastValue .narSize entries).bind u64Value).getD 0
  references := ((lastValue .references entries).map parseReferences).getD []
  deriver := lastValue .deriver entries
  system := lastValue .system entries
  sigs := valuesIn .sig entries
  sigPqc := valuesIn .sigPqc entries
  extra := entries.filter fun entry => Field.ofKey entry.1 = none

/-- The lines that are accepted. -/
structure Accepted (lines : List Str) : Prop where
  shaped : ∀ line ∈ lines, Shaped line
  fileSizes : ∀ value ∈ valuesIn .fileSize (entriesOf lines),
    ∃ size, parseU64 value = .ok size
  narSizes : ∀ value ∈ valuesIn .narSize (entriesOf lines),
    ∃ size, parseU64 value = .ok size
  storePath : ∃ value, lastValue .storePath (entriesOf lines) = some value ∧
    value ≠ []
  narHash : ∃ value, lastValue .narHash (entriesOf lines) = some value ∧
    value ≠ []

/-! ## One line -/

theorem shaped_iff {line : Str} :
    Shaped line ↔ ∃ entry, splitLine line = .ok entry := by
  constructor
  · intro shaped
    by_cases inside : [':', ' '] <:+: line
    · cases split : Text.splitOnce [':', ' '] line with
      | some halves => exact ⟨halves, by rw [splitLine, split]⟩
      | none =>
          exact absurd inside
            ((Text.splitOnce_eq_none_iff (by decide)).mp split)
    · rcases shaped.resolve_left inside with ⟨key, rfl⟩
      exact ⟨(key, []), splitLine_eq_ok_iff.mpr (Or.inr ⟨rfl, rfl, inside⟩)⟩
  · rintro ⟨⟨key, value⟩, split⟩
    rcases splitLine_eq_ok_iff.mp split with ⟨rfl, -⟩ | ⟨rfl, -, -⟩
    · exact Or.inl ⟨key, value, by simp⟩
    · exact Or.inr (List.suffix_append _ _)

/-- Why the value of a key is rejected. -/
def valueError (key value : Str) : Option Error :=
  match Field.ofKey key with
  | some .fileSize =>
      match parseU64 value with
      | .ok _ => none
      | .error kind => some (.fileSize kind)
  | some .narSize =>
      match parseU64 value with
      | .ok _ => none
      | .error kind => some (.narSize kind)
  | _ => none

/-- Why a line is rejected. -/
def lineError (line : Str) : Option Error :=
  match splitLine line with
  | .ok (key, value) => valueError key value
  | .error cause => some cause

theorem valueError_eq_none_iff {key value : Str} :
    valueError key value = none ↔
      (key = Field.fileSize.key ∨ key = Field.narSize.key →
        ∃ size, parseU64 value = .ok size) := by
  rw [valueError]
  cases found : Field.ofKey key with
  | none =>
      have unknown := Field.ofKey_eq_none_iff.mp found
      simp [(unknown .fileSize).symm, (unknown .narSize).symm]
  | some field =>
      rcases Field.ofKey_eq_some_iff.mp found with rfl
      simp only [Field.key_inj]
      cases field with
      | fileSize => cases parseU64 value <;> simp
      | narSize => cases parseU64 value <;> simp
      | _ => simp

theorem lineError_eq_none_iff {line : Str} :
    lineError line = none ↔
      ∃ entry, splitLine line = .ok entry ∧
        valueError entry.1 entry.2 = none := by
  rw [lineError]
  cases splitLine line with
  | error cause => simp
  | ok entry => simp

@[simp]
theorem entriesOf_append (before after : List Str) :
    entriesOf (before ++ after) = entriesOf before ++ entriesOf after :=
  List.filterMap_append

@[simp]
theorem valuesIn_append (field : Field) (before after : List (Str × Str)) :
    valuesIn field (before ++ after) =
      valuesIn field before ++ valuesIn field after :=
  List.filterMap_append

/-! ## The values after one more entry -/

section Concat

variable {entries : List (Str × Str)} {key value : Str} {field : Field}

@[simp]
theorem valuesIn_singleton :
    valuesIn field [(key, value)] =
      if key = field.key then [value] else [] := by
  by_cases same : key = field.key
  · simp [valuesIn, same]
  · simp [valuesIn, same]

@[simp]
theorem lastValue_concat :
    lastValue field (entries ++ [(key, value)]) =
      if key = field.key then some value else lastValue field entries := by
  rw [lastValue, valuesIn_append, valuesIn_singleton]
  split
  next => rw [List.getLast?_concat]
  next => rw [List.append_nil, lastValue]

/-- An entry is added to a record as the grammar reads it. -/
theorem setField_recordOf :
    (recordOf entries).setField key value =
      (valueError key value).elim
        (.ok (recordOf (entries ++ [(key, value)]))) .error := by
  rw [NarInfo.setField, valueError]
  cases found : Field.ofKey key with
  | none =>
      have unknown (field : Field) : key ≠ field.key :=
        (Field.ofKey_eq_none_iff.mp found field).symm
      simp [recordOf, unknown, found]
  | some field =>
      rcases Field.ofKey_eq_some_iff.mp found with rfl
      cases field with
      | fileSize =>
          cases read : parseU64 value with
          | error kind => rfl
          | ok size =>
              simp [recordOf, Field.key_inj, u64Value, Except.toOption, read,
              found]
      | narSize =>
          cases read : parseU64 value with
          | error kind => rfl
          | ok size =>
              simp [recordOf, Field.key_inj, u64Value, Except.toOption, read,
              found]
      | _ => simp [recordOf, Field.key_inj, found]

end Concat

/-! ## All lines -/

/-- The body of the loop for an effective line. -/
def readLine (info : NarInfo) (line : Str) : Result NarInfo :=
  match splitLine line with
  | .ok (key, value) => info.setField key value
  | .error cause => .error cause

/-- What the parser makes of effective lines. -/
def outcome (lines : List Str) : Result NarInfo :=
  match lines.findSome? lineError with
  | some cause => .error cause
  | none =>
      if (recordOf (entriesOf lines)).storePath = [] then
        .error .missingStorePath
      else if (recordOf (entriesOf lines)).narHash = [] then
        .error .missingNarHash
      else
        .ok (recordOf (entriesOf lines))

/-- The loop passes over what is not effective. -/
theorem foldlM_parseLine (info : NarInfo) (lines : List Str) :
    lines.foldlM NarInfo.parseLine info =
      (effective lines).foldlM readLine info := by
  induction lines generalizing info with
  | nil => rfl
  | cons line lines induction =>
      rw [List.foldlM_cons, effective, List.map_cons, List.filter_cons,
        NarInfo.parseLine]
      by_cases empty : Text.trimEndMatches '\r' line = []
      · simp only [empty, if_true, ne_eq, not_true_eq_false, decide_false,
          Bool.false_eq_true, if_false]
        exact induction info
      · simp only [empty, if_false, ne_eq, not_false_eq_true, decide_true,
          if_true, List.foldlM_cons]
        exact congrArg (readLine info _ >>= ·) (funext induction)

/-- A line is an entry of the record, or it is rejected. -/
theorem readLine_recordOf (lines : List Str) (line : Str) :
    readLine (recordOf (entriesOf lines)) line =
      (lineError line).elim (.ok (recordOf (entriesOf (lines ++ [line]))))
        .error := by
  rw [readLine, lineError, entriesOf_append]
  cases split : splitLine line with
  | error cause => rfl
  | ok entry =>
      have single : entriesOf [line] = [entry] := by
        simp [entriesOf, split, Except.toOption]
      rw [single]
      exact setField_recordOf

/-- Parsing, without its loop. -/
theorem parse_eq_outcome (text : Str) :
    NarInfo.parse text = outcome (effectiveLines text) := by
  have loop := Runs.foldlM_eq_findSome? readLine_recordOf []
    (effectiveLines text)
  have start : recordOf (entriesOf []) = {} := rfl
  rw [start, effectiveLines, ← foldlM_parseLine] at loop
  rw [NarInfo.parse, loop, outcome, effectiveLines]
  cases (effective (Text.lines text)).findSome? lineError with
  | some cause => rfl
  | none => rfl

theorem getD_ne_nil_iff {value : Option Str} :
    value.getD [] ≠ [] ↔ ∃ text, value = some text ∧ text ≠ [] := by
  cases value with
  | none => simp
  | some text => simp

theorem forall_valuesIn_iff {lines : List Str} {field : Field}
    {Good : Str → Prop} :
    (∀ value ∈ valuesIn field (entriesOf lines), Good value) ↔
      ∀ line ∈ lines, ∀ entry, splitLine line = .ok entry →
        entry.1 = field.key → Good entry.2 := by
  simp only [valuesIn, entriesOf, List.mem_filterMap,
    Runs.toOption_eq_some_iff, Option.ite_none_right_eq_some,
    Option.some.injEq]
  constructor
  · intro good line member entry split key
    exact good entry.2 ⟨entry, ⟨line, member, split⟩, key, rfl⟩
  · rintro good value ⟨entry, ⟨line, member, split⟩, key, rfl⟩
    exact good line member entry split key

/-- No line is rejected by itself. -/
theorem findSome?_lineError_eq_none_iff {lines : List Str} :
    lines.findSome? lineError = none ↔
      (∀ line ∈ lines, Shaped line) ∧
        (∀ value ∈ valuesIn .fileSize (entriesOf lines),
          ∃ size, parseU64 value = .ok size) ∧
        ∀ value ∈ valuesIn .narSize (entriesOf lines),
          ∃ size, parseU64 value = .ok size := by
  rw [List.findSome?_eq_none_iff, forall_valuesIn_iff, forall_valuesIn_iff]
  constructor
  · intro fine
    have valid (line : Str) (member : line ∈ lines) (entry : Str × Str)
        (split : splitLine line = .ok entry) :
        valueError entry.1 entry.2 = none := by
      rcases lineError_eq_none_iff.mp (fine line member) with
        ⟨other, otherSplit, otherValid⟩
      rcases Except.ok.inj (split.symm.trans otherSplit) with rfl
      exact otherValid
    refine ⟨?_, ?_, ?_⟩
    · intro line member
      rcases lineError_eq_none_iff.mp (fine line member) with ⟨entry, split, -⟩
      exact shaped_iff.mpr ⟨entry, split⟩
    · intro line member entry split key
      exact valueError_eq_none_iff.mp (valid line member entry split)
        (Or.inl key)
    · intro line member entry split key
      exact valueError_eq_none_iff.mp (valid line member entry split)
        (Or.inr key)
  · rintro ⟨shaped, fileSizes, narSizes⟩ line member
    rcases shaped_iff.mp (shaped line member) with ⟨entry, split⟩
    refine lineError_eq_none_iff.mpr
      ⟨entry, split, valueError_eq_none_iff.mpr ?_⟩
    rintro (key | key)
    · exact fileSizes line member entry split key
    · exact narSizes line member entry split key

theorem Accepted.findSome?_lineError {lines : List Str}
    (accepted : Accepted lines) : lines.findSome? lineError = none :=
  findSome?_lineError_eq_none_iff.mpr
    ⟨accepted.shaped, accepted.fileSizes, accepted.narSizes⟩

/-- The texts that are accepted, and the record of each. -/
theorem outcome_eq_ok_iff {lines : List Str} {info : NarInfo} :
    outcome lines = .ok info ↔
      Accepted lines ∧ info = recordOf (entriesOf lines) := by
  rw [outcome]
  cases rejected : lines.findSome? lineError with
  | some cause =>
      constructor
      · intro impossible
        cases impossible
      · rintro ⟨accepted, -⟩
        rw [accepted.findSome?_lineError] at rejected
        cases rejected
  | none =>
      rcases findSome?_lineError_eq_none_iff.mp rejected with
        ⟨shaped, fileSizes, narSizes⟩
      simp only [Runs.ite_error_eq_ok_iff, Except.ok.injEq]
      constructor
      · rintro ⟨storePath, narHash, rfl⟩
        exact ⟨⟨shaped, fileSizes, narSizes, getD_ne_nil_iff.mp storePath,
          getD_ne_nil_iff.mp narHash⟩, rfl⟩
      · rintro ⟨accepted, rfl⟩
        exact ⟨getD_ne_nil_iff.mpr accepted.storePath,
          getD_ne_nil_iff.mpr accepted.narHash, rfl⟩

/-- What parsing gives is what the entries of the text say. -/
theorem eq_recordOf_of_parse {text : Str} {info : NarInfo}
    (parsed : NarInfo.parse text = .ok info) :
    info = recordOf (entriesOf (effectiveLines text)) := by
  rw [parse_eq_outcome] at parsed
  exact (outcome_eq_ok_iff.mp parsed).2

/-! ## Line endings and blank lines -/

/-- Every newline with a return before it: `replace("\n", "\r\n")`. -/
def toCrlf (text : Str) : Str :=
  text.flatMap fun symbol =>
    if symbol = '\n' then ['\r', '\n'] else [symbol]

/-- Newlines without one return before them: `replace("\r\n", "\n")`. -/
def toLf : Str → Str
  | '\r' :: '\n' :: rest => '\n' :: toLf rest
  | symbol :: rest => symbol :: toLf rest
  | [] => []

theorem effective_cons (line : Str) (lines : List Str) :
    effective (line :: lines) = effective [line] ++ effective lines :=
  List.filter_append (p := (· ≠ [])) [_] _

theorem effective_singleton_congr {line other : Str}
    (same : Text.trimEndMatches '\r' line = Text.trimEndMatches '\r' other) :
    effective [line] = effective [other] := by
  rw [effective, effective, List.map_singleton, List.map_singleton, same]

/-- The last line needs no line ending. -/
theorem effectiveLines_of_not_mem {line : Str} (fresh : '\n' ∉ line) :
    effectiveLines line = effective [line] := by
  by_cases empty : line = []
  · rw [empty]
    rfl
  · rw [effectiveLines, Text.lines,
      Text.splitInclusive_of_not_mem fresh empty, List.map_singleton,
      Text.stripLineEnding_of_not_mem fresh]

theorem effectiveLines_cons {line : Str} (fresh : '\n' ∉ line)
    (rest : Str) :
    effectiveLines (line ++ '\n' :: rest) =
      effective [line] ++ effectiveLines rest := by
  rw [effectiveLines, Text.lines, Text.splitInclusive_append fresh,
    List.map_cons, effective_cons,
    effective_singleton_congr (Text.trimEndMatches_stripLineEnding line)]
  rfl

/-- The effective lines of a text are those of its parts. -/
@[simp]
theorem effectiveLines_append (before after : Str) :
    effectiveLines (before ++ '\n' :: after) =
      effectiveLines before ++ effectiveLines after := by
  induction before using Text.lines_induction with
  | last line fresh =>
      rw [effectiveLines_cons fresh, effectiveLines_of_not_mem fresh]
  | next line rest fresh induction =>
      rw [List.append_assoc, List.cons_append, effectiveLines_cons fresh,
        induction, effectiveLines_cons fresh, List.append_assoc]

/-- A return at the end of a text is part of a line ending. -/
@[simp]
theorem effectiveLines_concat_return (text : Str) :
    effectiveLines (text ++ ['\r']) = effectiveLines text := by
  induction text using Text.lines_induction with
  | last line fresh =>
      have freshReturn : '\n' ∉ line ++ ['\r'] := by
        simp [fresh]
      rw [effectiveLines_of_not_mem freshReturn,
        effectiveLines_of_not_mem fresh,
        effective_singleton_congr (Text.trimEndMatches_concat '\r' line)]
  | next line rest fresh induction =>
      rw [List.append_assoc, List.cons_append, effectiveLines_append,
        induction, effectiveLines_append]

theorem effectiveLines_toCrlf (text : Str) :
    effectiveLines (toCrlf text) = effectiveLines text := by
  suffices general : ∀ before,
      effectiveLines (before ++ toCrlf text) =
        effectiveLines (before ++ text) from general []
  induction text with
  | nil => exact fun _ => rfl
  | cons symbol rest induction =>
      intro before
      rw [toCrlf, List.flatMap_cons, ← toCrlf]
      split
      next newline =>
        have split : before ++ (['\r', '\n'] ++ toCrlf rest) =
            (before ++ ['\r']) ++ '\n' :: ([] ++ toCrlf rest) := by
          simp
        rw [split, newline, effectiveLines_append,
          effectiveLines_concat_return, induction [], List.nil_append,
          effectiveLines_append]
      next =>
        have step := induction (before ++ [symbol])
        rw [List.append_assoc, List.append_assoc] at step
        exact step

theorem effectiveLines_toLf (text : Str) :
    effectiveLines (toLf text) = effectiveLines text := by
  suffices general : ∀ before,
      effectiveLines (before ++ toLf text) =
        effectiveLines (before ++ text) from general []
  induction text using toLf.induct with
  | case1 rest induction =>
      intro before
      have split : before ++ '\r' :: '\n' :: rest =
          (before ++ ['\r']) ++ '\n' :: rest := by
        simp
      rw [toLf, split, effectiveLines_append, effectiveLines_append,
        effectiveLines_concat_return, ← List.nil_append (toLf rest),
        induction [], List.nil_append]
  | case2 symbol rest other induction =>
      intro before
      have step := induction (before ++ [symbol])
      rw [List.append_assoc, List.append_assoc] at step
      rw [toLf]
      · exact step
      · exact other
  | case3 => exact fun _ => rfl

/-- A line of nothing but returns. -/
theorem effectiveLines_blank (returns : Nat) (rest : Str) :
    effectiveLines (List.replicate returns '\r' ++ '\n' :: rest) =
      effectiveLines rest := by
  rw [effectiveLines_append]
  have blank : effectiveLines (List.replicate returns '\r') = [] := by
    induction returns with
    | zero => rfl
    | succ returns induction =>
        rw [List.replicate_succ', effectiveLines_concat_return, induction]
  rw [blank, List.nil_append]

/-- A text may be cut here into whole lines. -/
def LineBoundary (before after : Str) : Prop :=
  before = [] ∨ after = [] ∨ ∃ earlier, before = earlier ++ ['\n']

/-- A blank line between two lines is not noticed. -/
theorem effectiveLines_insert_blank {before after : Str}
    (boundary : LineBoundary before after) (returns : Nat) :
    effectiveLines
        (before ++ (List.replicate returns '\r' ++ '\n' :: after)) =
      effectiveLines (before ++ after) := by
  rcases boundary with rfl | rfl | ⟨earlier, rfl⟩
  · exact effectiveLines_blank returns after
  · rw [← List.append_assoc, effectiveLines_append, List.append_nil]
    have last : effectiveLines (before ++ List.replicate returns '\r') =
        effectiveLines before := by
      induction returns with
      | zero => rw [List.replicate_zero, List.append_nil]
      | succ returns induction =>
          rw [List.replicate_succ', ← List.append_assoc,
            effectiveLines_concat_return, induction]
    rw [last]
    exact List.append_nil _
  · rw [List.append_assoc, List.append_assoc, List.singleton_append,
      List.singleton_append, effectiveLines_append, effectiveLines_blank,
      effectiveLines_append]

/-! ## Lines that change places -/

/-- Two neighbouring lines of different known keys change places. -/
inductive Move (allowed : Str → Str → Prop) :
    List Str → List Str → Prop where
  | swap (before after : List Str) {left right : Str}
      {leftField rightField : Field} {leftValue rightValue : Str}
      (leftEntry : splitLine left = .ok (leftField.key, leftValue))
      (rightEntry : splitLine right = .ok (rightField.key, rightValue))
      (different : leftField ≠ rightField) (permitted : allowed left right) :
      Move allowed (before ++ left :: right :: after)
        (before ++ right :: left :: after)

/-- At least one of two lines is not rejected by itself. -/
def Settled (left right : Str) : Prop :=
  lineError left = none ∨ lineError right = none

theorem entriesOf_append_cons_cons {before after : List Str}
    {left right : Str} {leftEntry rightEntry : Str × Str}
    (leftSplit : splitLine left = .ok leftEntry)
    (rightSplit : splitLine right = .ok rightEntry) :
    entriesOf (before ++ left :: right :: after) =
      entriesOf before ++ leftEntry :: rightEntry :: entriesOf after := by
  rw [entriesOf_append]
  simp [entriesOf, leftSplit, rightSplit, Except.toOption]

/-- Records only depend on the values of each key and on the other entries. -/
theorem recordOf_congr {entries others : List (Str × Str)}
    (values : ∀ field, valuesIn field entries = valuesIn field others)
    (extra : (entries.filter fun entry => Field.ofKey entry.1 = none) =
      others.filter fun entry => Field.ofKey entry.1 = none) :
    recordOf entries = recordOf others := by
  have lasts (field : Field) :
      lastValue field entries = lastValue field others := by
    rw [lastValue, values, lastValue]
  simp only [recordOf, lasts, values, extra]

/-- A move is not noticed in the record. -/
theorem recordOf_swap {before after : List (Str × Str)}
    {leftField rightField : Field} (different : leftField ≠ rightField)
    (leftValue rightValue : Str) :
    recordOf (before ++ (leftField.key, leftValue) ::
        (rightField.key, rightValue) :: after) =
      recordOf (before ++ (rightField.key, rightValue) ::
        (leftField.key, leftValue) :: after) := by
  apply recordOf_congr
  · intro field
    rw [valuesIn_append, valuesIn_append]
    apply congrArg
    by_cases isLeft : leftField = field
    · have notRight : rightField ≠ field := by
        rintro rfl
        exact different isLeft
      simp [valuesIn, Field.key_inj, isLeft, notRight]
    · simp [valuesIn, List.filterMap_cons, Field.key_inj, isLeft]
  · simp

variable {lines others : List Str} {allowed : Str → Str → Prop}

theorem findSome?_swap {before after : List Str} {left right : Str}
    (settled : Settled left right) :
    (before ++ left :: right :: after).findSome? lineError =
      (before ++ right :: left :: after).findSome? lineError := by
  rw [List.findSome?_append, List.findSome?_append]
  apply congrArg
  rcases settled with fine | fine
  · simp only [List.findSome?_cons, fine]
  · simp only [List.findSome?_cons, fine]

/-- Unless two rejected lines change places, a move changes nothing. -/
theorem Move.outcome_eq (move : Move Settled lines others) :
    outcome lines = outcome others := by
  cases move with
  | swap before after leftEntry rightEntry different settled =>
      rw [outcome, outcome, findSome?_swap settled,
        entriesOf_append_cons_cons leftEntry rightEntry,
        entriesOf_append_cons_cons rightEntry leftEntry,
        recordOf_swap different]

theorem Move.symm (move : Move (fun _ _ => True) lines others) :
    Move (fun _ _ => True) others lines := by
  cases move with
  | swap before after leftEntry rightEntry different _ =>
      exact .swap before after rightEntry leftEntry different.symm trivial

/-- In accepted lines no move concerns a rejected line. -/
theorem Move.outcome_eq_ok (move : Move allowed lines others)
    {info : NarInfo} (accepted : outcome lines = .ok info) :
    outcome others = .ok info := by
  cases move with
  | @swap before after left right _ _ _ _ leftEntry rightEntry different _ =>
      have free := (outcome_eq_ok_iff.mp accepted).1.findSome?_lineError
      have leftFine := List.findSome?_eq_none_iff.mp free left (by simp)
      have settled : Move Settled _ _ :=
        .swap before after leftEntry rightEntry different (Or.inl leftFine)
      rw [← settled.outcome_eq, accepted]

theorem outcome_eq_ok_of_moves
    (moves : Relation.ReflTransGen (Move fun _ _ => True) lines others)
    {info : NarInfo} (accepted : outcome lines = .ok info) :
    outcome others = .ok info := by
  induction moves with
  | refl => exact accepted
  | tail _ move induction => exact move.outcome_eq_ok induction

/-! ## The parser implements the grammar -/

/--
Parsing accepts exactly the texts of the grammar and gives the record that it
says.  Line endings and blank lines are not noticed at all.  Moved lines are
not noticed in what is accepted, and a rejected text is rejected for the same
reason unless two lines that are both rejected have changed places.
-/
theorem parse_grammar :
    (∀ (text : Str) (info : NarInfo),
        NarInfo.parse text = .ok info ↔
          Accepted (effectiveLines text) ∧
            info = recordOf (entriesOf (effectiveLines text))) ∧
      (∀ text : Str,
        NarInfo.parse (toCrlf text) = NarInfo.parse text ∧
          NarInfo.parse (toLf text) = NarInfo.parse text) ∧
      (∀ before after : Str,
        NarInfo.parse (before ++ '\r' :: '\n' :: after) =
          NarInfo.parse (before ++ '\n' :: after)) ∧
      (∀ before after : Str, LineBoundary before after → ∀ returns : Nat,
        NarInfo.parse
            (before ++ (List.replicate returns '\r' ++ '\n' :: after)) =
          NarInfo.parse (before ++ after)) ∧
      (∀ text other : Str,
        Relation.ReflTransGen (Move fun _ _ => True)
            (effectiveLines text) (effectiveLines other) →
          ∀ info : NarInfo,
            NarInfo.parse text = .ok info ↔
              NarInfo.parse other = .ok info) ∧
      ∀ text other : Str,
        Relation.ReflTransGen (Move Settled)
            (effectiveLines text) (effectiveLines other) →
          NarInfo.parse text = NarInfo.parse other := by
  have same {text other : Str}
      (lines : effectiveLines text = effectiveLines other) :
      NarInfo.parse text = NarInfo.parse other := by
    rw [parse_eq_outcome, parse_eq_outcome, lines]
  refine ⟨?_, ?_, ?_, ?_, ?_, ?_⟩
  · intro text info
    rw [parse_eq_outcome, outcome_eq_ok_iff]
  · intro text
    exact ⟨same (effectiveLines_toCrlf text), same (effectiveLines_toLf text)⟩
  · intro before after
    apply same
    rw [← List.singleton_append, ← List.append_assoc, effectiveLines_append,
      effectiveLines_concat_return, effectiveLines_append]
  · intro before after boundary returns
    exact same (effectiveLines_insert_blank boundary returns)
  · intro text other moves info
    rw [parse_eq_outcome, parse_eq_outcome]
    constructor
    · exact outcome_eq_ok_of_moves moves
    · apply outcome_eq_ok_of_moves
      exact Relation.ReflTransGen.mono (fun _ _ => Move.symm) _ _ moves.swap
  · intro text other moves
    rw [parse_eq_outcome, parse_eq_outcome]
    have kept (before after : List Str)
        (equal : outcome (effectiveLines text) = outcome before)
        (move : Move Settled before after) :
        outcome (effectiveLines text) = outcome after :=
      equal.trans move.outcome_eq
    exact Stateful.invariant_of_reached kept rfl moves

/-- A text with a repeated key and an unknown one. -/
def sampleText : Str :=
  "StorePath: /s\nNarHash: h\nNarSize: 1\nNarSize: 2\nX: y: :\n".toList

/-- What the text says. -/
def sampleRecord : NarInfo where
  storePath := "/s".toList
  narHash := "h".toList
  narSize := 2
  extra := [("X".toList, "y: :".toList)]

theorem parse_grammar_sample :
    Accepted (effectiveLines sampleText) ∧
      recordOf (entriesOf (effectiveLines sampleText)) = sampleRecord ∧
      NarInfo.parse (toCrlf sampleText) = .ok sampleRecord := by
  have parsed : NarInfo.parse sampleText = .ok sampleRecord := by
    decide
  have accepted := (parse_grammar.1 sampleText sampleRecord).mp parsed
  exact ⟨accepted.1, accepted.2.symm,
    (parse_grammar.2.1 sampleText).1.trans parsed⟩

/-- A text with two sizes that are no literals. -/
def badSizes : Str :=
  "StorePath: /s\nNarHash: h\nFileSize: a\nNarSize: b\n".toList

/-- The same lines, with the sizes in the other order. -/
def badSizesMoved : Str :=
  "StorePath: /s\nNarHash: h\nNarSize: b\nFileSize: a\n".toList

/-- The order of two rejected lines decides which of them is reported. -/
theorem moved_lines_change_error :
    Move (fun _ _ => True) (effectiveLines badSizes)
        (effectiveLines badSizesMoved) ∧
      NarInfo.parse badSizes = .error (.fileSize .invalidDigit) ∧
      NarInfo.parse badSizesMoved = .error (.narSize .invalidDigit) := by
  refine ⟨?_, by decide, by decide⟩
  have lines : effectiveLines badSizes =
      ["StorePath: /s".toList, "NarHash: h".toList] ++
        "FileSize: a".toList :: "NarSize: b".toList :: [] := by
    decide
  have moved : effectiveLines badSizesMoved =
      ["StorePath: /s".toList, "NarHash: h".toList] ++
        "NarSize: b".toList :: "FileSize: a".toList :: [] := by
    decide
  rw [lines, moved]
  exact @Move.swap _ _ _ _ _ .fileSize .narSize ['a'] ['b'] (by decide)
    (by decide) (by decide) trivial

end NixPqcCache.NarinfoGrammar
