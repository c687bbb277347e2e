import NixPqcCache.Foundation.Formats
import NixPqcCache.Foundation.Joined
import NixPqcCache.Foundation.Runs
import NixPqcCache.NarinfoGrammar

/-!
# Serializing and parsing narinfo

`to_text` writes one line for each value and `parse` folds over the lines, so
the two are compared line by line.  A line whose key and value are framed is
read back as exactly that key and value.  The records all of whose lines are
framed are the representable ones; parsing only produces representable
records, and serializing followed by parsing is the identity exactly on them.
-/

namespace NixPqcCache.NarinfoRoundTrip

open NixPqcCache.Data
open NixPqcCache.Foundation
open NixPqcCache.Foundation.Formats
open NixPqcCache.Narinfo
open NixPqcCache.Narinfo.NarInfo
open NixPqcCache.NarinfoGrammar

/-! ## One line -/

/-- A key and a value that survive being written on one line. -/
structure Framed (key value : Str) : Prop where
  keyNewline : '\n' ∉ key
  keySeparator : ¬ [':', ' '] <:+: key
  valueNewline : '\n' ∉ value
  valueReturn : value.getLast? ≠ some '\r'

/-- A line without its line ending. -/
def lineOf (key value : Str) : Str :=
  key ++ ": ".toList ++ value

theorem formatLine_append (key value rest : Str) :
    formatLine key value ++ rest = lineOf key value ++ '\n' :: rest := by
  simp [formatLine, lineOf]

theorem Framed.lineOf_newline {key value : Str} (framed : Framed key value) :
    '\n' ∉ lineOf key value := by
  simp [lineOf, framed.keyNewline, framed.valueNewline]

theorem Framed.lineOf_return {key value : Str} (framed : Framed key value) :
    (lineOf key value).getLast? ≠ some '\r' := by
  rw [lineOf, List.getLast?_append]
  cases last : value.getLast? with
  | none => simp
  | some symbol =>
      have notReturn : some symbol ≠ some '\r' := by
        rw [← last]
        exact framed.valueReturn
      simpa using notReturn

theorem Framed.splitLine {key value : Str} (framed : Framed key value) :
    splitLine (lineOf key value) = .ok (key, value) :=
  splitLine_eq_ok_iff.mpr (Or.inl ⟨by simp [lineOf], framed.keySeparator⟩)

/-- A framed line sets its key to its value. -/
theorem Framed.parseLine {key value : Str} (framed : Framed key value)
    (info : NarInfo) :
    parseLine info (lineOf key value) = setField info key value := by
  have trimmed :
      Text.trimEndMatches '\r' (lineOf key value) = lineOf key value :=
    Text.trimEndMatches_eq_self framed.lineOf_return
  have nonempty : lineOf key value ≠ [] := by
    simp [lineOf]
  simp only [NarInfo.parseLine, trimmed, if_neg nonempty, framed.splitLine]

/-- A line that the parser splits gives a framed key and value. -/
theorem framed_of_splitLine {line key value : Str}
    (fresh : '\n' ∉ line) (last : line.getLast? ≠ some '\r')
    (split : splitLine line = .ok (key, value)) :
    Framed key value := by
  rcases splitLine_eq_ok_iff.mp split with
    ⟨rfl, separator⟩ | ⟨rfl, rfl, separator⟩
  · simp only [List.mem_append, List.mem_cons, not_or] at fresh
    refine ⟨fresh.1, separator, fresh.2.2.2, fun ends => last ?_⟩
    rw [List.getLast?_append, List.getLast?_cons, List.getLast?_cons, ends]
    rfl
  · refine ⟨?_, ?_, by simp, by simp⟩
    · exact fun member => fresh (List.mem_append_left _ member)
    · exact fun inside =>
        separator (inside.trans (List.prefix_append _ _).isInfix)

/-! ## A whole text -/

/-- The loop of the parser, from a record already read. -/
def parseFrom (info : NarInfo) (text : Str) : Result NarInfo :=
  (Text.lines text).foldlM parseLine info

theorem Framed.parseFrom {key value : Str} (framed : Framed key value)
    (info : NarInfo) (rest : Str) :
    parseFrom info (formatLine key value ++ rest) =
      setField info key value >>= fun next =>
        NarinfoRoundTrip.parseFrom next rest := by
  rw [formatLine_append, NarinfoRoundTrip.parseFrom,
    Text.lines_append framed.lineOf_newline framed.lineOf_return,
    List.foldlM_cons, framed.parseLine]
  rfl

/-! ## Representable records -/

/-- Every string of a record. -/
def strings (info : NarInfo) : List Str :=
  [info.storePath, info.url, info.compression, info.narHash] ++
    info.fileHash.toList ++ info.deriver.toList ++ info.system.toList ++
      info.references ++ info.sigs ++ info.sigPqc ++
        info.extra.map Prod.fst ++ info.extra.map Prod.snd

/-- Every value `to_text` writes. -/
def emittedValues (info : NarInfo) : List Str :=
  [info.storePath, info.url, info.compression, info.narHash,
    displayU64 info.narSize, [' '].intercalate info.references] ++
      info.fileHash.toList ++ (info.fileSize.map displayU64).toList ++
        info.deriver.toList ++ info.system.toList ++
          info.extra.map Prod.snd ++ info.sigs ++ info.sigPqc

/-- What parsing guarantees, apart from the two required fields. -/
structure WellFramed (info : NarInfo) : Prop where
  noNewline : ∀ text ∈ strings info, '\n' ∉ text
  noFinalReturn : ∀ value ∈ emittedValues info, value.getLast? ≠ some '\r'
  referencesSpace : ∀ reference ∈ info.references, ' ' ∉ reference
  referencesShape : info.references ≠ [[]]
  extraKey : ∀ entry ∈ info.extra,
    ¬ ": ".toList <:+: entry.1 ∧ ∀ field : Field, field.key ≠ entry.1

/-- The records that have a text. -/
structure Representable (info : NarInfo) : Prop extends WellFramed info where
  storePathNonempty : info.storePath ≠ []
  narHashNonempty : info.narHash ≠ []

/-! ### Numbers and references -/

theorem displayU64_newline (value : UInt64) : '\n' ∉ displayU64 value :=
  Decimal.not_mem_toDigits (by decide) _

theorem displayU64_return (value : UInt64) :
    (displayU64 value).getLast? ≠ some '\r' := by
  intro last
  exact Decimal.not_mem_toDigits (by decide) _
    (List.mem_of_getLast? last)

@[simp]
theorem parseU64_displayU64 (value : UInt64) :
    parseU64 (displayU64 value) = .ok value := by
  rw [parseU64, displayU64,
    Decimal.parseUnsigned_toDigits value.toNat_lt]
  simp [Functor.map, Except.map]

theorem parseReferences_intercalate {references : List Str}
    (space : ∀ reference ∈ references, ' ' ∉ reference)
    (shape : references ≠ [[]]) :
    parseReferences ([' '].intercalate references) = references := by
  by_cases empty : references = []
  · subst references
    rfl
  · have split : splitReferences ([' '].intercalate references) = references :=
      List.splitOn_intercalate ' ' space empty
    have nonempty : [' '].intercalate references ≠ [] := by
      intro blank
      rw [blank] at split
      exact shape split.symm
    rw [parseReferences, if_neg nonempty, split]

theorem parseReferences_space {value reference : Str}
    (member : reference ∈ parseReferences value) : ' ' ∉ reference := by
  rw [parseReferences] at member
  split at member
  next => cases member
  next => exact Text.not_mem_of_mem_splitOn member

theorem parseReferences_newline {value reference : Str}
    (fresh : '\n' ∉ value) (member : reference ∈ parseReferences value) :
    '\n' ∉ reference := by
  rw [parseReferences] at member
  split at member
  next => cases member
  next =>
    intro inside
    apply fresh
    rw [← show [' '].intercalate (value.splitOn ' ') = value from
      List.intercalate_splitOn ' ']
    exact Joined.mem_intercalate_of_mem member inside

theorem intercalate_parseReferences (value : Str) :
    [' '].intercalate (parseReferences value) = value := by
  rw [parseReferences]
  split
  next empty => simp [empty]
  next => exact List.intercalate_splitOn ' '

theorem parseReferences_shape (value : Str) :
    parseReferences value ≠ [[]] := by
  intro single
  have joined := intercalate_parseReferences value
  rw [single, List.intercalate_singleton] at joined
  simp [parseReferences, ← joined] at single

/-! ### Parsed records are well framed -/

theorem forall_strings_iff {Holds : Str → Prop} {info : NarInfo} :
    (∀ text ∈ strings info, Holds text) ↔
      Holds info.storePath ∧ Holds info.url ∧ Holds info.compression ∧
        Holds info.narHash ∧ (∀ text ∈ info.fileHash, Holds text) ∧
          (∀ text ∈ info.deriver, Holds text) ∧
            (∀ text ∈ info.system, Holds text) ∧
              (∀ text ∈ info.references, Holds text) ∧
                (∀ text ∈ info.sigs, Holds text) ∧
                  (∀ text ∈ info.sigPqc, Holds text) ∧
                    (∀ entry ∈ info.extra, Holds entry.1) ∧
                      ∀ entry ∈ info.extra, Holds entry.2 := by
  simp only [strings, List.forall_mem_append, List.forall_mem_cons,
    List.forall_mem_map, Option.mem_toList, Option.mem_def,
    List.not_mem_nil, false_implies, implies_true, and_true, and_assoc]

theorem forall_emittedValues_iff {Holds : Str → Prop} {info : NarInfo} :
    (∀ value ∈ emittedValues info, Holds value) ↔
      Holds info.storePath ∧ Holds info.url ∧ Holds info.compression ∧
        Holds info.narHash ∧ Holds (displayU64 info.narSize) ∧
          Holds ([' '].intercalate info.references) ∧
            (∀ value ∈ info.fileHash, Holds value) ∧
              (∀ value ∈ info.fileSize.map displayU64, Holds value) ∧
                (∀ value ∈ info.deriver, Holds value) ∧
                  (∀ value ∈ info.system, Holds value) ∧
                    (∀ entry ∈ info.extra, Holds entry.2) ∧
                      (∀ value ∈ info.sigs, Holds value) ∧
                        ∀ value ∈ info.sigPqc, Holds value := by
  simp only [emittedValues, List.forall_mem_append, List.forall_mem_cons,
    List.forall_mem_map, Option.mem_toList, Option.mem_def,
    List.not_mem_nil, false_implies, implies_true, and_true, and_assoc]

/-- A line that the parser looks at gives a framed key and value. -/
theorem framed_of_mem_entriesOf {text : Str} {entry : Str × Str}
    (member : entry ∈ entriesOf (effectiveLines text)) :
    Framed entry.1 entry.2 := by
  rcases List.mem_filterMap.mp member with ⟨line, effective, split⟩
  rcases List.mem_map.mp (List.mem_filter.mp effective).1 with
    ⟨raw, rawMember, rfl⟩
  apply framed_of_splitLine _ (Text.getLast?_trimEndMatches '\r' raw)
    (Runs.toOption_eq_some_iff.mp split)
  intro newline
  exact Text.not_mem_of_mem_lines rawMember
    ((Text.trimEndMatches_prefix '\r' raw).subset newline)

section Values

variable {entries : List (Str × Str)} {Good : Str → Prop}

/-! What every value of the entries is, the values of a record are. -/

theorem forall_valuesIn (good : ∀ entry ∈ entries, Good entry.2)
    (field : Field) : ∀ value ∈ valuesIn field entries, Good value := by
  intro value member
  rcases List.mem_filterMap.mp member with ⟨entry, entryMember, found⟩
  have equal := (Option.ite_none_right_eq_some.mp found).2
  rw [← Option.some.inj equal]
  exact good entry entryMember

theorem forall_lastValue (good : ∀ entry ∈ entries, Good entry.2)
    (field : Field) : ∀ value ∈ lastValue field entries, Good value :=
  fun value last =>
    forall_valuesIn good field value (List.mem_of_getLast? last)

theorem good_getD_lastValue (good : ∀ entry ∈ entries, Good entry.2)
    (empty : Good []) (field : Field) :
    Good ((lastValue field entries).getD []) := by
  cases last : lastValue field entries with
  | none => exact empty
  | some value => exact forall_lastValue good field value last

theorem references_recordOf (entries : List (Str × Str)) :
    (recordOf entries).references =
      parseReferences ((lastValue .references entries).getD []) := by
  rw [recordOf]
  cases lastValue .references entries with
  | none => rfl
  | some value => rfl

end Values

/-- Framed entries say a well framed record. -/
theorem wellFramed_recordOf {entries : List (Str × Str)}
    (framed : ∀ entry ∈ entries, Framed entry.1 entry.2) :
    WellFramed (recordOf entries) := by
  have newline : ∀ entry ∈ entries, '\n' ∉ entry.2 :=
    fun entry member => (framed entry member).valueNewline
  have final : ∀ entry ∈ entries, entry.2.getLast? ≠ some '\r' :=
    fun entry member => (framed entry member).valueReturn
  have noNewline (field : Field) :
      '\n' ∉ (lastValue field entries).getD [] :=
    @good_getD_lastValue entries ('\n' ∉ ·) newline (by simp) field
  have noReturn (field : Field) :
      ((lastValue field entries).getD []).getLast? ≠ some '\r' :=
    @good_getD_lastValue entries (·.getLast? ≠ some '\r') final (by simp)
      field
  have other {entry : Str × Str} (member : entry ∈ (recordOf entries).extra) :
      entry ∈ entries ∧ Field.ofKey entry.1 = none := by
    simpa using List.mem_filter.mp member
  constructor
  · refine forall_strings_iff.mpr ⟨noNewline _, noNewline _, noNewline _,
      noNewline _, forall_lastValue newline _, forall_lastValue newline _,
      forall_lastValue newline _, ?_, forall_valuesIn newline _,
      forall_valuesIn newline _, ?_, ?_⟩
    · rw [references_recordOf]
      exact fun _ => parseReferences_newline (noNewline _)
    · exact fun entry member => (framed entry (other member).1).keyNewline
    · exact fun entry member => newline entry (other member).1
  · refine forall_emittedValues_iff.mpr ⟨noReturn _, noReturn _, noReturn _,
      noReturn _, displayU64_return _, ?_, forall_lastValue final _, ?_,
      forall_lastValue final _, forall_lastValue final _, ?_,
      forall_valuesIn final _, forall_valuesIn final _⟩
    · rw [references_recordOf, intercalate_parseReferences]
      exact noReturn _
    · intro value present
      rcases Option.map_eq_some_iff.mp present with ⟨size, -, rfl⟩
      exact displayU64_return size
    · exact fun entry member => final entry (other member).1
  · rw [references_recordOf]
    exact fun _ => parseReferences_space
  · rw [references_recordOf]
    exact parseReferences_shape _
  · intro entry member
    exact ⟨(framed entry (other member).1).keySeparator,
      Field.ofKey_eq_none_iff.mp (other member).2⟩

/-- The records that parsing accepts, in terms of its loop. -/
theorem parse_eq_ok_iff {text : Str} {info : NarInfo} :
    parse text = .ok info ↔
      parseFrom {} text = .ok info ∧
        info.storePath ≠ [] ∧ info.narHash ≠ [] := by
  simp only [parse, Runs.bind_eq_ok_iff, Runs.ite_error_eq_ok_iff,
    Except.ok.injEq]
  constructor
  · rintro ⟨read, ran, storePath, narHash, rfl⟩
    exact ⟨ran, storePath, narHash⟩
  · rintro ⟨ran, storePath, narHash⟩
    exact ⟨info, ran, storePath, narHash, rfl⟩

/-- Parsing only produces representable records. -/
theorem representable_of_parse {text : Str} {info : NarInfo}
    (parsed : parse text = .ok info) : Representable info := by
  rcases parse_eq_ok_iff.mp parsed with ⟨-, storePath, narHash⟩
  have framed : WellFramed info := by
    rw [eq_recordOf_of_parse parsed]
    exact wellFramed_recordOf fun _ => framed_of_mem_entriesOf
  exact ⟨framed, storePath, narHash⟩

/-! ### Changing the signatures -/

/-- A value that fits on a line. -/
def Clean (value : Str) : Prop :=
  '\n' ∉ value ∧ value.getLast? ≠ some '\r'

theorem Representable.clean_signature {info : NarInfo}
    (representable : Representable info) {entry : Str}
    (member : entry ∈ info.sigs ∨ entry ∈ info.sigPqc) : Clean entry := by
  have newline := forall_strings_iff.mp representable.noNewline
  have final := forall_emittedValues_iff.mp representable.noFinalReturn
  grind [Clean]

/-- Signatures may be replaced by any values that fit on a line. -/
theorem Representable.withSignatures {info : NarInfo}
    (representable : Representable info) {sigs sigPqc : List Str}
    (cleanSigs : ∀ entry ∈ sigs, Clean entry)
    (cleanSigPqc : ∀ entry ∈ sigPqc, Clean entry) :
    Representable { info with sigs, sigPqc } := by
  have newline := forall_strings_iff.mp representable.noNewline
  have final := forall_emittedValues_iff.mp representable.noFinalReturn
  refine
    { representable with
      noNewline := forall_strings_iff.mpr ?_
      noFinalReturn := forall_emittedValues_iff.mpr ?_ }
  · grind [Clean]
  · grind [Clean]

/-! ## Reading back what was written -/

theorem Field.key_newline (field : Field) : '\n' ∉ field.key := by
  cases field <;> decide

theorem Field.key_separator (field : Field) :
    ¬ [':', ' '] <:+: field.key := by
  cases field <;> decide

theorem framed_field (field : Field) {value : Str}
    (newline : '\n' ∉ value) (final : value.getLast? ≠ some '\r') :
    Framed field.key value :=
  ⟨Field.key_newline field, Field.key_separator field, newline, final⟩

/-- Lines that each append one entry append all of them in order. -/
theorem parseFrom_entries {Entry : Type} {key value : Entry → Str}
    {extend : NarInfo → List Entry → NarInfo} {entries : List Entry}
    (framed : ∀ entry ∈ entries, Framed (key entry) (value entry))
    (sets : ∀ info, ∀ entry ∈ entries,
      setField info (key entry) (value entry) = .ok (extend info [entry]))
    (extend_nil : ∀ info, extend info [] = info)
    (extend_cons : ∀ info entry later,
      extend (extend info [entry]) later = extend info (entry :: later))
    (info : NarInfo) (rest : Str) :
    parseFrom info
        ((entries.flatMap fun entry => formatLine (key entry) (value entry)) ++
          rest) =
      parseFrom (extend info entries) rest := by
  induction entries generalizing info with
  | nil => rw [List.flatMap_nil, List.nil_append, extend_nil]
  | cons entry entries induction =>
      rw [List.forall_mem_cons] at framed
      have first := sets info entry List.mem_cons_self
      have later := fun record other member =>
        sets record other (List.mem_cons_of_mem _ member)
      rw [List.flatMap_cons, List.append_assoc, framed.1.parseFrom, first,
        ← extend_cons info entry entries]
      exact induction framed.2 later _

/-- The last lines are the signatures. -/
theorem parseFrom_signatures {sigs sigPqc : List Str} (info : NarInfo)
    (framedSigs : ∀ entry ∈ sigs, Framed Field.sig.key entry)
    (framedSigPqc : ∀ entry ∈ sigPqc, Framed Field.sigPqc.key entry) :
    parseFrom info
        ((sigs.flatMap fun entry => formatLine Field.sig.key entry) ++
          sigPqc.flatMap fun entry => formatLine Field.sigPqc.key entry) =
      parseFrom
        { info with
          sigs := info.sigs ++ sigs
          sigPqc := info.sigPqc ++ sigPqc } [] := by
  let addSigs (record : NarInfo) (entries : List Str) : NarInfo :=
    { record with sigs := record.sigs ++ entries }
  let addSigPqc (record : NarInfo) (entries : List Str) : NarInfo :=
    { record with sigPqc := record.sigPqc ++ entries }
  calc
    _ = parseFrom (addSigs info sigs)
          ((sigPqc.flatMap fun entry => formatLine Field.sigPqc.key entry) ++
            []) := by
        rw [List.append_nil]
        apply parseFrom_entries framedSigs
        · simp [setField, addSigs]
        · simp [addSigs]
        · simp [addSigs]
    _ = parseFrom (addSigPqc (addSigs info sigs) sigPqc) [] := by
        apply parseFrom_entries framedSigPqc
        · simp [setField, addSigPqc]
        · simp [addSigPqc]
        · simp [addSigPqc]

theorem parseFrom_extra {entries : List (Str × Str)} (info : NarInfo)
    (rest : Str)
    (framed : ∀ entry ∈ entries, Framed entry.1 entry.2)
    (unknown : ∀ entry ∈ entries, ∀ field : Field, field.key ≠ entry.1) :
    parseFrom info
        ((entries.flatMap fun entry => formatLine entry.1 entry.2) ++ rest) =
      parseFrom { info with extra := info.extra ++ entries } rest := by
  apply parseFrom_entries framed
  · intro record entry member
    simp [setField, Field.ofKey_eq_none_iff.mpr (unknown entry member)]
  · simp
  · simp

/-- An optional line sets its field when it is present. -/
theorem parseFrom_optional {field : Field} {value : Option Str}
    {info : NarInfo} (next : NarInfo) (rest : Str)
    (newline : ∀ text ∈ value, '\n' ∉ text)
    (final : ∀ text ∈ value, text.getLast? ≠ some '\r')
    (present : ∀ text ∈ value, setField info field.key text = .ok next)
    (absent : value = none → next = info) :
    parseFrom info (formatOptional field.key value ++ rest) =
      parseFrom next rest := by
  cases value with
  | none =>
      rcases absent rfl with rfl
      rfl
  | some text =>
      have framed := framed_field field (newline text rfl) (final text rfl)
      rw [formatOptional, framed.parseFrom, present text rfl]
      rfl

/-- A line of a known key sets its field. -/
theorem parseFrom_field {field : Field} {value : Str} {info next : NarInfo}
    (rest : Str) (newline : '\n' ∉ value)
    (final : value.getLast? ≠ some '\r')
    (set : setField info field.key value = .ok next) :
    parseFrom info (formatLine field.key value ++ rest) =
      parseFrom next rest := by
  rw [(framed_field field newline final).parseFrom, set]
  rfl

/-- Serializing a representable record and parsing gives it back. -/
theorem parse_toText {info : NarInfo} (representable : Representable info) :
    parse (toText info) = .ok info := by
  rcases forall_strings_iff.mp representable.noNewline with
    ⟨storePath, url, compression, narHash, fileHash, deriver, system,
      referenceNewline, sigs, sigPqc, extraKeys, extraValues⟩
  rcases forall_emittedValues_iff.mp representable.noFinalReturn with
    ⟨storePathEnd, urlEnd, compressionEnd, narHashEnd, narSizeEnd,
      referencesEnd, fileHashEnd, fileSizeEnd, deriverEnd, systemEnd,
      extraEnd, sigsEnd, sigPqcEnd⟩
  have references : '\n' ∉ [' '].intercalate info.references :=
    Joined.not_mem_intercalate (by decide) referenceNewline
  have readReferences :
      parseReferences ([' '].intercalate info.references) = info.references :=
    parseReferences_intercalate representable.referencesSpace
      representable.referencesShape
  refine parse_eq_ok_iff.mpr
    ⟨?_, representable.storePathNonempty, representable.narHashNonempty⟩
  simp only [toText, List.append_assoc]
  -- The records below are the ones the loop holds after each line.
  refine (parseFrom_field _ storePath storePathEnd rfl).trans ?_
  refine (parseFrom_field _ url urlEnd rfl).trans ?_
  refine (parseFrom_field _ compression compressionEnd rfl).trans ?_
  let upToFileHash : NarInfo :=
    { storePath := info.storePath
      url := info.url
      compression := info.compression
      fileHash := info.fileHash }
  refine (parseFrom_optional upToFileHash _ fileHash fileHashEnd
    (fun text present => ?_) (fun absent => ?_)).trans ?_
  · simp [setField, upToFileHash, Option.mem_def.mp present]
  · simp [upToFileHash, absent]
  let upToFileSize : NarInfo := { upToFileHash with fileSize := info.fileSize }
  refine (parseFrom_optional upToFileSize _ (fun text present => ?_)
    fileSizeEnd (fun text present => ?_) (fun absent => ?_)).trans ?_
  · rcases Option.map_eq_some_iff.mp present with ⟨size, -, rfl⟩
    exact displayU64_newline size
  · rcases Option.map_eq_some_iff.mp present with ⟨size, sizeEq, rfl⟩
    simp [setField, upToFileSize, sizeEq]
  · have noSize : info.fileSize = none := by simpa using absent
    simp [upToFileSize, upToFileHash, noSize]
  refine (parseFrom_field _ narHash narHashEnd rfl).trans ?_
  let upToNarSize : NarInfo :=
    { upToFileSize with narHash := info.narHash, narSize := info.narSize }
  have setNarSize :
      setField { upToFileSize with narHash := info.narHash }
        Field.narSize.key (displayU64 info.narSize) = .ok upToNarSize := by
    simp [setField, upToNarSize]
  refine (parseFrom_field _ (displayU64_newline _) narSizeEnd
    setNarSize).trans ?_
  let upToReferences : NarInfo :=
    { upToNarSize with references := info.references }
  have setReferences :
      setField upToNarSize Field.references.key
        ([' '].intercalate info.references) = .ok upToReferences := by
    simp [setField, upToReferences, readReferences]
  refine (parseFrom_field _ references referencesEnd setReferences).trans ?_
  let upToDeriver : NarInfo := { upToReferences with deriver := info.deriver }
  refine (parseFrom_optional upToDeriver _ deriver deriverEnd
    (fun text present => ?_) (fun absent => ?_)).trans ?_
  · simp [setField, upToDeriver, Option.mem_def.mp present]
  · simp [upToDeriver, upToReferences, upToNarSize, upToFileSize,
      upToFileHash, absent]
  let upToSystem : NarInfo := { upToDeriver with system := info.system }
  refine (parseFrom_optional upToSystem _ system systemEnd
    (fun text present => ?_) (fun absent => ?_)).trans ?_
  · simp [setField, upToSystem, Option.mem_def.mp present]
  · simp [upToSystem, upToDeriver, upToReferences, upToNarSize,
      upToFileSize, upToFileHash, absent]
  refine (parseFrom_extra _ _ (fun entry member => ?_)
    (fun entry member => (representable.extraKey entry member).2)).trans ?_
  · exact ⟨extraKeys entry member, (representable.extraKey entry member).1,
      extraValues entry member, extraEnd entry member⟩
  exact parseFrom_signatures _
    (fun entry member =>
      framed_field .sig (sigs entry member) (sigsEnd entry member))
    (fun entry member =>
      framed_field .sigPqc (sigPqc entry member) (sigPqcEnd entry member))

/-- The text of a narinfo. -/
def narinfoFormat : Format Str NarInfo Error where
  print := toText
  read := parse
  Valid := Representable
  read_print _ := parse_toText
  valid_of_read _ _ := representable_of_parse

/--
A record is read back from its text exactly when it is representable, and
parsing yields nothing else.
-/
theorem parse_toText_iff_representable :
    (∀ (text : Str) (info : NarInfo),
        parse text = .ok info → Representable info) ∧
      (∀ info : NarInfo,
        parse (toText info) = .ok info ↔ Representable info) ∧
      ∀ (text : Str) (info : NarInfo),
        parse text = .ok info → parse (toText info) = .ok info := by
  constructor
  · exact narinfoFormat.valid_of_read
  constructor
  · intro info
    exact narinfoFormat.read_print_iff
  · intro text info
    exact narinfoFormat.read_print_of_read

end NixPqcCache.NarinfoRoundTrip
