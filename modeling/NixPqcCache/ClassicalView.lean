import NixPqcCache.Server
import NixPqcCache.VerifyPolicy

/-!
# What a classical client sees

A client that does not know the key `Sig-PQC` passes over these lines.  Its
view of a text is the list of the other effective lines.

Parsing reads the `Sig-PQC` lines into their own field and nowhere else, and
they are written after everything else.  So signing a text, serving it through
a proxy and checking it classically only depend on the view, and whoever
strips a text of these lines is not noticed without `--require-pqc`.  There is
one way in which they count: a proxy reads no more than so many bytes.
-/

namespace NixPqcCache.ClassicalView

open NixPqcCache.CappedReader
open NixPqcCache.Commands
open NixPqcCache.Data
open NixPqcCache.Filesystem
open NixPqcCache.Foundation
open NixPqcCache.Hybrid
open NixPqcCache.HybridCandidates
open NixPqcCache.KeyFiles
open NixPqcCache.Keys
open NixPqcCache.Narinfo
open NixPqcCache.NarinfoGrammar
open NixPqcCache.NarinfoRoundTrip
open NixPqcCache.Proxy
open NixPqcCache.ProxyAnswers
open NixPqcCache.Server
open NixPqcCache.SignRuns
open NixPqcCache.SignatureEntries
open NixPqcCache.VerifyPolicy

/-! ## The view -/

/-- The key of the line is `Sig-PQC`. -/
def isPqcLine (line : Str) : Bool :=
  match splitLine line with
  | .ok (key, _) => key == Field.sigPqc.key
  | .error _ => false

/-- The effective lines of a text that are no `Sig-PQC` lines. -/
def classicalLines (text : Str) : List Str :=
  (effectiveLines text).filter fun line => !isPqcLine line

/-- A record without its `Sig-PQC` entries. -/
def withoutPqc (info : NarInfo) : NarInfo :=
  { info with sigPqc := [] }

/-- A text of the classical lines only. -/
def stripPqc (text : Str) : Str :=
  (classicalLines text).flatMap fun line => line ++ ['\n']

/-! ## Parsing -/

theorem isPqcLine_eq_true_iff {line : Str} :
    isPqcLine line = true ↔
      ∃ value, splitLine line = .ok (Field.sigPqc.key, value) := by
  rw [isPqcLine]
  cases splitLine line with
  | error cause => simp
  | ok entry => simp [Prod.ext_iff]

/-- A `Sig-PQC` line is never rejected. -/
theorem lineError_of_isPqcLine {line : Str} (pqc : isPqcLine line = true) :
    lineError line = none := by
  rcases isPqcLine_eq_true_iff.mp pqc with ⟨value, split⟩
  rw [lineError, split]
  simp [valueError]

theorem findSome?_lineError_filter (lines : List Str) :
    (lines.filter fun line => !isPqcLine line).findSome? lineError =
      lines.findSome? lineError := by
  induction lines with
  | nil => rfl
  | cons line lines induction =>
      cases pqc : isPqcLine line with
      | true =>
          rw [List.filter_cons_of_neg (by simp [pqc]), induction,
            List.findSome?_cons, lineError_of_isPqcLine pqc]
      | false =>
          rw [List.filter_cons_of_pos (by simp [pqc]), List.findSome?_cons,
            List.findSome?_cons, induction]

/-- Entries of another key than `Sig-PQC`. -/
def classicalEntries (entries : List (Str × Str)) : List (Str × Str) :=
  entries.filter fun entry => entry.1 ≠ Field.sigPqc.key

theorem entriesOf_filter (lines : List Str) :
    entriesOf (lines.filter fun line => !isPqcLine line) =
      classicalEntries (entriesOf lines) := by
  induction lines with
  | nil => rfl
  | cons line lines induction =>
      rw [← List.singleton_append, List.filter_append, entriesOf_append,
        entriesOf_append, induction, classicalEntries, classicalEntries,
        List.filter_append]
      apply congrArg (· ++ _)
      cases split : splitLine line with
      | error cause =>
          simp [entriesOf, isPqcLine, split, Except.toOption]
      | ok entry =>
          by_cases pqc : entry.1 = Field.sigPqc.key
          · simp [entriesOf, isPqcLine, split, Except.toOption, pqc]
          · simp [entriesOf, isPqcLine, split, Except.toOption, pqc]

theorem valuesIn_classicalEntries {field : Field}
    (entries : List (Str × Str)) (other : field ≠ .sigPqc) :
    valuesIn field (classicalEntries entries) = valuesIn field entries := by
  rw [valuesIn, classicalEntries, List.filterMap_filter, valuesIn]
  apply List.filterMap_congr
  intro entry _
  by_cases key : entry.1 = field.key
  · simp [key, Field.key_inj, other]
  · simp [key]

/-- The other entries say everything but the `Sig-PQC` entries. -/
theorem recordOf_classicalEntries (entries : List (Str × Str)) :
    recordOf (classicalEntries entries) = withoutPqc (recordOf entries) := by
  have lasts {field : Field} (other : field ≠ .sigPqc) :
      lastValue field (classicalEntries entries) =
        lastValue field entries := by
    rw [lastValue, valuesIn_classicalEntries entries other, lastValue]
  have absent : valuesIn .sigPqc (classicalEntries entries) = [] := by
    simp [valuesIn, classicalEntries]
  have extra : ((classicalEntries entries).filter fun entry =>
      Field.ofKey entry.1 = none) =
        entries.filter fun entry => Field.ofKey entry.1 = none := by
    rw [classicalEntries, List.filter_filter]
    apply List.filter_congr
    intro entry _
    by_cases key : entry.1 = Field.sigPqc.key
    · simp [key]
    · simp [key]
  simp [recordOf, withoutPqc, lasts, valuesIn_classicalEntries, absent, extra]

/-- Up to the `Sig-PQC` entries a text is read through its view. -/
theorem map_parse (text : Str) :
    (NarInfo.parse text).map withoutPqc = outcome (classicalLines text) := by
  rw [parse_eq_outcome, outcome, outcome, classicalLines,
    findSome?_lineError_filter, entriesOf_filter, recordOf_classicalEntries]
  cases (effectiveLines text).findSome? lineError with
  | some cause => rfl
  | none =>
      by_cases storePath :
          (recordOf (entriesOf (effectiveLines text))).storePath = []
      · simp [withoutPqc, storePath, Except.map]
      · by_cases narHash :
            (recordOf (entriesOf (effectiveLines text))).narHash = []
        · simp [withoutPqc, storePath, narHash, Except.map]
        · simp [withoutPqc, storePath, narHash, Except.map]

/-! ## Writing -/

/-- A text of whole lines. -/
def Whole (text : Str) : Prop :=
  text = [] ∨ ∃ earlier, text = earlier ++ ['\n']

theorem Whole.append {before after : Str} (whole : Whole before)
    (later : Whole after) : Whole (before ++ after) := by
  rcases later with rfl | ⟨earlier, rfl⟩
  · rw [List.append_nil]
    exact whole
  · exact Or.inr ⟨before ++ earlier, (List.append_assoc _ _ _).symm⟩

theorem whole_formatLine (key value : Str) :
    Whole (NarInfo.formatLine key value) :=
  Or.inr ⟨_, rfl⟩

theorem whole_formatOptional (key : Str) (value : Option Str) :
    Whole (NarInfo.formatOptional key value) := by
  cases value with
  | none => exact Or.inl rfl
  | some value => exact whole_formatLine key value

theorem whole_flatMap {Entry : Type} {write : Entry → Str}
    (whole : ∀ entry, Whole (write entry)) (entries : List Entry) :
    Whole (entries.flatMap write) := by
  induction entries with
  | nil => exact Or.inl rfl
  | cons entry entries induction =>
      rw [List.flatMap_cons]
      exact (whole entry).append induction

theorem whole_toText (info : NarInfo) : Whole info.toText := by
  rw [NarInfo.toText]
  have entries := whole_flatMap (fun entry : Str × Str =>
    whole_formatLine entry.1 entry.2) info.extra
  have values (key : Str) := whole_flatMap (whole_formatLine key)
  exact (whole_formatLine _ _).append (whole_formatLine _ _)
    |>.append (whole_formatLine _ _) |>.append (whole_formatOptional _ _)
    |>.append (whole_formatOptional _ _) |>.append (whole_formatLine _ _)
    |>.append (whole_formatLine _ _) |>.append (whole_formatLine _ _)
    |>.append (whole_formatOptional _ _) |>.append (whole_formatOptional _ _)
    |>.append entries |>.append (values _ _) |>.append (values _ _)

theorem effectiveLines_append_of_whole {before : Str} (whole : Whole before)
    (after : Str) :
    effectiveLines (before ++ after) =
      effectiveLines before ++ effectiveLines after := by
  rcases whole with rfl | ⟨earlier, rfl⟩
  · rfl
  · rw [List.append_assoc, List.singleton_append, effectiveLines_append,
      effectiveLines_append]
    exact congrArg (· ++ _) (List.append_nil _).symm

theorem classicalLines_append_of_whole {before : Str} (whole : Whole before)
    (after : Str) :
    classicalLines (before ++ after) =
      classicalLines before ++ classicalLines after := by
  rw [classicalLines, effectiveLines_append_of_whole whole,
    List.filter_append]
  rfl

/-- A line that ends where the parser looks is effective as it is. -/
theorem effective_singleton {line : Str} (nonempty : line ≠ [])
    (last : line.getLast? ≠ some '\r') : effective [line] = [line] := by
  rw [effective, List.map_singleton, Text.trimEndMatches_eq_self last]
  simp [nonempty]

/-- A `Sig-PQC` line that is written is not seen. -/
theorem classicalLines_formatLine_sigPqc {entry : Str}
    (clean : Clean entry) :
    classicalLines (NarInfo.formatLine Field.sigPqc.key entry) = [] := by
  have framed := framed_field .sigPqc clean.1 clean.2
  have nonempty : lineOf Field.sigPqc.key entry ≠ [] := by
    simp [lineOf]
  have pqc : isPqcLine (lineOf Field.sigPqc.key entry) = true :=
    isPqcLine_eq_true_iff.mpr ⟨entry, framed.splitLine⟩
  rw [classicalLines, ← List.append_nil (NarInfo.formatLine _ _),
    formatLine_append, effectiveLines_cons framed.lineOf_newline,
    effective_singleton nonempty framed.lineOf_return]
  simp [pqc, effectiveLines, effective]

/-- What is written is seen up to the `Sig-PQC` entries. -/
theorem classicalLines_toText {info : NarInfo}
    (clean : ∀ entry ∈ info.sigPqc, Clean entry) :
    classicalLines info.toText =
      classicalLines (withoutPqc info).toText := by
  have split : info.toText = (withoutPqc info).toText ++
      info.sigPqc.flatMap fun entry =>
        NarInfo.formatLine Field.sigPqc.key entry := by
    simp [NarInfo.toText, withoutPqc]
  have entries : classicalLines (info.sigPqc.flatMap fun entry =>
      NarInfo.formatLine Field.sigPqc.key entry) = [] := by
    generalize info.sigPqc = written at clean
    induction written with
    | nil => rfl
    | cons entry written induction =>
        rw [List.forall_mem_cons] at clean
        rw [List.flatMap_cons,
          classicalLines_append_of_whole (whole_formatLine _ _),
          classicalLines_formatLine_sigPqc clean.1, induction clean.2]
        rfl
  rw [split, classicalLines_append_of_whole (whole_toText _), entries,
    List.append_nil]

/-! ## Stripping -/

/-- Effective lines are read back as they are. -/
theorem effectiveLines_flatMap {lines : List Str}
    (effectiveLine : ∀ line ∈ lines, '\n' ∉ line ∧
      effective [line] = [line]) :
    effectiveLines (lines.flatMap fun line => line ++ ['\n']) = lines := by
  induction lines with
  | nil => rfl
  | cons line lines induction =>
      rw [List.forall_mem_cons] at effectiveLine
      rw [List.flatMap_cons, List.append_assoc, List.singleton_append,
        effectiveLines_cons effectiveLine.1.1, effectiveLine.1.2,
        induction effectiveLine.2]
      rfl

theorem mem_effectiveLines {text line : Str}
    (member : line ∈ effectiveLines text) :
    '\n' ∉ line ∧ effective [line] = [line] := by
  rw [effectiveLines, effective, List.mem_filter] at member
  rcases List.mem_map.mp member.1 with ⟨whole, wholeMember, rfl⟩
  constructor
  · intro newline
    exact Text.not_mem_of_mem_lines wholeMember
      ((Text.trimEndMatches_prefix '\r' whole).subset newline)
  · exact effective_singleton (of_decide_eq_true member.2)
      (Text.getLast?_trimEndMatches '\r' whole)

theorem effectiveLines_stripPqc (text : Str) :
    effectiveLines (stripPqc text) = classicalLines text :=
  effectiveLines_flatMap fun _ member =>
    mem_effectiveLines (List.mem_of_mem_filter member)

/-- Stripping is not seen. -/
theorem classicalLines_stripPqc (text : Str) :
    classicalLines (stripPqc text) = classicalLines text := by
  rw [classicalLines, effectiveLines_stripPqc, classicalLines,
    List.filter_filter]
  simp

theorem sigPqc_of_parse_stripPqc {text : Str} {info : NarInfo}
    (parsed : NarInfo.parse (stripPqc text) = .ok info) :
    info.sigPqc = [] := by
  rw [eq_recordOf_of_parse parsed, effectiveLines_stripPqc, classicalLines,
    entriesOf_filter, recordOf_classicalEntries]
  rfl

/-! ## Signing and serving -/

variable {Rand : Type} (primitives : Primitives Rand)

/-- What becomes of a narinfo on its way from its publisher to a client. -/
inductive Step (Rand : Type) where
  | sign (signing : Signing Rand)
  /-- The framework is that of the server in front of the proxy. -/
  | serve (framework : Framework) (state : ProxyState) (rand : Rand)
      (hash : Str) (nameValid : validateKeyName state.secret.name = .ok ())

/--
`cmd_sign` rewrites the text, or `handle_narinfo` serves it when its upstream
answers with the text.
-/
def Step.run : Step Rand → Str → Result Str
  | .sign signing => fun text => Signing.rewrite primitives text signing
  | .serve framework state rand hash _ => fun text => do
      let upstream : Upstream := fun _ =>
        .ok ⟨200, framework.cut (asBytes text)⟩
      let response ← handleNarinfo primitives state upstream rand
        (hash ++ ".narinfo".toList)
      okOr (.upstreamNotUtf8 (utf8Error response.body))
        (fromUtf8 response.body)

/-- Some steps, one after another. -/
def runSteps (steps : List (Step Rand)) (text : Str) : Result Str :=
  steps.foldlM (fun text step => Step.run primitives step text) text

/-- What reads a text up to its `Sig-PQC` entries reads its view. -/
theorem map_parse_bind {α β : Type} {text : Str} {see : α → β}
    {next : NarInfo → Result α} {nextSeen : NarInfo → Result β}
    (agree : ∀ info, NarInfo.parse text = .ok info →
      (next info).map see = nextSeen (withoutPqc info)) :
    (NarInfo.parse text >>= next).map see =
      outcome (classicalLines text) >>= nextSeen := by
  rw [← map_parse]
  cases parsed : NarInfo.parse text with
  | error cause => rfl
  | ok info => exact agree info parsed

theorem map_bind {α β γ : Type} {see : β → γ} {action : Result α}
    {next : α → Result β} :
    (action >>= next).map see =
      action >>= fun value => (next value).map see := by
  cases action with
  | error cause => rfl
  | ok value => rfl

theorem clean_encodeSigPqc {name : Str} {bytes : Bytes}
    (nameValid : validateKeyName name = .ok ()) :
    Clean (encodeSigPqc name bytes) := by
  rw [encodeSigPqc_eq_entryOf]
  exact clean_entryOf (newline_not_mem nameValid) (return_not_mem nameValid)
    _

/-- What is seen of a signed text. -/
theorem map_signText {secret : SecretKey}
    (nameValid : validateKeyName secret.name = .ok ()) (rand : Rand)
    (text : Str) :
    (signText primitives secret rand text).map classicalLines =
      outcome (classicalLines text) >>= fun info =>
        info.fingerprint >>= fun fingerprint => .ok (classicalLines
          (withoutPqc (signInfo primitives secret rand info
            fingerprint)).toText) := by
  refine map_parse_bind fun info parsed => ?_
  refine map_bind.trans (Runs.bind_congr_of_ok fun fingerprint _ => ?_)
  refine congrArg Except.ok (classicalLines_toText ?_)
  have representable := representable_of_parse parsed
  simp only [signInfo, List.forall_mem_append, List.forall_mem_singleton]
  exact ⟨fun entry member => representable.clean_signature
    (Or.inr (List.mem_of_mem_filter member)), clean_encodeSigPqc nameValid⟩

/-- What is seen of a text that a proxy serves. -/
theorem map_serveText {state : ProxyState}
    (nameValid : validateKeyName state.secret.name = .ok ()) (rand : Rand)
    (hash text : Str) :
    (serveText primitives state rand hash text).map classicalLines =
      outcome (classicalLines text) >>= fun info =>
        info.fingerprint >>= fun fingerprint =>
          if upstreamVerified primitives state info fingerprint then
            .ok (classicalLines (withoutPqc (reSign primitives state.secret
              rand info fingerprint)).toText)
          else
            .error (.upstreamRejected hash) := by
  refine map_parse_bind fun info parsed => ?_
  refine map_bind.trans (Runs.bind_congr_of_ok fun fingerprint _ => ?_)
  have same : upstreamVerified primitives state (withoutPqc info)
      fingerprint = upstreamVerified primitives state info fingerprint := rfl
  rw [same]
  split
  next =>
    refine congrArg Except.ok (classicalLines_toText ?_)
    have representable := representable_of_parse parsed
    simp only [reSign, List.forall_mem_append, List.forall_mem_singleton]
    exact ⟨fun entry member =>
      representable.clean_signature (Or.inr member),
      clean_encodeSigPqc nameValid⟩
  next => rfl

/-- A text under the cap is served, however it is cut. -/
theorem Step.run_serve (framework : Framework) {state : ProxyState}
    (rand : Rand) (hash : Str)
    (nameValid : validateKeyName state.secret.name = .ok ()) (text : Str) :
    (Step.serve framework state rand hash nameValid).run primitives text =
      if maxNarinfoBytes < byteLength text then
        .error (.bodyTooLong maxNarinfoBytes)
      else
        serveText primitives state rand hash text := by
  have suffix : (hash ++ ".narinfo".toList).dropSuffix? ".narinfo".toList =
      some hash :=
    List.dropSuffix?_eq_some_iff.mpr ⟨_, rfl, by simp⟩
  rcases framework.cut_complete (asBytes text) with ⟨normal, bytes⟩
  have read : readCapped maxNarinfoBytes (framework.cut (asBytes text)) =
      if maxNarinfoBytes < byteLength text then
        .error (.bodyTooLong maxNarinfoBytes)
      else
        .ok (asBytes text) := by
    rw [readCapped_eq, bytes, normal, Pieces.keep, List.nil_append,
      byteLength]
    split
    next => rfl
    next => rfl
  simp only [Step.run, handleNarinfo, suffix]
  change ((readCapped maxNarinfoBytes (framework.cut (asBytes text)) >>=
    _) >>= _) = _
  rw [read]
  split
  next => rfl
  next =>
    change ((okOr _ (fromUtf8 (asBytes text)) >>= _) >>= _) = _
    rw [fromUtf8_asBytes]
    change ((serveText primitives state rand hash text >>= _) >>= _) = _
    cases serveText primitives state rand hash text with
    | error cause => rfl
    | ok served =>
        change okOr _ (fromUtf8 (asBytes served)) = _
        rw [fromUtf8_asBytes]
        rfl

/--
What is seen after a step depends on what was seen before, unless a proxy
finds one of the texts too long.
-/
theorem Step.run_alikeUnless (step : Step Rand) {text other : Str}
    (same : classicalLines text = classicalLines other) :
    Runs.AlikeUnless (.bodyTooLong maxNarinfoBytes) classicalLines
      (step.run primitives text) (step.run primitives other) := by
  cases step with
  | sign signing =>
      refine Or.inr (Or.inr ?_)
      simp only [Step.run, Signing.rewrite,
        map_signText primitives signing.nameValid, same]
  | serve framework state rand hash nameValid =>
      rw [Step.run_serve, Step.run_serve]
      split
      next => exact Or.inl rfl
      next =>
        split
        next => exact Or.inr (Or.inl rfl)
        next =>
          refine Or.inr (Or.inr ?_)
          simp only [map_serveText primitives nameValid, same]

/-- The check of a file without `--pqc-pubkey` looks at what is seen. -/
theorem cmdVerify_classical {files : FileSystem} {path text : Str}
    (read : files.readToString path = some text) (pubkey : Option Str) :
    cmdVerify primitives files path pubkey none false =
      if pubkey.isNone then
        .error .noVerificationRequested
      else
        outcome (classicalLines text) >>= fun info =>
          info.fingerprint >>= fun fingerprint =>
            checkClassical primitives info fingerprint pubkey := by
  rw [cmdVerify, Option.isNone_none, Bool.and_true, read, ← map_parse]
  split
  next => rfl
  next =>
    change (NarInfo.parse text >>= _) = _
    cases NarInfo.parse text with
    | error cause => rfl
    | ok info =>
        refine @Runs.bind_congr_of_ok _ _ _ info.fingerprint _ _
          fun fingerprint _ => ?_
        have same : checkClassical primitives (withoutPqc info) fingerprint
            pubkey = checkClassical primitives info fingerprint pubkey := by
          cases pubkey with
          | none => rfl
          | some arg => rfl
        rw [same]
        cases checkClassical primitives info fingerprint pubkey with
        | error cause => rfl
        | ok value => rfl

/--
The `Sig-PQC` lines of a text are never seen by a client that only checks
`Sig`.  Whatever was done to them before the text was signed and served any
number of times, the client's verdict is the same, and so are all errors but
that of a proxy which finds one of the texts too long.  Stripping a text of
them is such a change, and the only check that notices is one that requires
them.
-/
theorem pqc_lines_inert :
    (∀ (text other : Str), classicalLines text = classicalLines other →
      ∀ steps : List (Step Rand),
        runSteps primitives steps text =
            .error (.bodyTooLong maxNarinfoBytes) ∨
          runSteps primitives steps other =
              .error (.bodyTooLong maxNarinfoBytes) ∨
            (runSteps primitives steps text).map classicalLines =
              (runSteps primitives steps other).map classicalLines) ∧
      (∀ (text other : Str), classicalLines text = classicalLines other →
        (NarInfo.parse text).map withoutPqc =
            (NarInfo.parse other).map withoutPqc ∧
          ∀ (files : FileSystem) (path otherPath : Str)
            (pubkey : Option Str), files.readToString path = some text →
              files.readToString otherPath = some other →
                cmdVerify primitives files path pubkey none false =
                  cmdVerify primitives files otherPath pubkey none false) ∧
        ∀ text : Str, classicalLines (stripPqc text) = classicalLines text ∧
          ∀ (files : FileSystem) (path : Str) (pubkey pqc : Option Str),
            files.readToString path = some (stripPqc text) →
              cmdVerify primitives files path pubkey pqc true ≠ .ok () := by
  refine ⟨?_, ?_, ?_⟩
  · intro text other same steps
    exact Runs.foldlM_alikeUnless
      (fun step _ _ equal => step.run_alikeUnless primitives equal) same
  · intro text other same
    refine ⟨by rw [map_parse, map_parse, same], ?_⟩
    intro files path otherPath pubkey read otherRead
    rw [cmdVerify_classical primitives read,
      cmdVerify_classical primitives otherRead, same]
  · intro text
    refine ⟨classicalLines_stripPqc text, ?_⟩
    intro files path pubkey pqc read accepted
    rcases (cmdVerify_eq_ok_iff primitives).mp accepted with
      ⟨-, info, fingerprint, ⟨other, otherRead, parsed, -⟩, -, passes⟩
    rcases Option.some.inj (read.symm.trans otherRead) with rfl
    cases pqc with
    | none => cases passes
    | some pqcPath =>
        rcases passes with ⟨pk, -, evidence | ⟨impossible, -⟩⟩
        · exact not_hybridEvidence_of_missing primitives
            (sigPqc_of_parse_stripPqc parsed) evidence
        · cases impossible

/-- The narinfo of an upstream with a `Sig-PQC` line of somebody else. -/
def sampleWithPqc : NarInfo :=
  { crowded 0 with sigPqc := ["x".toList] }

theorem sampleWithPqc_representable : Representable sampleWithPqc := by
  have representable := representable_of_parse (crowded_parse 0)
  apply representable.withSignatures
  · exact fun _ member => representable.clean_signature (Or.inl member)
  · unfold Clean
    decide

/-- A proxy serves the narinfo, and a key signs what it has served. -/
def sampleSteps : List (Step Unit) :=
  [.serve sampleFramework sampleState () "x".toList sampleState_nameValid,
    .sign sampleOtherSigning]

/-- A short narinfo that the upstream has signed is served and signed. -/
theorem sampleSteps_run {info : NarInfo} (representable : Representable info)
    (computed : info.fingerprint = .ok sampleFingerprint)
    (evidence : UpstreamEvidence Primitives.transparent sampleState info
      sampleFingerprint)
    (fits : byteLength info.toText ≤ maxNarinfoBytes) :
    ∃ final, runSteps Primitives.transparent sampleSteps info.toText =
      .ok final := by
  have parsed := parse_toText representable
  have served : serveText Primitives.transparent sampleState () "x".toList
      info.toText = .ok (reSign Primitives.transparent sampleState.secret ()
        info sampleFingerprint).toText :=
    (serveText_eq_ok_iff _).mpr ⟨info, _, parsed, computed, evidence, rfl⟩
  have signed := sampleOtherSigning.rewrite_eq Primitives.transparent
    ⟨parse_reSign _ sampleState_nameValid parsed,
      (fingerprint_reSign Primitives.transparent sampleState.secret () info
        sampleFingerprint).trans computed⟩
  have first := Step.run_serve Primitives.transparent sampleFramework ()
    "x".toList sampleState_nameValid info.toText
  rw [if_neg (Nat.not_lt.mpr fits), served] at first
  exact ⟨_, Runs.foldlM_cons_eq_ok_iff.mpr ⟨_, first,
    Runs.foldlM_cons_eq_ok_iff.mpr ⟨_, signed, rfl⟩⟩⟩

/-- A proxy and a signer are told apart by nothing but that line. -/
theorem pqc_lines_inert_sample :
    ∃ final other,
      runSteps Primitives.transparent sampleSteps sampleWithPqc.toText =
          .ok final ∧
        runSteps Primitives.transparent sampleSteps (crowded 0).toText =
          .ok other ∧
        classicalLines final = classicalLines other := by
  have inert := pqc_lines_inert Primitives.transparent
  have same : classicalLines sampleWithPqc.toText =
      classicalLines (crowded 0).toText :=
    classicalLines_toText fun _ member =>
      sampleWithPqc_representable.clean_signature (Or.inr member)
  rcases sampleSteps_run sampleWithPqc_representable (crowded_fingerprint 0)
    (crowded_evidence 0) (by decide +kernel) with ⟨final, ran⟩
  rcases sampleSteps_run (representable_of_parse (crowded_parse 0))
    (crowded_fingerprint 0) (crowded_evidence 0) (by decide +kernel) with
    ⟨other, otherRan⟩
  refine ⟨final, other, ran, otherRan, ?_⟩
  rcases inert.1 _ _ same sampleSteps with long | long | alike
  · rw [ran] at long
    cases long
  · rw [otherRan] at long
    cases long
  · rw [ran, otherRan] at alike
    exact Except.ok.inj alike

end NixPqcCache.ClassicalView
