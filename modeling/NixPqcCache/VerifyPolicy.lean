import NixPqcCache.HybridCandidates
import NixPqcCache.KeyFiles
import NixPqcCache.NarinfoLines

/-!
# The verification policy

The early exits of `cmd_verify` are brought into one condition on the narinfo,
the loaded key and the options.  The results below read the policy off this
condition: what acceptance proves with `--require-pqc`, what it proves
without, and the one combination of options that proves nothing.
-/

namespace NixPqcCache.VerifyPolicy

open NixPqcCache.Commands
open NixPqcCache.Data
open NixPqcCache.Filesystem
open NixPqcCache.Foundation
open NixPqcCache.Hybrid
open NixPqcCache.HybridCandidates
open NixPqcCache.KeyFiles
open NixPqcCache.Keys
open NixPqcCache.Narinfo
open NixPqcCache.NarinfoLines
open NixPqcCache.NarinfoRoundTrip
open NixPqcCache.SignatureEntries

variable {Rand : Type} (primitives : Primitives Rand)

/-! ## The three checks -/

/-- A file holds a narinfo that parses and has a fingerprint. -/
def Reads (files : FileSystem) (narinfoPath : Str) (info : NarInfo)
    (fingerprint : Str) : Prop :=
  ∃ text, files.readToString narinfoPath = some text ∧
    NarInfo.parse text = .ok info ∧ info.fingerprint = .ok fingerprint

/-- Some `Sig` entry passes the classical check. -/
def ClassicalEvidence (info : NarInfo) (fingerprint pubkeyArg : Str) : Prop :=
  ∃ entry ∈ info.sigs,
    verifyEd25519Sig primitives fingerprint entry
      (parseNamedPubkey pubkeyArg).1 (parseNamedPubkey pubkeyArg).2 = .ok ()

/-- The hybrid check accepts under a loaded key. -/
def HybridEvidence (info : NarInfo) (fingerprint : Str) (pk : PublicKey) :
    Prop :=
  verifyHybrid primitives info fingerprint pk.name pk.keys = .ok ()

/-- What the options ask of the hybrid half. -/
def PqcPasses (files : FileSystem) (info : NarInfo) (fingerprint : Str)
    (requirePqc : Bool) : Option Str → Prop
  | some path =>
      ∃ pk, PublicKey.load files path = .ok pk ∧
        (HybridEvidence primitives info fingerprint pk ∨
          requirePqc = false ∧ info.sigPqc = [])
  | none => requirePqc = false

theorem classicalOk_eq_true_iff {info : NarInfo}
    {fingerprint pubkeyArg : Str} :
    classicalOk primitives info fingerprint pubkeyArg = true ↔
      ClassicalEvidence primitives info fingerprint pubkeyArg := by
  simp only [classicalOk, List.any_eq_true, Runs.isOk_eq_true_iff,
    ClassicalEvidence]

theorem checkClassical_eq_ok_iff {info : NarInfo} {fingerprint : Str}
    {pubkeyB64 : Option Str} :
    checkClassical primitives info fingerprint pubkeyB64 = .ok () ↔
      ∀ arg ∈ pubkeyB64, ClassicalEvidence primitives info fingerprint arg := by
  cases pubkeyB64 with
  | none => simp [checkClassical]
  | some arg =>
      rw [checkClassical, Runs.ite_ok_eq_ok_iff, classicalOk_eq_true_iff]
      simp

theorem checkHybrid_passes_iff {files : FileSystem} {info : NarInfo}
    {fingerprint : Str} {requirePqc : Bool} {pqcPubkeyPath : Option Str} :
    (∃ pqcOk, checkHybrid primitives files info fingerprint requirePqc
        pqcPubkeyPath = .ok pqcOk ∧ (requirePqc && !pqcOk) = false) ↔
      PqcPasses primitives files info fingerprint requirePqc
        pqcPubkeyPath := by
  cases pqcPubkeyPath with
  | none => simp [checkHybrid, PqcPasses]
  | some path =>
      simp only [checkHybrid, Runs.bind_eq_ok_iff, PqcPasses]
      constructor
      · rintro ⟨pqcOk, ⟨pk, loaded, checked⟩, met⟩
        refine ⟨pk, loaded, ?_⟩
        split at checked
        next verified => exact .inl (Runs.isOk_eq_true_iff.mp verified)
        next =>
          split at checked
          next => cases checked
          next optional =>
            right
            simpa using optional
      · rintro ⟨pk, loaded, verified | ⟨optional, missing⟩⟩
        · refine ⟨true, ⟨pk, loaded, ?_⟩, by simp⟩
          rw [if_pos (Runs.isOk_eq_true_iff.mpr verified)]
        · by_cases verified : (verifyHybrid primitives info fingerprint
              pk.name pk.keys).isOk = true
          · exact ⟨true, ⟨pk, loaded, by rw [if_pos verified]⟩, by simp⟩
          · refine ⟨false, ⟨pk, loaded, ?_⟩, by simp [optional]⟩
            rw [if_neg verified]
            simp [optional, missing]

/-- When `cmd_verify` accepts. -/
theorem cmdVerify_eq_ok_iff {files : FileSystem} {narinfoPath : Str}
    {pubkeyB64 pqcPubkeyPath : Option Str} {requirePqc : Bool} :
    cmdVerify primitives files narinfoPath pubkeyB64 pqcPubkeyPath
        requirePqc = .ok () ↔
      (pubkeyB64 ≠ none ∨ pqcPubkeyPath ≠ none) ∧
        ∃ info fingerprint, Reads files narinfoPath info fingerprint ∧
          (∀ arg ∈ pubkeyB64,
            ClassicalEvidence primitives info fingerprint arg) ∧
          PqcPasses primitives files info fingerprint requirePqc
            pqcPubkeyPath := by
  have asked : ¬ (pubkeyB64.isNone && pqcPubkeyPath.isNone) = true ↔
      pubkeyB64 ≠ none ∨ pqcPubkeyPath ≠ none := by
    simp [Option.isNone_iff_eq_none, or_iff_not_imp_left]
  rw [cmdVerify, Runs.ite_error_eq_ok_iff, asked]
  apply and_congr_right'
  simp only [Runs.bind_eq_ok_iff, okOr_eq_ok_iff, Runs.ite_error_eq_ok_iff,
    Bool.not_eq_true, and_true, ← checkHybrid_passes_iff,
    ← checkClassical_eq_ok_iff]
  constructor
  · rintro ⟨text, read, info, parsed, fingerprint, computed, ⟨⟩, classical,
      passes⟩
    exact ⟨info, fingerprint, ⟨text, read, parsed, computed⟩, classical,
      passes⟩
  · rintro ⟨info, fingerprint, ⟨text, read, parsed, computed⟩, classical,
      passes⟩
    exact ⟨text, read, info, parsed, fingerprint, computed, (), classical,
      passes⟩

/-- What a file whose text parses is read as. -/
theorem reads_iff {files : FileSystem} {narinfoPath text fingerprint : Str}
    {info other : NarInfo} (read : files.readToString narinfoPath = some text)
    (parsed : NarInfo.parse text = .ok info) :
    Reads files narinfoPath other fingerprint ↔
      other = info ∧ info.fingerprint = .ok fingerprint := by
  constructor
  · rintro ⟨otherText, otherRead, otherParsed, computed⟩
    rcases Option.some.inj (read.symm.trans otherRead) with rfl
    rcases Except.ok.inj (parsed.symm.trans otherParsed) with rfl
    exact ⟨rfl, computed⟩
  · rintro ⟨rfl, computed⟩
    exact ⟨text, read, parsed, computed⟩

/-- A file is read in at most one way. -/
theorem Reads.unique {files : FileSystem} {narinfoPath : Str}
    {info other : NarInfo} {fingerprint otherFingerprint : Str}
    (reads : Reads files narinfoPath info fingerprint)
    (otherReads : Reads files narinfoPath other otherFingerprint) :
    other = info ∧ otherFingerprint = fingerprint := by
  rcases reads with ⟨text, read, parsed, computed⟩
  rcases (reads_iff read parsed).mp otherReads with ⟨same, otherComputed⟩
  exact ⟨same, Except.ok.inj (otherComputed.symm.trans computed)⟩

theorem not_hybridEvidence_of_missing {info : NarInfo} {fingerprint : Str}
    {pk : PublicKey} (missing : info.sigPqc = []) :
    ¬ HybridEvidence primitives info fingerprint pk := by
  intro accepted
  rcases exists_good_of_verifyHybrid _ accepted with ⟨-, mlDsaSig, member, -⟩
  rw [pqcValues_eq_filterMap, missing] at member
  cases member

/-- A signer's own `Sig` entry passes the check under its name and key. -/
theorem classicalEvidence_of_sign {primitives : Primitives Rand}
    (correct : primitives.Correct) {secret : SecretKey} {rand : Rand}
    {info : NarInfo} {fingerprint : Str} (clean : ':' ∉ secret.name)
    (member : sigEntry secret.name (secret.signer.sign primitives rand
      (asBytes fingerprint)) ∈ info.sigs) :
    ClassicalEvidence primitives info fingerprint (entryOf secret.name
      (secret.publicKey primitives).keys.ed25519.toList) := by
  refine ⟨_, member, ?_⟩
  rw [parseNamedPubkey_entryOf clean, sigEntry_eq_entryOf]
  refine verifyEd25519Sig_eq_ok_iff.mpr
    ⟨secret.name, _, rfl, clean, by simp, _, Base64.decode_encode _, ?_⟩
  exact correct.verifyEd25519Only_sign secret.signer rand _

/-! ## Files of a sample -/

/-- The public key of the sample key. -/
def samplePublic : PublicKey :=
  sampleSecret.publicKey Primitives.transparent

/-- Two narinfos in `n` and `m`, and the sample public key in `k`. -/
def sampleFiles (info other : NarInfo) : FileSystem := fun path =>
  if path = "n".toList then some (asBytes info.toText)
  else if path = "m".toList then some (asBytes other.toText)
  else if path = "k".toList then some (asBytes samplePublic.body)
  else none

theorem sampleFiles_load (info other : NarInfo) :
    PublicKey.load (sampleFiles info other) "k".toList = .ok samplePublic :=
  load_of_contents rfl
    (loadText_publicKey_body Primitives.transparent (by decide))

theorem sampleInfo_representable : Representable sampleInfo where
  noNewline := by decide
  noFinalReturn := by decide
  referencesSpace := by decide
  referencesShape := by decide
  extraKey := by simp [sampleInfo]
  storePathNonempty := by decide
  narHashNonempty := by decide

theorem sampleInfo_fingerprint :
    sampleInfo.fingerprint = .ok sampleFingerprint := by
  decide

/-- The sample narinfo with any clean signatures is read back. -/
theorem sampleInfo_parse {sigs sigPqc : List Str}
    (cleanSigs : ∀ entry ∈ sigs, Clean entry)
    (cleanSigPqc : ∀ entry ∈ sigPqc, Clean entry) :
    NarInfo.parse (NarInfo.toText { sampleInfo with sigs, sigPqc }) =
      .ok { sampleInfo with sigs, sigPqc } :=
  parse_toText
    (sampleInfo_representable.withSignatures cleanSigs cleanSigPqc)

/-! ### The same narinfo with and without a foreign line -/

/-- The sample narinfo with the sample key's `Sig` and given `Sig-PQC`. -/
def sampleClassical (sigPqc : List Str) : NarInfo :=
  { sampleInfo with
    sigs := [sigEntry sampleSecret.name sampleSignature]
    sigPqc := sigPqc }

/-- The sample key as a `--pubkey` argument. -/
def samplePubkeyArg : Str :=
  entryOf sampleSecret.name samplePublic.keys.ed25519.toList

/-- The two narinfos as files. -/
def sampleOptionalFiles : FileSystem :=
  sampleFiles (sampleClassical ["other:".toList]) (sampleClassical [])

theorem sampleClassical_parse {sigPqc : List Str}
    (clean : ∀ entry ∈ sigPqc, Clean entry) :
    NarInfo.parse (sampleClassical sigPqc).toText =
      .ok (sampleClassical sigPqc) := by
  apply sampleInfo_parse _ clean
  intro entry member
  rw [List.mem_singleton.mp member, sigEntry_eq_entryOf]
  exact clean_entryOf (by decide) (by decide) _

theorem sampleClassical_evidence (sigPqc : List Str) :
    ClassicalEvidence Primitives.transparent (sampleClassical sigPqc)
      sampleFingerprint samplePubkeyArg :=
  classicalEvidence_of_sign Primitives.transparent_correct (by decide)
    (List.mem_singleton.mpr rfl)

theorem sampleOptionalFiles_read :
    sampleOptionalFiles.readToString "n".toList =
        some (sampleClassical ["other:".toList]).toText ∧
      sampleOptionalFiles.readToString "m".toList =
        some (sampleClassical []).toText :=
  ⟨FileSystem.readToString_eq_some rfl, FileSystem.readToString_eq_some rfl⟩

theorem clean_other : ∀ entry ∈ ["other:".toList], Clean entry := by
  unfold Clean
  decide

/-! ## Acceptance and evidence -/

/-- Some signature of the narinfo was verified under one of the options. -/
def Evidence (files : FileSystem) (narinfoPath : Str)
    (pubkeyB64 pqcPubkeyPath : Option Str) : Prop :=
  ∃ info fingerprint, Reads files narinfoPath info fingerprint ∧
    ((∃ arg ∈ pubkeyB64, ClassicalEvidence primitives info fingerprint arg) ∨
      ∃ path ∈ pqcPubkeyPath, ∃ pk, PublicKey.load files path = .ok pk ∧
        HybridEvidence primitives info fingerprint pk)

/--
Only an optional hybrid check was asked for, and the narinfo has no `Sig-PQC`
line for it to look at.
-/
def NothingToCheck (files : FileSystem) (narinfoPath : Str)
    (pubkeyB64 pqcPubkeyPath : Option Str) (requirePqc : Bool) : Prop :=
  pubkeyB64 = none ∧ requirePqc = false ∧
    ∃ info fingerprint, Reads files narinfoPath info fingerprint ∧
      info.sigPqc = [] ∧
        ∃ path pk, pqcPubkeyPath = some path ∧
          PublicKey.load files path = .ok pk

/-- In that case `cmd_verify` accepts. -/
theorem NothingToCheck.cmdVerify_eq_ok {files : FileSystem}
    {narinfoPath : Str} {pubkeyB64 pqcPubkeyPath : Option Str}
    {requirePqc : Bool}
    (nothing : NothingToCheck files narinfoPath pubkeyB64 pqcPubkeyPath
      requirePqc) :
    cmdVerify primitives files narinfoPath pubkeyB64 pqcPubkeyPath
      requirePqc = .ok () := by
  rcases nothing with
    ⟨rfl, optional, info, fingerprint, reads, missing, path, pk, rfl, loaded⟩
  refine (cmdVerify_eq_ok_iff _).mpr
    ⟨.inr (by simp), info, fingerprint, reads, by simp, pk, loaded, ?_⟩
  exact .inr ⟨optional, missing⟩

/-- In that case nothing was verified. -/
theorem NothingToCheck.not_evidence {files : FileSystem}
    {narinfoPath : Str} {pubkeyB64 pqcPubkeyPath : Option Str}
    {requirePqc : Bool}
    (nothing : NothingToCheck files narinfoPath pubkeyB64 pqcPubkeyPath
      requirePqc) :
    ¬ Evidence primitives files narinfoPath pubkeyB64 pqcPubkeyPath := by
  rcases nothing with
    ⟨rfl, optional, info, fingerprint, reads, missing, path, pk, rfl, loaded⟩
  rintro ⟨other, otherFingerprint, otherReads, classical | hybrid⟩
  · rcases classical with ⟨arg, given, -⟩
    cases given
  · rcases hybrid with ⟨otherPath, given, otherPk, otherLoaded, accepted⟩
    rcases reads.unique otherReads with ⟨rfl, rfl⟩
    exact not_hybridEvidence_of_missing _ missing accepted

/-- Acceptance rests on a verified signature in every other case. -/
theorem cmdVerify_evidence_iff (files : FileSystem) (narinfoPath : Str)
    (pubkeyB64 pqcPubkeyPath : Option Str) (requirePqc : Bool) :
    (cmdVerify primitives files narinfoPath pubkeyB64 pqcPubkeyPath
        requirePqc = .ok () →
      Evidence primitives files narinfoPath pubkeyB64 pqcPubkeyPath) ↔
      ¬ NothingToCheck files narinfoPath pubkeyB64 pqcPubkeyPath
        requirePqc := by
  constructor
  · intro proves nothing
    exact nothing.not_evidence primitives
      (proves (nothing.cmdVerify_eq_ok primitives))
  · intro something accepted
    rcases (cmdVerify_eq_ok_iff _).mp accepted with
      ⟨asked, info, fingerprint, reads, classical, passes⟩
    refine ⟨info, fingerprint, reads, ?_⟩
    cases pubkeyB64 with
    | some arg => exact .inl ⟨arg, rfl, classical arg rfl⟩
    | none =>
        cases pqcPubkeyPath with
        | none => simp at asked
        | some path =>
            rcases passes with ⟨pk, loaded, hybrid | ⟨optional, missing⟩⟩
            · exact .inr ⟨path, rfl, pk, loaded, hybrid⟩
            · exact (something ⟨rfl, optional, info, fingerprint, reads,
                missing, path, pk, rfl, loaded⟩).elim

/-- A narinfo without any signature is accepted under an optional check. -/
theorem cmdVerify_accepts_unsigned :
    let files := sampleFiles sampleInfo sampleInfo
    cmdVerify Primitives.transparent files "n".toList none
        (some "k".toList) false = .ok () ∧
      ¬ Evidence Primitives.transparent files "n".toList none
        (some "k".toList) := by
  intro files
  have reads : Reads files "n".toList sampleInfo sampleFingerprint :=
    ⟨_, FileSystem.readToString_eq_some rfl,
      parse_toText sampleInfo_representable, sampleInfo_fingerprint⟩
  have nothing :
      NothingToCheck files "n".toList none (some "k".toList) false :=
    ⟨rfl, rfl, sampleInfo, sampleFingerprint, reads, rfl, "k".toList,
      samplePublic, rfl, sampleFiles_load sampleInfo sampleInfo⟩
  exact ⟨nothing.cmdVerify_eq_ok _, nothing.not_evidence _⟩

/-! ## A required hybrid check -/

/-- The files of a run: a narinfo text and a public key. -/
structure Loaded (files : FileSystem) (narinfoPath : Str)
    (pqcPubkeyPath : Option Str) (text : Str) (info : NarInfo)
    (fingerprint : Str) (pk : PublicKey) : Prop where
  read : files.readToString narinfoPath = some text
  parsed : NarInfo.parse text = .ok info
  computed : info.fingerprint = .ok fingerprint
  loaded : ∃ path, pqcPubkeyPath = some path ∧
    PublicKey.load files path = .ok pk

/-- The lines of a text that satisfy `--require-pqc`. -/
structure RequiredLines (pubkeyB64 : Option Str) (text fingerprint : Str)
    (pk : PublicKey) : Prop where
  edLine : ∃ sig, HasLine text .sig (entryOf pk.name (List.Vector.toList sig)) ∧
    verifyEd25519Only primitives pk.keys.ed25519 (asBytes fingerprint) sig =
      .ok ()
  pqcLine : ∃ mlDsaSig : Bytes, mlDsaSig.length = mlDsa65SignatureLen ∧
    HasLine text .sigPqc (entryOf pk.name (1 :: mlDsaSig)) ∧
      verifyMlDsaOnly primitives pk.keys.mlDsa (asBytes fingerprint)
        mlDsaSig = .ok ()
  classicalLine : ∀ arg ∈ pubkeyB64, ∃ entry, HasLine text .sig entry ∧
    verifyEd25519Sig primitives fingerprint entry (parseNamedPubkey arg).1
      (parseNamedPubkey arg).2 = .ok ()

/-- An entry of a name among the values of a field stands on a line. -/
theorem entry_mem_iff {text : Str} {field : Field} {entries : List Str}
    (read : entries = valuesOf field text) (name : Str) (bytes : Bytes) :
    entryOf name bytes ∈ entries ↔
      HasLine text field (entryOf name bytes) := by
  rw [read, mem_valuesOf_iff (entryOf_ne_nil name bytes)]

/-- An entry that passes the classical check stands on a `Sig` line. -/
theorem classicalEvidence_iff_line {text : Str} {info : NarInfo}
    (parsed : NarInfo.parse text = .ok info) {fingerprint pubkeyArg : Str} :
    ClassicalEvidence primitives info fingerprint pubkeyArg ↔
      ∃ entry, HasLine text .sig entry ∧
        verifyEd25519Sig primitives fingerprint entry
          (parseNamedPubkey pubkeyArg).1 (parseNamedPubkey pubkeyArg).2 =
            .ok () := by
  constructor
  · rintro ⟨entry, member, verified⟩
    rcases verifyEd25519Sig_eq_ok_iff.mp verified with ⟨name, sig, rfl, -⟩
    exact ⟨_, (entry_mem_iff (sigs_eq_valuesOf parsed) _ _).mp member,
      verified⟩
  · rintro ⟨entry, line, verified⟩
    rcases verifyEd25519Sig_eq_ok_iff.mp verified with ⟨name, sig, rfl, -⟩
    exact ⟨_, (entry_mem_iff (sigs_eq_valuesOf parsed) _ _).mpr line,
      verified⟩

theorem exists_edGood_iff_line {text : Str} {info : NarInfo}
    (parsed : NarInfo.parse text = .ok info) {fingerprint : Str}
    {pk : PublicKey} (clean : ':' ∉ pk.name) :
    (∃ sig ∈ edValues info pk.name,
        edGood primitives pk.keys (asBytes fingerprint) sig = true) ↔
      ∃ sig, HasLine text .sig (entryOf pk.name (List.Vector.toList sig)) ∧
        verifyEd25519Only primitives pk.keys.ed25519 (asBytes fingerprint)
          sig = .ok () := by
  simp only [exists_edGood_iff, entry_mem_iff (sigs_eq_valuesOf parsed)]
  constructor
  · rintro ⟨sig, line, -, verified⟩
    exact ⟨sig, line, verified⟩
  · rintro ⟨sig, line, verified⟩
    exact ⟨sig, line, clean, verified⟩

theorem exists_pqcGood_iff_line {text : Str} {info : NarInfo}
    (parsed : NarInfo.parse text = .ok info) {fingerprint : Str}
    {pk : PublicKey} (clean : ':' ∉ pk.name) :
    (∃ mlDsaSig ∈ pqcValues info pk.name,
        pqcGood primitives pk.keys (asBytes fingerprint) mlDsaSig = true) ↔
      ∃ mlDsaSig : Bytes, mlDsaSig.length = mlDsa65SignatureLen ∧
        HasLine text .sigPqc (entryOf pk.name (1 :: mlDsaSig)) ∧
          verifyMlDsaOnly primitives pk.keys.mlDsa (asBytes fingerprint)
            mlDsaSig = .ok () := by
  have tag : SigPqcAlgorithm.mlDsa65.tag = 1 := rfl
  simp only [exists_pqcGood_iff, encodeSigPqc_eq_entryOf, tag,
    entry_mem_iff (sigPqc_eq_valuesOf parsed)]
  constructor
  · rintro ⟨mlDsaSig, line, -, length, verified⟩
    exact ⟨mlDsaSig, length, line, verified⟩
  · rintro ⟨mlDsaSig, length, line, verified⟩
    exact ⟨mlDsaSig, line, clean, length, verified⟩

/-- What acceptance proves when the hybrid check is required. -/
theorem requiredLines_of_cmdVerify {files : FileSystem} {narinfoPath : Str}
    {pubkeyB64 pqcPubkeyPath : Option Str}
    (accepted : cmdVerify primitives files narinfoPath pubkeyB64
      pqcPubkeyPath true = .ok ()) :
    ∃ text info fingerprint pk,
      Loaded files narinfoPath pqcPubkeyPath text info fingerprint pk ∧
        RequiredLines primitives pubkeyB64 text fingerprint pk := by
  rcases (cmdVerify_eq_ok_iff _).mp accepted with
    ⟨-, info, fingerprint, ⟨text, read, parsed, computed⟩, classical, passes⟩
  cases pqcPubkeyPath with
  | none => cases passes
  | some path =>
      rcases passes with ⟨pk, loaded, hybrid | ⟨impossible, -⟩⟩
      · have clean := colon_not_mem (valid_of_load loaded)
        rcases exists_good_of_verifyHybrid _ hybrid with ⟨edGood, pqcGood⟩
        refine ⟨text, info, fingerprint, pk,
          ⟨read, parsed, computed, path, rfl, loaded⟩,
          (exists_edGood_iff_line _ parsed clean).mp edGood,
          (exists_pqcGood_iff_line _ parsed clean).mp pqcGood, ?_⟩
        intro arg given
        exact (classicalEvidence_iff_line _ parsed).mp (classical arg given)
      · cases impossible

/-- The lines suffice when the candidates of the name fit below the cap. -/
theorem cmdVerify_of_requiredLines {files : FileSystem} {narinfoPath : Str}
    {pubkeyB64 pqcPubkeyPath : Option Str} {text fingerprint : Str}
    {info : NarInfo} {pk : PublicKey}
    (given : Loaded files narinfoPath pqcPubkeyPath text info fingerprint pk)
    (lines : RequiredLines primitives pubkeyB64 text fingerprint pk)
    (edBound : (Candidates.distinct (edValues info pk.name)).length ≤
      maxSigCandidates)
    (pqcBound : (Candidates.distinct (pqcValues info pk.name)).length ≤
      maxSigCandidates) :
    cmdVerify primitives files narinfoPath pubkeyB64 pqcPubkeyPath true =
      .ok () := by
  rcases given with ⟨read, parsed, computed, path, rfl, loaded⟩
  have clean := colon_not_mem (valid_of_load loaded)
  have hybrid : HybridEvidence primitives info fingerprint pk :=
    verifyHybrid_of_exists_good _ edBound pqcBound
      ((exists_edGood_iff_line _ parsed clean).mpr lines.edLine)
      ((exists_pqcGood_iff_line _ parsed clean).mpr lines.pqcLine)
  refine (cmdVerify_eq_ok_iff _).mpr ⟨.inr (by simp), info, fingerprint,
    ⟨text, read, parsed, computed⟩, ?_, pk, loaded, .inl hybrid⟩
  intro arg given
  exact (classicalEvidence_iff_line _ parsed).mpr
    (lines.classicalLine arg given)

/--
With `--require-pqc`, acceptance proves that the text has the required lines,
and the lines are accepted as long as each half has at most 32 distinct
candidates of the name.
-/
theorem cmdVerify_requirePqc_sound_and_complete (files : FileSystem)
    (narinfoPath : Str) (pubkeyB64 pqcPubkeyPath : Option Str) :
    (cmdVerify primitives files narinfoPath pubkeyB64 pqcPubkeyPath true =
        .ok () →
      ∃ text info fingerprint pk,
        Loaded files narinfoPath pqcPubkeyPath text info fingerprint pk ∧
          RequiredLines primitives pubkeyB64 text fingerprint pk) ∧
      ∀ text info fingerprint pk,
        Loaded files narinfoPath pqcPubkeyPath text info fingerprint pk →
          RequiredLines primitives pubkeyB64 text fingerprint pk →
          (Candidates.distinct (edValues info pk.name)).length ≤
            maxSigCandidates →
          (Candidates.distinct (pqcValues info pk.name)).length ≤
            maxSigCandidates →
          cmdVerify primitives files narinfoPath pubkeyB64 pqcPubkeyPath
            true = .ok () := by
  refine ⟨requiredLines_of_cmdVerify primitives, ?_⟩
  intro text info fingerprint pk given lines edBound pqcBound
  exact cmdVerify_of_requiredLines primitives given lines edBound pqcBound

/-! ## An optional hybrid check -/

/-- A narinfo that was parsed is read with the fingerprint it has. -/
theorem exists_reads_iff {files : FileSystem} {narinfoPath text : Str}
    {info : NarInfo} (read : files.readToString narinfoPath = some text)
    (parsed : NarInfo.parse text = .ok info) {Holds : NarInfo → Str → Prop} :
    (∃ other fingerprint, Reads files narinfoPath other fingerprint ∧
        Holds other fingerprint) ↔
      ∃ fingerprint, info.fingerprint = .ok fingerprint ∧
        Holds info fingerprint := by
  simp only [reads_iff read parsed]
  constructor
  · rintro ⟨other, fingerprint, ⟨rfl, computed⟩, holds⟩
    exact ⟨fingerprint, computed, holds⟩
  · rintro ⟨fingerprint, computed, holds⟩
    exact ⟨info, fingerprint, ⟨rfl, computed⟩, holds⟩

/-- The verdict without `--require-pqc`, with both keys given. -/
theorem cmdVerify_optional_iff {files : FileSystem} {narinfoPath text : Str}
    {info : NarInfo} (read : files.readToString narinfoPath = some text)
    (parsed : NarInfo.parse text = .ok info) {pqcPubkeyPath : Str}
    {pk : PublicKey}
    (loaded : PublicKey.load files pqcPubkeyPath = .ok pk) (arg : Str) :
    cmdVerify primitives files narinfoPath (some arg) (some pqcPubkeyPath)
        false = .ok () ↔
      ∃ fingerprint, info.fingerprint = .ok fingerprint ∧
        ClassicalEvidence primitives info fingerprint arg ∧
          (info.sigPqc = [] ∨
            HybridEvidence primitives info fingerprint pk) := by
  rw [cmdVerify_eq_ok_iff, exists_reads_iff read parsed]
  simp [PqcPasses, loaded, or_comm]

/-- The verdict without `--require-pqc` and without a hybrid key. -/
theorem cmdVerify_classical_iff {files : FileSystem} {narinfoPath text : Str}
    {info : NarInfo} (read : files.readToString narinfoPath = some text)
    (parsed : NarInfo.parse text = .ok info) (arg : Str) :
    cmdVerify primitives files narinfoPath (some arg) none false = .ok () ↔
      ∃ fingerprint, info.fingerprint = .ok fingerprint ∧
        ClassicalEvidence primitives info fingerprint arg := by
  rw [cmdVerify_eq_ok_iff, exists_reads_iff read parsed]
  simp [PqcPasses]

/--
Two texts that parse equally up to their `Sig-PQC` entries pass the same
classical check.  With a hybrid key the verdict further asks that there is no
`Sig-PQC` line at all or that the hybrid check accepts; so stripping these
lines never turns acceptance into rejection.
-/
theorem cmdVerify_optional_pair {files : FileSystem}
    {narinfoPath otherPath text otherText : Str} {info : NarInfo}
    {sigPqc : List Str}
    (read : files.readToString narinfoPath = some text)
    (otherRead : files.readToString otherPath = some otherText)
    (parsed : NarInfo.parse text = .ok info)
    (otherParsed : NarInfo.parse otherText = .ok { info with sigPqc })
    (arg : Str) {pqcPubkeyPath : Str} {pk : PublicKey}
    (loaded : PublicKey.load files pqcPubkeyPath = .ok pk) :
    (cmdVerify primitives files narinfoPath (some arg) (some pqcPubkeyPath)
        false = .ok () ↔
      ∃ fingerprint, info.fingerprint = .ok fingerprint ∧
        ClassicalEvidence primitives info fingerprint arg ∧
          (info.sigPqc = [] ∨
            HybridEvidence primitives info fingerprint pk)) ∧
      (cmdVerify primitives files otherPath (some arg) (some pqcPubkeyPath)
          false = .ok () ↔
        ∃ fingerprint, info.fingerprint = .ok fingerprint ∧
          ClassicalEvidence primitives info fingerprint arg ∧
            (sigPqc = [] ∨
              HybridEvidence primitives { info with sigPqc } fingerprint
                pk)) ∧
      (sigPqc = [] →
        cmdVerify primitives files narinfoPath (some arg)
            (some pqcPubkeyPath) false = .ok () →
          cmdVerify primitives files otherPath (some arg)
            (some pqcPubkeyPath) false = .ok ()) ∧
      (cmdVerify primitives files narinfoPath (some arg) none false =
          .ok () ↔
        cmdVerify primitives files otherPath (some arg) none false =
          .ok ()) := by
  have verdict := cmdVerify_optional_iff primitives read parsed loaded arg
  have otherVerdict :=
    cmdVerify_optional_iff primitives otherRead otherParsed loaded arg
  refine ⟨verdict, otherVerdict, ?_, ?_⟩
  · intro stripped accepted
    rcases verdict.mp accepted with ⟨fingerprint, computed, classical, -⟩
    exact otherVerdict.mpr ⟨fingerprint, computed, classical, .inl stripped⟩
  · exact (cmdVerify_classical_iff primitives read parsed arg).trans
      (cmdVerify_classical_iff primitives otherRead otherParsed arg).symm

theorem cmdVerify_optional_sample :
    cmdVerify Primitives.transparent sampleOptionalFiles "m".toList
      (some samplePubkeyArg) (some "k".toList) false = .ok () := by
  have pair := cmdVerify_optional_pair Primitives.transparent
    sampleOptionalFiles_read.1 sampleOptionalFiles_read.2
    (sampleClassical_parse clean_other) (sampleClassical_parse (by simp))
    samplePubkeyArg (sampleFiles_load _ _)
  exact pair.2.1.mpr ⟨sampleFingerprint, sampleInfo_fingerprint,
    sampleClassical_evidence _, .inl rfl⟩

/-- A line of another key turns acceptance into rejection. -/
theorem cmdVerify_rejects_foreign_line :
    NarInfo.parse (sampleClassical ["other:".toList]).toText =
        .ok { sampleClassical [] with sigPqc := ["other:".toList] } ∧
      NarInfo.parse (sampleClassical []).toText = .ok (sampleClassical []) ∧
      sampleOptionalFiles.readToString "n".toList =
        some (sampleClassical ["other:".toList]).toText ∧
      sampleOptionalFiles.readToString "m".toList =
        some (sampleClassical []).toText ∧
      cmdVerify Primitives.transparent sampleOptionalFiles "m".toList
        (some samplePubkeyArg) (some "k".toList) false = .ok () ∧
      ¬ cmdVerify Primitives.transparent sampleOptionalFiles "n".toList
        (some samplePubkeyArg) (some "k".toList) false = .ok () := by
  refine ⟨sampleClassical_parse clean_other, sampleClassical_parse (by simp),
    sampleOptionalFiles_read.1, sampleOptionalFiles_read.2, ?_, ?_⟩
  · exact (cmdVerify_optional_iff Primitives.transparent
      sampleOptionalFiles_read.2 (sampleClassical_parse (by simp))
      (sampleFiles_load _ _) _).mpr ⟨sampleFingerprint,
        sampleInfo_fingerprint, sampleClassical_evidence _, .inl rfl⟩
  · rw [cmdVerify_optional_iff Primitives.transparent
      sampleOptionalFiles_read.1 (sampleClassical_parse clean_other)
      (sampleFiles_load _ _)]
    rintro ⟨fingerprint, -, -, missing | accepted⟩
    · cases missing
    · rcases exists_good_of_verifyHybrid _ accepted with
        ⟨-, mlDsaSig, member, -⟩
      rw [pqcValues_eq_filterMap,
        show (sampleClassical ["other:".toList]).sigPqc.filterMap
          (pqcCandidate samplePublic.name) = [] by decide] at member
      cases member

end NixPqcCache.VerifyPolicy
