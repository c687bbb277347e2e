import NixPqcCache.CappedReader
import NixPqcCache.Fingerprint
import NixPqcCache.SignRuns

/-!
# What the proxy answers

A request is answered with 200 exactly when the upstream's narinfo was fetched,
parses, and carries a `Sig` entry that verifies under the configured key.  The
answer is then the same narinfo with the proxy's pair appended.

The proxy appends without removing entries of its own name, so a client that
looks for that name reads the upstream's entries first.  The pair is verified
unless they fill all the places of the `Sig` half.  They cannot fill those of
the `Sig-PQC` half, since a body is capped and these entries are long.
-/

namespace NixPqcCache.ProxyAnswers

open NixPqcCache.Commands
open NixPqcCache.Data
open NixPqcCache.Fingerprint
open NixPqcCache.Foundation
open NixPqcCache.Hybrid
open NixPqcCache.HybridCandidates
open NixPqcCache.KeyFiles
open NixPqcCache.Keys
open NixPqcCache.Narinfo
open NixPqcCache.NarinfoLines
open NixPqcCache.NarinfoRoundTrip
open NixPqcCache.Proxy
open NixPqcCache.SignatureEntries

variable {Rand : Type} (primitives : Primitives Rand)

/-! ## Fetching -/

/-- A request for a hash fetches a text from the upstream. -/
def Fetches (state : ProxyState) (upstream : Upstream)
    (filename hash text : Str) : Prop :=
  ∃ resp bytes,
    filename.dropSuffix? ".narinfo".toList = some hash ∧
      upstream (state.upstream ++ ['/'] ++ hash ++ ".narinfo".toList) =
        .ok resp ∧
      isSuccess resp.status = true ∧
      readCapped maxNarinfoBytes resp.body = .ok bytes ∧
      fromUtf8 bytes = some text

/-- A request fetches a text from the upstream. -/
def Receives (state : ProxyState) (upstream : Upstream)
    (filename text : Str) : Prop :=
  ∃ hash, Fetches state upstream filename hash text

/-- A text that was fetched is at most as long as the cap. -/
theorem Receives.length_le {state : ProxyState} {upstream : Upstream}
    {filename text : Str}
    (receives : Receives state upstream filename text) :
    text.length ≤ maxNarinfoBytes := by
  rcases receives with ⟨hash, resp, bytes, -, -, -, read, decoded⟩
  have bound : bytes.length ≤ maxNarinfoBytes := by
    rcases CappedReader.readCapped_eq_ok_iff.mp read with ⟨-, fits, rfl⟩
    rwa [List.length_flatten]
  rw [← asBytes_of_fromUtf8 decoded] at bound
  exact Nat.le_trans (length_le_byteLength text) bound

/-! ## Answering -/

/-- Some entry verifies under the configured upstream key. -/
def UpstreamEvidence (state : ProxyState) (info : NarInfo)
    (fingerprint : Str) : Prop :=
  ∃ entry ∈ info.sigs,
    verifyEd25519Sig primitives fingerprint entry state.upstreamKeyName
      state.upstreamPubkey = .ok ()

theorem upstreamVerified_eq_true_iff {state : ProxyState} {info : NarInfo}
    {fingerprint : Str} :
    upstreamVerified primitives state info fingerprint = true ↔
      UpstreamEvidence primitives state info fingerprint := by
  simp only [upstreamVerified, List.any_eq_true, Runs.isOk_eq_true_iff,
    UpstreamEvidence]

theorem serveText_eq_ok_iff {state : ProxyState} {rand : Rand}
    {hash text served : Str} :
    serveText primitives state rand hash text = .ok served ↔
      ∃ info fingerprint, NarInfo.parse text = .ok info ∧
        info.fingerprint = .ok fingerprint ∧
          UpstreamEvidence primitives state info fingerprint ∧
            served =
              (reSign primitives state.secret rand info
                fingerprint).toText := by
  simp only [serveText, Runs.bind_eq_ok_iff, Runs.ite_ok_eq_ok_iff,
    upstreamVerified_eq_true_iff]
  constructor
  · rintro ⟨info, parsed, fingerprint, computed, verified, equal⟩
    exact ⟨info, fingerprint, parsed, computed, verified, equal.symm⟩
  · rintro ⟨info, fingerprint, parsed, computed, verified, equal⟩
    exact ⟨info, parsed, fingerprint, computed, verified, equal.symm⟩

/-- The proxy answers a request with 200 and a text. -/
def Answers (state : ProxyState) (upstream : Upstream) (rand : Rand)
    (filename served : Str) : Prop :=
  ∃ response,
    handleNarinfo primitives state upstream rand filename = .ok response ∧
      response.status = 200 ∧ response.body = asBytes served

/-- A response with 200 is a text that was served. -/
theorem handleNarinfo_answers_iff {state : ProxyState} {upstream : Upstream}
    {rand : Rand} {filename : Str} {response : Response} :
    (handleNarinfo primitives state upstream rand filename = .ok response ∧
        response.status = 200) ↔
      ∃ hash text served, Fetches state upstream filename hash text ∧
        serveText primitives state rand hash text = .ok served ∧
          response =
            ⟨200, some "text/x-nix-narinfo".toList, asBytes served⟩ := by
  constructor
  · rintro ⟨handled, status⟩
    rw [handleNarinfo] at handled
    split at handled
    next =>
      cases handled
      cases status
    next hash suffix =>
      rcases Runs.bind_eq_ok_iff.mp handled with ⟨resp, fetched, handled⟩
      split at handled
      next success =>
        simp only [Runs.bind_eq_ok_iff, okOr_eq_ok_iff] at handled
        rcases handled with
          ⟨bytes, read, text, decoded, served, serves, equal⟩
        exact ⟨hash, text, served,
          ⟨resp, bytes, suffix, fetched, success, read, decoded⟩, serves,
          (Except.ok.inj equal).symm⟩
      next =>
        cases handled
        cases status
  · rintro ⟨hash, text, served,
      ⟨resp, bytes, suffix, fetched, success, read, decoded⟩, serves, rfl⟩
    refine ⟨?_, rfl⟩
    rw [handleNarinfo, suffix]
    refine Runs.bind_eq_ok_iff.mpr ⟨resp, fetched, ?_⟩
    rw [if_pos success]
    simp only [Runs.bind_eq_ok_iff, okOr_eq_ok_iff]
    exact ⟨bytes, read, text, decoded, served, serves, rfl⟩

/-- Every response with 200 answers with a text. -/
theorem exists_answers {state : ProxyState} {upstream : Upstream}
    {rand : Rand} {filename : Str} {response : Response}
    (handled :
      handleNarinfo primitives state upstream rand filename = .ok response)
    (status : response.status = 200) :
    ∃ served, response.body = asBytes served ∧
      Answers primitives state upstream rand filename served := by
  rcases (handleNarinfo_answers_iff primitives).mp ⟨handled, status⟩ with
    ⟨hash, text, served, -, -, rfl⟩
  exact ⟨served, rfl, _, handled, rfl, rfl⟩

theorem answers_iff_serves {state : ProxyState} {upstream : Upstream}
    {rand : Rand} {filename served : Str} :
    Answers primitives state upstream rand filename served ↔
      ∃ hash text, Fetches state upstream filename hash text ∧
        serveText primitives state rand hash text = .ok served := by
  constructor
  · rintro ⟨response, handled, status, body⟩
    rcases (handleNarinfo_answers_iff primitives).mp ⟨handled, status⟩ with
      ⟨hash, text, other, fetches, serves, rfl⟩
    rw [← asBytes_injective body]
    exact ⟨hash, text, fetches, serves⟩
  · rintro ⟨hash, text, fetches, serves⟩
    rcases (handleNarinfo_answers_iff primitives).mpr
      ⟨hash, text, served, fetches, serves, rfl⟩ with ⟨handled, status⟩
    exact ⟨_, handled, status, rfl⟩

/-- When the proxy answers with 200, and with what. -/
theorem answers_iff {state : ProxyState} {upstream : Upstream} {rand : Rand}
    {filename served : Str} :
    Answers primitives state upstream rand filename served ↔
      ∃ text info fingerprint, Receives state upstream filename text ∧
        NarInfo.parse text = .ok info ∧
          info.fingerprint = .ok fingerprint ∧
            UpstreamEvidence primitives state info fingerprint ∧
              served =
                (reSign primitives state.secret rand info
                  fingerprint).toText := by
  simp only [answers_iff_serves, serveText_eq_ok_iff, Receives]
  constructor
  · rintro ⟨hash, text, fetches, info, fingerprint, serves⟩
    exact ⟨text, info, fingerprint, ⟨hash, fetches⟩, serves⟩
  · rintro ⟨text, info, fingerprint, ⟨hash, fetches⟩, serves⟩
    exact ⟨hash, text, fetches, info, fingerprint, serves⟩

theorem Receives.unique {state : ProxyState} {upstream : Upstream}
    {filename text other : Str}
    (receives : Receives state upstream filename text)
    (otherReceives : Receives state upstream filename other) :
    other = text := by
  rcases receives with ⟨hash, resp, bytes, suffix, fetched, -, read, decoded⟩
  rcases otherReceives with
    ⟨otherHash, otherResp, otherBytes, otherSuffix, otherFetched, -,
      otherRead, otherDecoded⟩
  rcases Option.some.inj (suffix.symm.trans otherSuffix) with rfl
  rcases Except.ok.inj (fetched.symm.trans otherFetched) with rfl
  rcases Except.ok.inj (read.symm.trans otherRead) with rfl
  exact (Option.some.inj (decoded.symm.trans otherDecoded)).symm

/-! ## The appended pair -/

/-- Appending the proxy's pair keeps a record representable. -/
theorem representable_reSign {secret : SecretKey} {rand : Rand}
    {info : NarInfo} {fingerprint : Str}
    (nameValid : validateKeyName secret.name = .ok ())
    (representable : Representable info) :
    Representable (reSign primitives secret rand info fingerprint) := by
  have clean (bytes : Bytes) : Clean (entryOf secret.name bytes) :=
    clean_entryOf (newline_not_mem nameValid) (return_not_mem nameValid) bytes
  apply representable.withSignatures
  · rw [sigEntry_eq_entryOf, List.forall_mem_append]
    exact ⟨fun _ member => representable.clean_signature (Or.inl member),
      by simpa using clean _⟩
  · rw [encodeSigPqc_eq_entryOf, List.forall_mem_append]
    exact ⟨fun _ member => representable.clean_signature (Or.inr member),
      by simpa using clean _⟩

theorem fingerprint_reSign (secret : SecretKey) (rand : Rand)
    (info : NarInfo) (fingerprint : Str) :
    (reSign primitives secret rand info fingerprint).fingerprint =
      info.fingerprint :=
  fingerprint_withSignatures info _ _

/-- An answer parses as the upstream's record with the pair appended. -/
theorem parse_reSign {secret : SecretKey} {rand : Rand} {text : Str}
    {info : NarInfo} {fingerprint : Str}
    (nameValid : validateKeyName secret.name = .ok ())
    (parsed : NarInfo.parse text = .ok info) :
    NarInfo.parse
        (reSign primitives secret rand info fingerprint).toText =
      .ok (reSign primitives secret rand info fingerprint) :=
  parse_toText (representable_reSign primitives nameValid
    (representable_of_parse parsed))

/-! ## An upstream that uses the proxy's name -/

/-- The sample key as the key of an upstream cache. -/
def sampleUpstreamKey : Str :=
  entryOf "cache".toList
    (sampleSecret.publicKey Primitives.transparent).keys.ed25519.toList

/-- A proxy that signs with the sample key. -/
def sampleState : ProxyState :=
  ProxyState.serve "u".toList sampleUpstreamKey sampleSecret

theorem sampleState_nameValid :
    validateKeyName sampleState.secret.name = .ok () := by
  decide

/-- Unsigned entries of the proxy's name before the upstream's own entry. -/
def crowded (count : Nat) : NarInfo :=
  { sampleInfo with
    sigs := crowd sampleSecret.name count ++
      [entryOf "cache".toList sampleSignature.ed25519.toList] }

/-- An upstream that answers every request with a narinfo. -/
def sampleUpstream (info : NarInfo) : Upstream := fun _ =>
  .ok ⟨200, .chunk (asBytes info.toText) .done⟩

/-- What the proxy serves for it. -/
def sampleServed (count : Nat) : NarInfo :=
  reSign Primitives.transparent sampleSecret () (crowded count)
    sampleFingerprint

theorem crowded_parse (count : Nat) :
    NarInfo.parse (crowded count).toText = .ok (crowded count) := by
  apply VerifyPolicy.sampleInfo_parse
  · rw [List.forall_mem_append, crowd, List.forall_mem_map]
    constructor
    · intro index member
      exact clean_entryOf (by decide) (by decide) _
    · simpa using clean_entryOf (by decide) (by decide) _
  · simp [sampleInfo]

theorem crowded_fingerprint (count : Nat) :
    (crowded count).fingerprint = .ok sampleFingerprint :=
  (fingerprint_withSignatures sampleInfo _ _).trans
    VerifyPolicy.sampleInfo_fingerprint

/-- The upstream's own entry verifies. -/
theorem crowded_evidence (count : Nat) :
    UpstreamEvidence Primitives.transparent sampleState (crowded count)
      sampleFingerprint := by
  have clean : ':' ∉ "cache".toList := by decide
  have key := parseNamedPubkey_entryOf clean
    (sampleSecret.publicKey Primitives.transparent).keys.ed25519.toList
  refine ⟨_, List.mem_append_right _ (List.mem_singleton.mpr rfl), ?_⟩
  simp only [sampleState, ProxyState.serve, sampleUpstreamKey, key]
  refine verifyEd25519Sig_eq_ok_iff.mpr ⟨_, _, rfl, clean, by simp, _,
    Base64.decode_encode _, ?_⟩
  exact Primitives.transparent_correct.verifyEd25519Only_sign
    sampleSecret.signer () _

theorem crowded_receives {count : Nat}
    (fits : (asBytes (crowded count).toText).length ≤ maxNarinfoBytes) :
    Receives sampleState (sampleUpstream (crowded count))
      "x.narinfo".toList (crowded count).toText := by
  refine ⟨"x".toList, _, asBytes (crowded count).toText, by decide, rfl, rfl,
    ?_, fromUtf8_asBytes _⟩
  simp [readCapped, readLoop, Nat.not_lt.mpr fits]

theorem crowded_answers {count : Nat}
    (fits : (asBytes (crowded count).toText).length ≤ maxNarinfoBytes) :
    Answers Primitives.transparent sampleState
      (sampleUpstream (crowded count)) () "x.narinfo".toList
        (sampleServed count).toText :=
  (answers_iff _).mpr ⟨_, crowded count, sampleFingerprint,
    crowded_receives fits, crowded_parse count, crowded_fingerprint count,
    crowded_evidence count, rfl⟩

/-! ## Whether the pair is found -/

theorem length_encodeSigPqc_le {name : Str} {mlDsaSig : Bytes}
    (length : mlDsaSig.length = mlDsa65SignatureLen) :
    4417 ≤ (encodeSigPqc name mlDsaSig).length := by
  rw [encodeSigPqc_eq_entryOf, entryOf, List.length_append,
    List.length_cons, Base64.length_encode, List.length_cons, length]
  have material : (mlDsa65SignatureLen + 1 + 2) / 3 * 4 = 4416 := rfl
  omega

/-- The ML-DSA half of a fetched narinfo has free places. -/
theorem Receives.pqcRoom {state : ProxyState} {upstream : Upstream}
    {filename text : Str} {info : NarInfo}
    (receives : Receives state upstream filename text)
    (parsed : NarInfo.parse text = .ok info) (keyname : Str) :
    (Candidates.distinct (pqcValues info keyname)).length <
      maxSigCandidates := by
  have long : ∀ entry mlDsaSig,
      pqcCandidate keyname entry = some mlDsaSig →
        4417 ≤ entry.length := by
    intro entry mlDsaSig found
    rcases pqcCandidate_eq_some_iff.mp found with ⟨rfl, -, length⟩
    exact length_encodeSigPqc_le length
  have fits := @mul_length_filterMap_valuesOf_le _ .sigPqc text _ _ long
  rw [← sigPqc_eq_valuesOf parsed, ← pqcValues_eq_filterMap] at fits
  have bound := Nat.le_trans fits receives.length_le
  have distinct := Candidates.length_distinct_le (pqcValues info keyname)
  have places : maxSigCandidates = 32 := rfl
  have limit : maxNarinfoBytes = 65536 := rfl
  omega

variable {primitives}

theorem edAccepts_reSign_iff (correct : primitives.Correct)
    {secret : SecretKey} {rand : Rand} {info : NarInfo} {fingerprint : Str}
    (clean : ':' ∉ secret.name) :
    edAccepts primitives (reSign primitives secret rand info fingerprint).sigs
        fingerprint secret.name (secret.publicKey primitives).keys = true ↔
      (Candidates.distinct (edValues info secret.name)).length <
          maxSigCandidates ∨
        edAccepts primitives info.sigs fingerprint secret.name
          (secret.publicKey primitives).keys = true := by
  rw [edAccepts, edAccepts, reSign, List.filterMap_append,
    List.filterMap_cons_some (edCandidate_sigEntry clean _),
    ← edValues_eq_filterMap]
  exact Candidates.accepts_append_singleton_iff (edGood_sign correct _ _ _)

theorem pqcAccepts_reSign (correct : primitives.Correct)
    {secret : SecretKey} {rand : Rand} {info : NarInfo} {fingerprint : Str}
    (clean : ':' ∉ secret.name)
    (room : (Candidates.distinct (pqcValues info secret.name)).length <
      maxSigCandidates) :
    pqcAccepts primitives
      (reSign primitives secret rand info fingerprint).sigPqc fingerprint
        secret.name (secret.publicKey primitives).keys = true := by
  have length : (secret.signer.sign primitives rand
      (asBytes fingerprint)).mlDsa.length = mlDsa65SignatureLen :=
    length_mlDsa_sign primitives _ _ _
  rw [pqcAccepts, reSign, List.filterMap_append,
    List.filterMap_cons_some (pqcCandidate_encodeSigPqc clean length),
    ← pqcValues_eq_filterMap]
  exact (Candidates.accepts_append_singleton_iff
    (pqcGood_sign correct _ _ _)).mpr (.inl room)

/--
An answer verifies under the proxy's own key exactly when the upstream's
entries of that name leave a place in the `Sig` half, or when one of those
that are read first verifies already.
-/
theorem answer_verifiable_iff (correct : primitives.Correct)
    {state : ProxyState} {upstream : Upstream} {rand : Rand}
    {filename served text fingerprint : Str} {info : NarInfo}
    (nameValid : validateKeyName state.secret.name = .ok ())
    (answers : Answers primitives state upstream rand filename served)
    (receives : Receives state upstream filename text)
    (parsed : NarInfo.parse text = .ok info)
    (computed : info.fingerprint = .ok fingerprint) :
    (∃ servedInfo servedFingerprint,
        NarInfo.parse served = .ok servedInfo ∧
          servedInfo.fingerprint = .ok servedFingerprint ∧
            verifyHybrid primitives servedInfo servedFingerprint
              state.secret.name
                (state.secret.publicKey primitives).keys = .ok ()) ↔
      (Candidates.distinct (edValues info state.secret.name)).length <
          maxSigCandidates ∨
        ∃ sig ∈ Candidates.admitted maxSigCandidates
            (edValues info state.secret.name),
          verifyEd25519Only primitives
            (state.secret.publicKey primitives).keys.ed25519
              (asBytes fingerprint) sig = .ok () := by
  have clean := colon_not_mem nameValid
  rcases (answers_iff primitives).mp answers with
    ⟨otherText, otherInfo, otherFingerprint, otherReceives, otherParsed,
      otherComputed, -, servedEq⟩
  rcases receives.unique otherReceives with rfl
  rcases Except.ok.inj (parsed.symm.trans otherParsed) with rfl
  rcases Except.ok.inj (computed.symm.trans otherComputed) with rfl
  have servedParsed : NarInfo.parse served =
      .ok (reSign primitives state.secret rand info fingerprint) := by
    rw [servedEq]
    exact parse_reSign primitives nameValid parsed
  have early :
      (∃ sig ∈ Candidates.admitted maxSigCandidates
          (edValues info state.secret.name),
        verifyEd25519Only primitives
          (state.secret.publicKey primitives).keys.ed25519
            (asBytes fingerprint) sig = .ok ()) ↔
        edAccepts primitives info.sigs fingerprint state.secret.name
          (state.secret.publicKey primitives).keys = true := by
    rw [edAccepts, ← edValues_eq_filterMap, Candidates.accepts_eq_true_iff]
    simp only [edGood, Runs.isOk_eq_true_iff]
  rw [early, ← edAccepts_reSign_iff correct clean]
  constructor
  · rintro ⟨servedInfo, servedFingerprint, reparsed, recomputed, accepted⟩
    rcases Except.ok.inj (servedParsed.symm.trans reparsed) with rfl
    rw [fingerprint_reSign, computed] at recomputed
    rcases Except.ok.inj recomputed with rfl
    exact ((verifyHybrid_eq_ok_iff _).mp accepted).1
  · intro accepted
    refine ⟨_, fingerprint, servedParsed,
      (fingerprint_reSign _ _ _ _ _).trans computed, ?_⟩
    exact (verifyHybrid_eq_ok_iff _).mpr ⟨accepted,
      pqcAccepts_reSign correct clean (receives.pqcRoom parsed _)⟩

theorem answer_verifiable_sample :
    ∃ servedInfo servedFingerprint,
      NarInfo.parse (sampleServed 0).toText = .ok servedInfo ∧
        servedInfo.fingerprint = .ok servedFingerprint ∧
          verifyHybrid Primitives.transparent servedInfo servedFingerprint
            sampleState.secret.name
              (sampleState.secret.publicKey
                Primitives.transparent).keys = .ok () := by
  have fits : (asBytes (crowded 0).toText).length ≤ maxNarinfoBytes := by
    decide +kernel
  have none : edValues (crowded 0) sampleState.secret.name = [] := by
    decide +kernel
  refine (answer_verifiable_iff Primitives.transparent_correct (by decide)
    (crowded_answers fits) (crowded_receives fits) (crowded_parse 0)
    (crowded_fingerprint 0)).mpr (.inl ?_)
  rw [none]
  decide

/-- With 32 such entries the proxy's answer does not verify. -/
theorem answer_not_verifiable :
    Answers Primitives.transparent sampleState (sampleUpstream (crowded 32))
        () "x.narinfo".toList (sampleServed 32).toText ∧
      NarInfo.parse (sampleServed 32).toText = .ok (sampleServed 32) ∧
        (sampleServed 32).fingerprint = .ok sampleFingerprint ∧
          ¬ verifyHybrid Primitives.transparent (sampleServed 32)
            sampleFingerprint sampleState.secret.name
              (sampleState.secret.publicKey
                Primitives.transparent).keys = .ok () := by
  have fits : (asBytes (crowded 32).toText).length ≤ maxNarinfoBytes := by
    decide +kernel
  refine ⟨crowded_answers fits,
    parse_reSign _ (by decide) (crowded_parse 32),
    (fingerprint_reSign _ _ _ _ _).trans (crowded_fingerprint 32), ?_⟩
  rw [verifyHybrid_eq_ok_iff]
  rintro ⟨accepted, -⟩
  rw [sampleServed, reSign, crowded, List.append_assoc] at accepted
  rw [show sampleState.secret.name = sampleSecret.name from rfl,
    not_edAccepts_crowd (by decide) rfl] at accepted
  cases accepted

end NixPqcCache.ProxyAnswers
