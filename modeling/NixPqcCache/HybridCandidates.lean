import NixPqcCache.Foundation.Candidates
import NixPqcCache.SignatureEntries

/-!
# The candidates of a hybrid verification

`verify_hybrid` reads each half of a narinfo as a list of candidate values and
accepts when both halves accept.  Here each half is one decoder of entries
followed by the bounded acceptance of `Foundation.Candidates`, so the effect of
order, of repetition and of the cap is the general one.
-/

namespace NixPqcCache.HybridCandidates

open NixPqcCache.Commands
open NixPqcCache.Data
open NixPqcCache.Foundation
open NixPqcCache.Hybrid
open NixPqcCache.Keys
open NixPqcCache.Narinfo
open NixPqcCache.SignatureEntries

/-! ## One decoder for each half -/

/-- The candidate a `Sig:` entry holds for a key name. -/
def edCandidate (keyname entry : Str) : Option (ByteArr ed25519SignatureLen) :=
  if (keyname ++ [':']).isPrefixOf entry then
    (parseSigEntry entry).toOption.bind fun parsed =>
      tryIntoArray ed25519SignatureLen parsed.2
  else
    none

/-- The candidate a `Sig-PQC:` entry holds for a key name. -/
def pqcCandidate (keyname entry : Str) : Option Bytes :=
  if (keyname ++ [':']).isPrefixOf entry then
    (decodeSigPqc entry).toOption.map fun decoded => decoded.2.2
  else
    none

theorem edValues_eq_filterMap (info : NarInfo) (keyname : Str) :
    edValues info keyname = info.sigs.filterMap (edCandidate keyname) := by
  rw [edValues, List.filterMap_filterMap, List.filterMap_filter]
  rfl

theorem pqcValues_eq_filterMap (info : NarInfo) (keyname : Str) :
    pqcValues info keyname = info.sigPqc.filterMap (pqcCandidate keyname) := by
  rw [pqcValues, List.map_filterMap, List.filterMap_filter]
  rfl

/-- The classical candidates of a name are the bytes of its entries. -/
theorem edCandidate_eq_some_iff {keyname entry : Str}
    {sig : ByteArr ed25519SignatureLen} :
    edCandidate keyname entry = some sig ↔
      entry = entryOf keyname sig.toList ∧ ':' ∉ keyname := by
  rw [edCandidate]
  constructor
  · intro found
    split at found
    next named =>
      rcases Option.bind_eq_some_iff.mp found with
        ⟨⟨name, bytes⟩, parsed, exact⟩
      rcases parseSigEntry_eq_ok_iff.mp (Runs.toOption_eq_some_iff.mp parsed)
        with ⟨rfl, clean⟩
      rcases (isPrefixOf_entryOf_iff clean bytes).mp named with rfl
      rw [tryIntoArray_eq_some_iff.mp exact]
      exact ⟨rfl, clean⟩
    next => cases found
  · rintro ⟨rfl, clean⟩
    rw [if_pos ((isPrefixOf_entryOf_iff clean _).mpr rfl),
      parseSigEntry_entryOf clean]
    simp [Except.toOption]

/-- The ML-DSA candidates of a name are the signatures of its entries. -/
theorem pqcCandidate_eq_some_iff {keyname entry : Str} {mlDsaSig : Bytes} :
    pqcCandidate keyname entry = some mlDsaSig ↔
      entry = encodeSigPqc keyname mlDsaSig ∧ ':' ∉ keyname ∧
        mlDsaSig.length = mlDsa65SignatureLen := by
  rw [pqcCandidate]
  constructor
  · intro found
    split at found
    next named =>
      rcases Option.map_eq_some_iff.mp found with
        ⟨⟨name, algorithm, bytes⟩, decoded, rfl⟩
      rcases decodeSigPqc_eq_ok_iff.mp
        (Runs.toOption_eq_some_iff.mp decoded) with ⟨rfl, clean, length⟩
      rw [encodeSigPqc_eq_entryOf] at named
      rcases (isPrefixOf_entryOf_iff clean _).mp named with rfl
      exact ⟨rfl, clean, length⟩
    next => cases found
  · rintro ⟨rfl, clean, length⟩
    rw [decodeSigPqc_encodeSigPqc clean length, encodeSigPqc_eq_entryOf,
      if_pos ((isPrefixOf_entryOf_iff clean _).mpr rfl)]
    rfl

variable {Rand : Type} (primitives : Primitives Rand)

/-- A candidate that verifies under the classical half. -/
def edGood (keys : HybridVerifyingKeys) (message : Bytes)
    (sig : ByteArr ed25519SignatureLen) : Bool :=
  (verifyEd25519Only primitives keys.ed25519 message sig).isOk

/-- A candidate that verifies under the ML-DSA half. -/
def pqcGood (keys : HybridVerifyingKeys) (message sig : Bytes) : Bool :=
  (verifyMlDsaOnly primitives keys.mlDsa message sig).isOk

/-- The classical half of a narinfo accepts. -/
def edAccepts (sigs : List Str) (fingerprint keyname : Str)
    (keys : HybridVerifyingKeys) : Bool :=
  Candidates.accepts maxSigCandidates
    (edGood primitives keys (asBytes fingerprint))
    (sigs.filterMap (edCandidate keyname))

/-- The ML-DSA half of a narinfo accepts. -/
def pqcAccepts (sigPqc : List Str) (fingerprint keyname : Str)
    (keys : HybridVerifyingKeys) : Bool :=
  Candidates.accepts maxSigCandidates
    (pqcGood primitives keys (asBytes fingerprint))
    (sigPqc.filterMap (pqcCandidate keyname))

/-- Verification accepts exactly when both halves accept. -/
theorem verifyHybrid_eq_ok_iff {info : NarInfo} {fingerprint keyname : Str}
    {keys : HybridVerifyingKeys} :
    verifyHybrid primitives info fingerprint keyname keys = .ok () ↔
      edAccepts primitives info.sigs fingerprint keyname keys = true ∧
        pqcAccepts primitives info.sigPqc fingerprint keyname keys = true := by
  rw [edAccepts, pqcAccepts, ← edValues_eq_filterMap,
    ← pqcValues_eq_filterMap]
  simp only [verifyHybrid, Runs.ite_error_eq_ok_iff, Bool.not_eq_true',
    Bool.not_eq_false, and_true]
  constructor
  · rintro ⟨-, -, edHolds, pqcHolds⟩
    exact ⟨edHolds, pqcHolds⟩
  · rintro ⟨edHolds, pqcHolds⟩
    exact ⟨Candidates.admitted_ne_nil_of_accepts edHolds,
      Candidates.admitted_ne_nil_of_accepts pqcHolds, edHolds, pqcHolds⟩

theorem exists_edGood_iff {info : NarInfo} {keyname : Str}
    {keys : HybridVerifyingKeys} {message : Bytes} :
    (∃ sig ∈ edValues info keyname,
        edGood primitives keys message sig = true) ↔
      ∃ sig, entryOf keyname (List.Vector.toList sig) ∈ info.sigs ∧
        ':' ∉ keyname ∧
          verifyEd25519Only primitives keys.ed25519 message sig = .ok () := by
  simp only [edValues_eq_filterMap, List.mem_filterMap,
    edCandidate_eq_some_iff, edGood, Runs.isOk_eq_true_iff]
  constructor
  · rintro ⟨sig, ⟨entry, member, rfl, clean⟩, verified⟩
    exact ⟨sig, member, clean, verified⟩
  · rintro ⟨sig, member, clean, verified⟩
    exact ⟨sig, ⟨_, member, rfl, clean⟩, verified⟩

theorem exists_pqcGood_iff {info : NarInfo} {keyname : Str}
    {keys : HybridVerifyingKeys} {message : Bytes} :
    (∃ mlDsaSig ∈ pqcValues info keyname,
        pqcGood primitives keys message mlDsaSig = true) ↔
      ∃ mlDsaSig, encodeSigPqc keyname mlDsaSig ∈ info.sigPqc ∧
        ':' ∉ keyname ∧ mlDsaSig.length = mlDsa65SignatureLen ∧
          verifyMlDsaOnly primitives keys.mlDsa message mlDsaSig =
            .ok () := by
  simp only [pqcValues_eq_filterMap, List.mem_filterMap,
    pqcCandidate_eq_some_iff, pqcGood, Runs.isOk_eq_true_iff]
  constructor
  · rintro ⟨mlDsaSig, ⟨entry, member, rfl, clean, length⟩, verified⟩
    exact ⟨mlDsaSig, member, clean, length, verified⟩
  · rintro ⟨mlDsaSig, member, clean, length, verified⟩
    exact ⟨mlDsaSig, ⟨_, member, rfl, clean, length⟩, verified⟩

/-- Acceptance exhibits one verifying candidate in each half. -/
theorem exists_good_of_verifyHybrid {info : NarInfo}
    {fingerprint keyname : Str} {keys : HybridVerifyingKeys}
    (accepted :
      verifyHybrid primitives info fingerprint keyname keys = .ok ()) :
    (∃ sig ∈ edValues info keyname,
        edGood primitives keys (asBytes fingerprint) sig = true) ∧
      ∃ mlDsaSig ∈ pqcValues info keyname,
        pqcGood primitives keys (asBytes fingerprint) mlDsaSig = true := by
  rcases (verifyHybrid_eq_ok_iff _).mp accepted with ⟨edHolds, pqcHolds⟩
  rw [edValues_eq_filterMap, pqcValues_eq_filterMap]
  exact ⟨Candidates.exists_of_accepts edHolds,
    Candidates.exists_of_accepts pqcHolds⟩

/-- With at most 32 candidates a half, these are all that is needed. -/
theorem verifyHybrid_of_exists_good {info : NarInfo}
    {fingerprint keyname : Str} {keys : HybridVerifyingKeys}
    (edBound : (Candidates.distinct (edValues info keyname)).length ≤
      maxSigCandidates)
    (pqcBound : (Candidates.distinct (pqcValues info keyname)).length ≤
      maxSigCandidates)
    (edExists : ∃ sig ∈ edValues info keyname,
      edGood primitives keys (asBytes fingerprint) sig = true)
    (pqcExists : ∃ mlDsaSig ∈ pqcValues info keyname,
      pqcGood primitives keys (asBytes fingerprint) mlDsaSig = true) :
    verifyHybrid primitives info fingerprint keyname keys = .ok () := by
  rw [verifyHybrid_eq_ok_iff, edAccepts, pqcAccepts,
    ← edValues_eq_filterMap, ← pqcValues_eq_filterMap]
  exact ⟨(Candidates.accepts_iff_exists_of_length_le edBound).mpr edExists,
    (Candidates.accepts_iff_exists_of_length_le pqcBound).mpr pqcExists⟩

/-! ## Honest entries -/

theorem edCandidate_sigEntry {name : Str} (clean : ':' ∉ name)
    (sig : HybridSignature) :
    edCandidate name (sigEntry name sig) = some sig.ed25519 := by
  rw [sigEntry_eq_entryOf]
  exact edCandidate_eq_some_iff.mpr ⟨rfl, clean⟩

theorem pqcCandidate_encodeSigPqc {name : Str} {mlDsaSig : Bytes}
    (clean : ':' ∉ name) (length : mlDsaSig.length = mlDsa65SignatureLen) :
    pqcCandidate name (encodeSigPqc name mlDsaSig) = some mlDsaSig :=
  pqcCandidate_eq_some_iff.mpr ⟨rfl, clean, length⟩

theorem length_mlDsa_sign (signer : HybridSigner) (rand : Rand)
    (message : Bytes) :
    (signer.sign primitives rand message).mlDsa.length =
      mlDsa65SignatureLen := by
  simp [HybridSigner.sign]

variable {primitives}

theorem edGood_sign (correct : primitives.Correct) (signer : HybridSigner)
    (rand : Rand) (message : Bytes) :
    edGood primitives (signer.verifyingKeys primitives) message
      (signer.sign primitives rand message).ed25519 = true :=
  Runs.isOk_eq_true_iff.mpr
    (correct.verifyEd25519Only_sign signer rand message)

theorem pqcGood_sign (correct : primitives.Correct) (signer : HybridSigner)
    (rand : Rand) (message : Bytes) :
    pqcGood primitives (signer.verifyingKeys primitives) message
      (signer.sign primitives rand message).mlDsa = true :=
  Runs.isOk_eq_true_iff.mpr
    (correct.verifyMlDsaOnly_sign signer rand message)

/-! ## A list that fills every place -/

/-- The candidate that shows a number in place of a key. -/
def numbered (index : Nat) : ByteArr ed25519SignatureLen :=
  fit ed25519SignatureLen [UInt8.ofNat index]

/-- Well-formed entries of a name that no key has signed. -/
def crowd (keyname : Str) (count : Nat) : List Str :=
  (List.range count).map fun index => entryOf keyname (numbered index).toList

theorem filterMap_crowd {keyname : Str} (clean : ':' ∉ keyname)
    (count : Nat) :
    (crowd keyname count).filterMap (edCandidate keyname) =
      (List.range count).map numbered := by
  rw [crowd, List.filterMap_map, ← List.filterMap_eq_map]
  apply List.filterMap_congr
  intro index member
  exact edCandidate_eq_some_iff.mpr ⟨rfl, clean⟩

theorem numbered_injOn {count : Nat} (bound : count ≤ 256) {left right : Nat}
    (leftBound : left < count) (rightBound : right < count)
    (equal : numbered left = numbered right) : left = right := by
  have heads := congrArg (fun sig => sig.toList.head?) equal
  simp only [numbered, head?_fit (show 0 < ed25519SignatureLen by decide),
    Option.some.injEq] at heads
  have numbers := congrArg UInt8.toNat heads
  simp only [UInt8.toNat_ofNat'] at numbers
  omega

theorem distinct_crowd {count : Nat} (bound : count ≤ 256) :
    Candidates.distinct ((List.range count).map numbered) =
      (List.range count).map numbered := by
  apply Candidates.distinct_eq_self
  apply List.Nodup.map_on _ List.nodup_range
  intro left leftMember right rightMember equal
  exact numbered_injOn bound (List.mem_range.mp leftMember)
    (List.mem_range.mp rightMember) equal

/-- Under the transparent scheme a key can be told from a small number. -/
theorem not_edGood_numbered {keys : HybridVerifyingKeys} {message : Bytes}
    {index : Nat} (bound : index < 255)
    (head : keys.ed25519.toList.head? = some 255) :
    edGood Primitives.transparent keys message (numbered index) = false := by
  rw [Bool.eq_false_iff]
  intro good
  have verified := (verifyEd25519Only_eq_ok_iff _).mp
    (Runs.isOk_eq_true_iff.mp good)
  have equal : numbered index =
      fit ed25519SignatureLen (keys.ed25519.toList ++ message) := by
    simpa [Primitives.transparent] using verified
  have heads := congrArg (fun sig => sig.toList.head?) equal
  rcases keyEq : keys.ed25519.toList with _ | ⟨first, rest⟩
  · simp [keyEq] at head
  · rw [keyEq] at head
    rw [keyEq] at heads
    simp only [numbered, List.cons_append,
      head?_fit (show 0 < ed25519SignatureLen by decide),
      Option.some.injEq, List.head?_cons] at heads head
    have numbers := congrArg UInt8.toNat (heads.trans head)
    simp only [UInt8.toNat_ofNat'] at numbers
    have small : (255 : UInt8).toNat = 255 := rfl
    omega

/-- Behind 32 entries of that kind nothing is read. -/
theorem not_edAccepts_crowd {keyname fingerprint : Str}
    {keys : HybridVerifyingKeys} (clean : ':' ∉ keyname)
    (head : keys.ed25519.toList.head? = some 255) (rest : List Str) :
    edAccepts Primitives.transparent (crowd keyname 32 ++ rest) fingerprint
      keyname keys = false := by
  have full :
      maxSigCandidates ≤
        (Candidates.distinct ((List.range 32).map numbered)).length := by
    rw [distinct_crowd (by decide), List.length_map, List.length_range]
    exact Nat.le_refl 32
  rw [edAccepts, List.filterMap_append, filterMap_crowd clean,
    Candidates.accepts, Candidates.admitted_append_of_full full,
    List.any_eq_false]
  intro sig member
  rcases List.mem_map.mp (Candidates.mem_of_mem_admitted member) with
    ⟨index, inRange, rfl⟩
  have bound := List.mem_range.mp inRange
  rw [not_edGood_numbered (by omega) head]
  decide

/-- A key whose public half starts with the byte 255. -/
def sampleSecret : SecretKey where
  name := "proxy-1".toList
  signer := ⟨fit ed25519SecretKeyLen [255], fit mlDsa65SecretSeedLen [255]⟩

/-- A narinfo without signatures. -/
def sampleInfo : NarInfo where
  storePath := "/s/a".toList
  narHash := "h".toList

/-- Its fingerprint. -/
def sampleFingerprint : Str :=
  "1;/s/a;h;0;".toList

/-- The signature of the sample key on the sample narinfo. -/
def sampleSignature : HybridSignature :=
  sampleSecret.signer.sign Primitives.transparent ()
    (asBytes sampleFingerprint)

/-- The sample narinfo with given classical entries and one honest `Sig-PQC`. -/
def sampleSigned (sigs : List Str) : NarInfo :=
  { sampleInfo with
    sigs := sigs
    sigPqc := [encodeSigPqc sampleSecret.name sampleSignature.mlDsa] }

/-! ## Order and repetition -/

variable (primitives)

/-- The classical candidates that do not verify, each counted once. -/
def edBad (info : NarInfo) (fingerprint keyname : Str)
    (keys : HybridVerifyingKeys) : Nat :=
  Candidates.badCount (edGood primitives keys (asBytes fingerprint))
    (edValues info keyname)

/-- The ML-DSA candidates that do not verify, each counted once. -/
def pqcBad (info : NarInfo) (fingerprint keyname : Str)
    (keys : HybridVerifyingKeys) : Nat :=
  Candidates.badCount (pqcGood primitives keys (asBytes fingerprint))
    (pqcValues info keyname)

/--
Order and repetition never change the verdict, exactly when one half has no
candidate that verifies at all or the cap leaves a place free beside all the
candidates that do not verify.  So it is wherever each half has no more
distinct candidates than the cap allows.
-/
theorem verifyHybrid_rearrange_iff (info : NarInfo)
    (fingerprint keyname : Str) (keys : HybridVerifyingKeys) :
    let unchanged := ∀ sigs sigPqc, Candidates.Rearranges info.sigs sigs →
      Candidates.Rearranges info.sigPqc sigPqc →
        (verifyHybrid primitives { info with sigs, sigPqc } fingerprint
            keyname keys = .ok () ↔
          verifyHybrid primitives info fingerprint keyname keys = .ok ())
    (unchanged ↔
      (¬ ∃ sig ∈ edValues info keyname,
          edGood primitives keys (asBytes fingerprint) sig = true) ∨
        (¬ ∃ sig ∈ pqcValues info keyname,
          pqcGood primitives keys (asBytes fingerprint) sig = true) ∨
        edBad primitives info fingerprint keyname keys < maxSigCandidates ∧
          pqcBad primitives info fingerprint keyname keys <
            maxSigCandidates) ∧
      ((Candidates.distinct (edValues info keyname)).length ≤
          maxSigCandidates →
        (Candidates.distinct (pqcValues info keyname)).length ≤
            maxSigCandidates →
          unchanged) := by
  simp only [verifyHybrid_eq_ok_iff, edBad, pqcBad, edValues_eq_filterMap,
    pqcValues_eq_filterMap]
  exact ⟨Candidates.pairInvariant_iff (by decide),
    Candidates.pairInvariant_of_length_le (by decide)⟩

/-- The same entries are accepted in one order and rejected in another. -/
theorem verifyHybrid_order_matters :
    let own := sigEntry sampleSecret.name sampleSignature
    let others := crowd sampleSecret.name 32
    let keys := sampleSecret.signer.verifyingKeys Primitives.transparent
    (own :: others).Perm (others ++ [own]) ∧
      (sampleSigned (others ++ [own])).fingerprint = .ok sampleFingerprint ∧
        verifyHybrid Primitives.transparent (sampleSigned (own :: others))
          sampleFingerprint sampleSecret.name keys = .ok () ∧
        ¬ verifyHybrid Primitives.transparent
          (sampleSigned (others ++ [own])) sampleFingerprint
            sampleSecret.name keys = .ok () := by
  have clean : ':' ∉ sampleSecret.name := by decide
  have length : sampleSignature.mlDsa.length = mlDsa65SignatureLen :=
    length_mlDsa_sign _ _ _ _
  refine ⟨(List.perm_append_singleton _ _).symm, rfl, ?_, ?_⟩
  · rw [verifyHybrid_eq_ok_iff]
    constructor
    · rw [edAccepts, sampleSigned, List.filterMap_cons_some
        (edCandidate_sigEntry clean sampleSignature)]
      exact Candidates.accepts_cons (by decide)
        (edGood_sign Primitives.transparent_correct _ _ _)
    · rw [pqcAccepts, sampleSigned, List.filterMap_cons_some
        (pqcCandidate_encodeSigPqc clean length)]
      exact Candidates.accepts_cons (by decide)
        (pqcGood_sign Primitives.transparent_correct _ _ _)
  · rw [verifyHybrid_eq_ok_iff]
    rintro ⟨accepted, -⟩
    rw [sampleSigned, not_edAccepts_crowd clean rfl] at accepted
    cases accepted

end NixPqcCache.HybridCandidates
