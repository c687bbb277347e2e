import NixPqcCache.HybridCandidates

/-!
# The hybrid check as a pairing

`verify_hybrid` selects its candidates by a textual prefix and tests the two
halves apart.  Read through the decoders, the candidates of a name are the
values its own entries decode to, and the two tests are one search for a pair
that `hybrid::verify` accepts.  The classical half of such a pair is accepted
by the plain check of a named Ed25519 key as well.
-/

namespace NixPqcCache.HybridPairing

open NixPqcCache.Commands
open NixPqcCache.Data
open NixPqcCache.Foundation
open NixPqcCache.Hybrid
open NixPqcCache.HybridCandidates
open NixPqcCache.Keys
open NixPqcCache.Narinfo
open NixPqcCache.SignatureEntries

/-! ## Candidates by decoded name -/

/-- The 64 bytes that a `Sig:` entry decodes to under a name. -/
def namedSig (keyname entry : Str) : Option (ByteArr ed25519SignatureLen) :=
  match parseSigEntry entry with
  | .ok (name, bytes) =>
      if name = keyname then tryIntoArray ed25519SignatureLen bytes else none
  | .error _ => none

/-- The 3309 bytes that a `Sig-PQC:` entry decodes to under a name. -/
def namedSigPqc (keyname entry : Str) : Option Bytes :=
  match decodeSigPqc entry with
  | .ok (name, .mlDsa65, mlDsaSig) =>
      if name = keyname then some mlDsaSig else none
  | .error _ => none

theorem namedSig_eq_some_iff {keyname entry : Str}
    {sig : ByteArr ed25519SignatureLen} :
    namedSig keyname entry = some sig ↔
      parseSigEntry entry = .ok (keyname, sig.toList) := by
  rw [namedSig]
  split
  next name bytes parsed =>
    rw [parsed, Except.ok.injEq, Prod.mk.injEq]
    split
    next same =>
      rw [tryIntoArray_eq_some_iff]
      simp [same, eq_comm]
    next different => simp [different]
  next cause rejected => simp [rejected]

theorem namedSigPqc_eq_some_iff {keyname entry : Str} {mlDsaSig : Bytes} :
    namedSigPqc keyname entry = some mlDsaSig ↔
      decodeSigPqc entry = .ok (keyname, .mlDsa65, mlDsaSig) := by
  rw [namedSigPqc]
  split
  next name mlDsaSig decoded =>
    rw [decoded, Except.ok.injEq, Prod.mk.injEq, Prod.mk.injEq]
    split
    next same => simp [same]
    next different => simp [different]
  next cause rejected => simp [rejected]

/-- The prefix test selects what the decoded name selects. -/
theorem edCandidate_eq_namedSig (keyname : Str) :
    edCandidate keyname = namedSig keyname := by
  funext entry
  apply Option.ext
  intro sig
  rw [edCandidate_eq_some_iff, namedSig_eq_some_iff, parseSigEntry_eq_ok_iff]

theorem pqcCandidate_eq_namedSigPqc (keyname : Str) :
    pqcCandidate keyname = namedSigPqc keyname := by
  funext entry
  apply Option.ext
  intro mlDsaSig
  rw [pqcCandidate_eq_some_iff, namedSigPqc_eq_some_iff,
    decodeSigPqc_eq_ok_iff]

/-- The distinct `Sig` values of a name, in order. -/
def sigValues (keyname : Str) (sigs : List Str) :
    List (ByteArr ed25519SignatureLen) :=
  Candidates.distinct (sigs.filterMap (namedSig keyname))

/-- The distinct `Sig-PQC` values of a name, in order. -/
def sigPqcValues (keyname : Str) (sigPqc : List Str) : List Bytes :=
  Candidates.distinct (sigPqc.filterMap (namedSigPqc keyname))

variable {Rand : Type} (primitives : Primitives Rand)

/-- Each half accepts one of the first 32 distinct values of the name. -/
theorem verifyHybrid_eq_ok_iff_values {info : NarInfo}
    {fingerprint keyname : Str} {keys : HybridVerifyingKeys} :
    verifyHybrid primitives info fingerprint keyname keys = .ok () ↔
      (∃ sig ∈ (sigValues keyname info.sigs).take 32,
        verifyEd25519Only primitives keys.ed25519 (asBytes fingerprint) sig =
          .ok ()) ∧
        ∃ mlDsaSig ∈ (sigPqcValues keyname info.sigPqc).take 32,
          verifyMlDsaOnly primitives keys.mlDsa (asBytes fingerprint)
            mlDsaSig = .ok () := by
  rw [verifyHybrid_eq_ok_iff, edAccepts, pqcAccepts,
    edCandidate_eq_namedSig, pqcCandidate_eq_namedSigPqc,
    Candidates.accepts_eq_true_iff, Candidates.accepts_eq_true_iff]
  simp only [edGood, pqcGood, Runs.isOk_eq_true_iff]
  rfl

/-! ## One search for a pair -/

theorem verify_eq_ok_iff {keys : HybridVerifyingKeys} {message : Bytes}
    {sig : HybridSignature} :
    verify primitives keys message sig = .ok () ↔
      verifyEd25519Only primitives keys.ed25519 message sig.ed25519 =
          .ok () ∧
        verifyMlDsaOnly primitives keys.mlDsa message sig.mlDsa = .ok () := by
  rw [verify, Runs.bind_eq_ok_iff]
  constructor
  · rintro ⟨⟨⟩, edVerified, mlVerified⟩
    exact ⟨edVerified, mlVerified⟩
  · rintro ⟨edVerified, mlVerified⟩
    exact ⟨(), edVerified, mlVerified⟩

/-- Two searches for one half each are one search for a pair. -/
theorem exists_pair_iff {keys : HybridVerifyingKeys} {message : Bytes}
    {sigs : List (ByteArr ed25519SignatureLen)} {mlDsaSigs : List Bytes} :
    (∃ sig ∈ sigs, ∃ mlDsaSig ∈ mlDsaSigs,
        verify primitives keys message ⟨sig, mlDsaSig⟩ = .ok ()) ↔
      (∃ sig ∈ sigs,
        verifyEd25519Only primitives keys.ed25519 message sig = .ok ()) ∧
        ∃ mlDsaSig ∈ mlDsaSigs,
          verifyMlDsaOnly primitives keys.mlDsa message mlDsaSig =
            .ok () := by
  simp only [verify_eq_ok_iff]
  constructor
  · rintro ⟨sig, member, mlDsaSig, mlMember, edVerified, mlVerified⟩
    exact ⟨⟨sig, member, edVerified⟩, mlDsaSig, mlMember, mlVerified⟩
  · rintro ⟨⟨sig, member, edVerified⟩, mlDsaSig, mlMember, mlVerified⟩
    exact ⟨sig, member, mlDsaSig, mlMember, edVerified, mlVerified⟩

theorem mem_sigValues {keyname : Str} {sigs : List Str}
    {sig : ByteArr ed25519SignatureLen} :
    sig ∈ sigValues keyname sigs ↔
      ∃ entry ∈ sigs, parseSigEntry entry = .ok (keyname, sig.toList) := by
  simp only [sigValues, Candidates.mem_distinct, List.mem_filterMap,
    namedSig_eq_some_iff]

theorem mem_sigPqcValues {keyname : Str} {sigPqc : List Str}
    {mlDsaSig : Bytes} :
    mlDsaSig ∈ sigPqcValues keyname sigPqc ↔
      ∃ entry ∈ sigPqc,
        decodeSigPqc entry = .ok (keyname, .mlDsa65, mlDsaSig) := by
  simp only [sigPqcValues, Candidates.mem_distinct, List.mem_filterMap,
    namedSigPqc_eq_some_iff]

/--
The hybrid check accepts exactly when one of the first 32 distinct values of
each list of the name form a pair that verifies.  An entry that does not
decode to a new value of the name takes none of the places, and while there is
a place for every value the pair may come from any two entries.
-/
theorem verifyHybrid_pairwise (info : NarInfo) (fingerprint keyname : Str)
    (keys : HybridVerifyingKeys) :
    (verifyHybrid primitives info fingerprint keyname keys = .ok () ↔
      ∃ sig ∈ (sigValues keyname info.sigs).take 32,
        ∃ mlDsaSig ∈ (sigPqcValues keyname info.sigPqc).take 32,
          verify primitives keys (asBytes fingerprint) ⟨sig, mlDsaSig⟩ =
            .ok ()) ∧
      (∀ before entry after,
        (∀ sig : ByteArr ed25519SignatureLen,
          parseSigEntry entry = .ok (keyname, sig.toList) →
            ∃ earlier ∈ before,
              parseSigEntry earlier = .ok (keyname, sig.toList)) →
          (sigValues keyname (before ++ entry :: after)).take 32 =
            (sigValues keyname (before ++ after)).take 32) ∧
      (∀ before entry after,
        (∀ mlDsaSig, decodeSigPqc entry = .ok (keyname, .mlDsa65, mlDsaSig) →
          ∃ earlier ∈ before,
            decodeSigPqc earlier = .ok (keyname, .mlDsa65, mlDsaSig)) →
          (sigPqcValues keyname (before ++ entry :: after)).take 32 =
            (sigPqcValues keyname (before ++ after)).take 32) ∧
      ((sigValues keyname info.sigs).length ≤ 32 →
        (sigPqcValues keyname info.sigPqc).length ≤ 32 →
          (verifyHybrid primitives info fingerprint keyname keys = .ok () ↔
            ∃ entry ∈ info.sigs, ∃ pqcEntry ∈ info.sigPqc,
              ∃ sig mlDsaSig,
                parseSigEntry entry =
                    .ok (keyname, List.Vector.toList sig) ∧
                  decodeSigPqc pqcEntry =
                      .ok (keyname, .mlDsa65, mlDsaSig) ∧
                    verify primitives keys (asBytes fingerprint)
                      ⟨sig, mlDsaSig⟩ = .ok ())) := by
  have paired :
      verifyHybrid primitives info fingerprint keyname keys = .ok () ↔
        ∃ sig ∈ (sigValues keyname info.sigs).take 32,
          ∃ mlDsaSig ∈ (sigPqcValues keyname info.sigPqc).take 32,
            verify primitives keys (asBytes fingerprint) ⟨sig, mlDsaSig⟩ =
              .ok () := by
    rw [verifyHybrid_eq_ok_iff_values, exists_pair_iff]
  refine ⟨paired, ?_, ?_, ?_⟩
  · intro before entry after repeated
    apply Candidates.admitted_filterMap_append_cons
    simpa only [namedSig_eq_some_iff] using repeated
  · intro before entry after repeated
    apply Candidates.admitted_filterMap_append_cons
    simpa only [namedSigPqc_eq_some_iff] using repeated
  · intro edBound pqcBound
    rw [paired, List.take_of_length_le edBound,
      List.take_of_length_le pqcBound]
    simp only [mem_sigValues, mem_sigPqcValues]
    constructor
    · rintro ⟨sig, ⟨entry, member, parsed⟩, mlDsaSig,
        ⟨pqcEntry, pqcMember, decoded⟩, verified⟩
      exact ⟨entry, member, pqcEntry, pqcMember, sig, mlDsaSig, parsed,
        decoded, verified⟩
    · rintro ⟨entry, member, pqcEntry, pqcMember, sig, mlDsaSig, parsed,
        decoded, verified⟩
      exact ⟨sig, ⟨entry, member, parsed⟩, mlDsaSig,
        ⟨pqcEntry, pqcMember, decoded⟩, verified⟩

/-- A malformed entry in front of an honest one. -/
theorem verifyHybrid_pairwise_sample :
    let own := sigEntry sampleSecret.name sampleSignature
    (sigValues sampleSecret.name ["x".toList, own]).take 32 =
      (sigValues sampleSecret.name [own]).take 32 := by
  intro own
  rcases verifyHybrid_pairwise Primitives.transparent sampleInfo
    sampleFingerprint sampleSecret.name
    (sampleSecret.signer.verifyingKeys Primitives.transparent) with
    ⟨-, unaffected, -⟩
  apply unaffected [] "x".toList [own]
  intro sig parsed
  cases parsed

/-! ## The plain check of the classical half -/

/-- The plain check of a named key reads the same values of the name. -/
theorem verifyEd25519Sig_named_iff {fingerprint entry keyname : Str}
    {key : ByteArr ed25519PublicKeyLen} :
    verifyEd25519Sig primitives fingerprint entry (some keyname)
        (Base64.encode key.toList) = .ok () ↔
      ∃ sig, parseSigEntry entry = .ok (keyname, List.Vector.toList sig) ∧
        verifyEd25519Only primitives key (asBytes fingerprint) sig =
          .ok () := by
  simp only [verifyEd25519Sig_eq_ok_iff, parseSigEntry_eq_ok_iff,
    Base64.decode_encode, Option.some.injEq, Option.mem_def]
  constructor
  · rintro ⟨name, sig, rfl, clean, named, other, same, verified⟩
    rcases named keyname rfl with rfl
    rw [List.Vector.toList_injective same]
    exact ⟨sig, ⟨rfl, clean⟩, verified⟩
  · rintro ⟨sig, ⟨rfl, clean⟩, verified⟩
    exact ⟨keyname, sig, rfl, clean, fun _ equal => equal, key, rfl,
      verified⟩

/-- The plain check accepts some entry exactly when a value verifies. -/
theorem exists_verifyEd25519Sig_iff {sigs : List Str}
    {fingerprint keyname : Str} {key : ByteArr ed25519PublicKeyLen} :
    (∃ entry ∈ sigs,
        verifyEd25519Sig primitives fingerprint entry (some keyname)
          (Base64.encode key.toList) = .ok ()) ↔
      ∃ sig ∈ sigValues keyname sigs,
        verifyEd25519Only primitives key (asBytes fingerprint) sig =
          .ok () := by
  simp only [verifyEd25519Sig_named_iff, mem_sigValues]
  constructor
  · rintro ⟨entry, member, sig, parsed, verified⟩
    exact ⟨sig, ⟨entry, member, parsed⟩, verified⟩
  · rintro ⟨sig, ⟨entry, member, parsed⟩, verified⟩
    exact ⟨entry, member, sig, parsed, verified⟩

/-- A value of a name that some entry decodes to has no colon in the name. -/
theorem colon_not_mem_of_parseSigEntry {entry keyname : Str} {bytes : Bytes}
    (parsed : parseSigEntry entry = .ok (keyname, bytes)) :
    ':' ∉ keyname :=
  (parseSigEntry_eq_ok_iff.mp parsed).2

/--
What the hybrid check accepts, the plain check of the named Ed25519 key
accepts, alone and as the `--pubkey` of `verify`.  Conversely the plain check
and one ML-DSA value that verifies are enough for the hybrid check while there
is a place for every value of the name.
-/
theorem verifyHybrid_agrees_with_classical (info : NarInfo)
    (fingerprint keyname : Str) (keys : HybridVerifyingKeys) :
    (verifyHybrid primitives info fingerprint keyname keys = .ok () →
      (∃ entry ∈ info.sigs,
        verifyEd25519Sig primitives fingerprint entry (some keyname)
          (Base64.encode keys.ed25519.toList) = .ok ()) ∧
        classicalOk primitives info fingerprint
          (keyname ++ [':'] ++ Base64.encode keys.ed25519.toList) = true) ∧
      ((∃ entry ∈ info.sigs,
          verifyEd25519Sig primitives fingerprint entry (some keyname)
            (Base64.encode keys.ed25519.toList) = .ok ()) →
        (sigValues keyname info.sigs).length ≤ 32 →
          (sigPqcValues keyname info.sigPqc).length ≤ 32 →
            (∃ entry ∈ info.sigPqc, ∃ mlDsaSig,
              decodeSigPqc entry = .ok (keyname, .mlDsa65, mlDsaSig) ∧
                verifyMlDsaOnly primitives keys.mlDsa (asBytes fingerprint)
                  mlDsaSig = .ok ()) →
              verifyHybrid primitives info fingerprint keyname keys =
                .ok ()) := by
  constructor
  · intro accepted
    rcases (verifyHybrid_eq_ok_iff_values primitives).mp accepted with
      ⟨⟨sig, member, verified⟩, -⟩
    have value : sig ∈ sigValues keyname info.sigs :=
      List.mem_of_mem_take member
    rcases mem_sigValues.mp value with ⟨found, foundMember, parsed⟩
    have plain : ∃ entry ∈ info.sigs,
        verifyEd25519Sig primitives fingerprint entry (some keyname)
          (Base64.encode keys.ed25519.toList) = .ok () :=
      (exists_verifyEd25519Sig_iff primitives).mpr ⟨sig, value, verified⟩
    refine ⟨plain, ?_⟩
    rcases plain with ⟨entry, entryMember, checked⟩
    rw [classicalOk, ← entryOf_eq_append,
      parseNamedPubkey_entryOf (colon_not_mem_of_parseSigEntry parsed)]
    exact List.any_eq_true.mpr
      ⟨entry, entryMember, Runs.isOk_eq_true_iff.mpr checked⟩
  · rintro plain edBound pqcBound ⟨entry, member, mlDsaSig, decoded, verified⟩
    rw [verifyHybrid_eq_ok_iff_values, List.take_of_length_le edBound,
      List.take_of_length_le pqcBound]
    exact ⟨(exists_verifyEd25519Sig_iff primitives).mp plain, mlDsaSig,
      mem_sigPqcValues.mpr ⟨entry, member, decoded⟩, verified⟩

/-- An honest pair is accepted both ways. -/
theorem verifyHybrid_agrees_with_classical_sample :
    let own := sigEntry sampleSecret.name sampleSignature
    let keys := sampleSecret.signer.verifyingKeys Primitives.transparent
    verifyHybrid Primitives.transparent (sampleSigned [own])
      sampleFingerprint sampleSecret.name keys = .ok () := by
  intro own keys
  have clean : ':' ∉ sampleSecret.name := by decide
  have length : sampleSignature.mlDsa.length = mlDsa65SignatureLen :=
    length_mlDsa_sign _ _ _ _
  have single {α : Type} [DecidableEq α] (decode : Str → Option α)
      (entry : Str) :
      (Candidates.distinct ([entry].filterMap decode)).length ≤ 32 := by
    have few := Candidates.length_distinct_le ([entry].filterMap decode)
    have one := List.length_filterMap_le decode [entry]
    simp only [List.length_singleton] at one
    omega
  apply (verifyHybrid_agrees_with_classical Primitives.transparent _ _ _
    _).2
  · refine ⟨own, List.mem_singleton.mpr rfl,
      (verifyEd25519Sig_named_iff _).mpr
        ⟨_, parseSigEntry_sigEntry clean sampleSignature, ?_⟩⟩
    exact Primitives.transparent_correct.verifyEd25519Only_sign _ _ _
  · exact single _ _
  · exact single _ _
  · exact ⟨_, List.mem_singleton.mpr rfl, _,
      decodeSigPqc_encodeSigPqc clean length,
      Primitives.transparent_correct.verifyMlDsaOnly_sign _ _ _⟩

end NixPqcCache.HybridPairing
