import NixPqcCache.Data

/-!
# Hybrid signatures

The crate's `hybrid` module.  A signature is a pair of an Ed25519 and an
ML-DSA-65 signature over the same message, and verification requires both.

The two schemes themselves come from libraries.  `Primitives` is what the
crate calls of them; a signing call may draw randomness, so it takes the value
it drew.  `Primitives.Correct` is the one documented property the crate relies
on: a signature made with a secret key verifies under its public key.
-/

namespace NixPqcCache.Hybrid

open NixPqcCache.Data

/-- `ED25519_SIGNATURE_LEN`. -/
abbrev ed25519SignatureLen : Nat := 64

/-- `ED25519_PUBLIC_KEY_LEN`. -/
abbrev ed25519PublicKeyLen : Nat := 32

/-- `ED25519_SECRET_KEY_LEN`. -/
abbrev ed25519SecretKeyLen : Nat := 32

/-- `ML_DSA_65_PUBLIC_KEY_LEN`. -/
abbrev mlDsa65PublicKeyLen : Nat := 1952

/-- `ML_DSA_65_SIGNATURE_LEN`. -/
abbrev mlDsa65SignatureLen : Nat := 3309

/-- `ML_DSA_65_SECRET_SEED_LEN`. -/
abbrev mlDsa65SecretSeedLen : Nat := 32

/-- `HYBRID_SECRET_KEY_LEN`. -/
abbrev hybridSecretKeyLen : Nat :=
  ed25519SecretKeyLen + mlDsa65SecretSeedLen

/-- What the crate calls of `ed25519_dalek` and `ml_dsa`. -/
structure Primitives (Rand : Type) where
  /-- `EdSigningKey::verifying_key`, as bytes. -/
  edPublic : ByteArr ed25519SecretKeyLen → ByteArr ed25519PublicKeyLen
  /-- `EdSigningKey::sign`, as bytes. -/
  edSign : ByteArr ed25519SecretKeyLen → Rand → Bytes →
    ByteArr ed25519SignatureLen
  /-- `EdVerifyingKey::from_bytes` succeeds. -/
  edVerifyingKey : ByteArr ed25519PublicKeyLen → Bool
  /-- `EdVerifyingKey::verify` succeeds. -/
  edVerify : ByteArr ed25519PublicKeyLen → Bytes →
    ByteArr ed25519SignatureLen → Bool
  /-- `MlSigningKey::verifying_key`, encoded. -/
  mlPublic : ByteArr mlDsa65SecretSeedLen → ByteArr mlDsa65PublicKeyLen
  /-- `MlSigningKey::sign`, encoded. -/
  mlSign : ByteArr mlDsa65SecretSeedLen → Rand → Bytes →
    ByteArr mlDsa65SignatureLen
  /-- `MlSignature::decode` succeeds. -/
  mlDecode : ByteArr mlDsa65SignatureLen → Bool
  /-- `MlVerifyingKey::verify` succeeds. -/
  mlVerify : ByteArr mlDsa65PublicKeyLen → Bytes →
    ByteArr mlDsa65SignatureLen → Bool

variable {Rand : Type}

/-- A signature made by `sign` verifies under the matching public key. -/
structure Primitives.Correct (primitives : Primitives Rand) : Prop where
  edVerifyingKey : ∀ secret,
    primitives.edVerifyingKey (primitives.edPublic secret) = true
  edVerify : ∀ secret rand message,
    primitives.edVerify (primitives.edPublic secret) message
      (primitives.edSign secret rand message) = true
  mlDecode : ∀ seed rand message,
    primitives.mlDecode (primitives.mlSign seed rand message) = true
  mlVerify : ∀ seed rand message,
    primitives.mlVerify (primitives.mlPublic seed) message
      (primitives.mlSign seed rand message) = true

/-- `HybridSigner`: the Ed25519 secret and the ML-DSA-65 seed. -/
structure HybridSigner where
  ed : ByteArr ed25519SecretKeyLen
  mlDsa : ByteArr mlDsa65SecretSeedLen
  deriving DecidableEq

/-- `HybridVerifyingKeys`. -/
structure HybridVerifyingKeys where
  ed25519 : ByteArr ed25519PublicKeyLen
  mlDsa : Bytes
  deriving DecidableEq

/-- `HybridSignature`. -/
structure HybridSignature where
  ed25519 : ByteArr ed25519SignatureLen
  mlDsa : Bytes
  deriving DecidableEq

variable (primitives : Primitives Rand)

/-- `HybridSigner::verifying_keys`. -/
def HybridSigner.verifyingKeys (signer : HybridSigner) :
    HybridVerifyingKeys where
  ed25519 := primitives.edPublic signer.ed
  mlDsa := (primitives.mlPublic signer.mlDsa).toList

/-- `HybridSigner::sign`: both algorithms over the identical bytes. -/
def HybridSigner.sign (signer : HybridSigner) (rand : Rand)
    (message : Bytes) : HybridSignature where
  ed25519 := primitives.edSign signer.ed rand message
  mlDsa := (primitives.mlSign signer.mlDsa rand message).toList

/-- `HybridSigner::to_bytes`. -/
def HybridSigner.toBytes (signer : HybridSigner) : Bytes :=
  signer.ed.toList ++ signer.mlDsa.toList

/-- `HybridSigner::from_bytes`. -/
def HybridSigner.fromBytes (bytes : Bytes) : Result HybridSigner :=
  if bytes.length ≠ hybridSecretKeyLen then
    .error (.signerLength bytes.length)
  else
    match tryIntoArray ed25519SecretKeyLen (bytes.take ed25519SecretKeyLen),
      tryIntoArray mlDsa65SecretSeedLen (bytes.drop ed25519SecretKeyLen) with
    | some ed, some mlDsa => .ok ⟨ed, mlDsa⟩
    | _, _ => .error .invalidSigningKey

/-- `verify_ed25519_only`. -/
def verifyEd25519Only (ed25519Key : ByteArr ed25519PublicKeyLen)
    (message : Bytes) (sig : ByteArr ed25519SignatureLen) : Result Unit :=
  if primitives.edVerifyingKey ed25519Key then
    if primitives.edVerify ed25519Key message sig then
      .ok ()
    else
      .error .edHalfVerification
  else
    .error .invalidEdVerifyingKey

/-- `verify_ml_dsa_only`. -/
def verifyMlDsaOnly (mlDsaKey message sig : Bytes) : Result Unit :=
  match tryIntoArray mlDsa65PublicKeyLen mlDsaKey with
  | none => .error .mlVerifyingKeyLength
  | some mlVk =>
      match tryIntoArray mlDsa65SignatureLen sig with
      | none => .error .mlSignatureLength
      | some mlSig =>
          if primitives.mlDecode mlSig then
            if primitives.mlVerify mlVk message mlSig then
              .ok ()
            else
              .error .mlHalfVerification
          else
            .error .mlSignatureUndecodable

/-- `verify`: both halves must verify against `message`. -/
def verify (keys : HybridVerifyingKeys) (message : Bytes)
    (sig : HybridSignature) : Result Unit := do
  verifyEd25519Only primitives keys.ed25519 message sig.ed25519
  verifyMlDsaOnly primitives keys.mlDsa message sig.mlDsa

/-! ## The two halves -/

theorem verifyEd25519Only_eq_ok_iff
    {ed25519Key : ByteArr ed25519PublicKeyLen} {message : Bytes}
    {sig : ByteArr ed25519SignatureLen} :
    verifyEd25519Only primitives ed25519Key message sig = .ok () ↔
      primitives.edVerifyingKey ed25519Key = true ∧
        primitives.edVerify ed25519Key message sig = true := by
  rw [verifyEd25519Only]
  split
  next valid => simp [valid]
  next invalid => simp [invalid]

theorem verifyMlDsaOnly_eq_ok_iff {mlDsaKey message sig : Bytes} :
    verifyMlDsaOnly primitives mlDsaKey message sig = .ok () ↔
      ∃ mlVk : ByteArr mlDsa65PublicKeyLen,
        ∃ mlSig : ByteArr mlDsa65SignatureLen,
          mlVk.toList = mlDsaKey ∧ mlSig.toList = sig ∧
            primitives.mlDecode mlSig = true ∧
              primitives.mlVerify mlVk message mlSig = true := by
  constructor
  · intro verified
    rw [verifyMlDsaOnly] at verified
    split at verified
    next => cases verified
    next mlVk key =>
      split at verified
      next => cases verified
      next mlSig bytes =>
        split at verified
        next decoded =>
          split at verified
          next verifies =>
            exact ⟨mlVk, mlSig, tryIntoArray_eq_some_iff.mp key,
              tryIntoArray_eq_some_iff.mp bytes, decoded, verifies⟩
          next => cases verified
        next => cases verified
  · rintro ⟨mlVk, mlSig, rfl, rfl, decoded, verifies⟩
    simp [verifyMlDsaOnly, decoded, verifies]

variable {primitives}

/-- The Ed25519 half of an honest signature verifies. -/
theorem Primitives.Correct.verifyEd25519Only_sign
    (correct : primitives.Correct) (signer : HybridSigner) (rand : Rand)
    (message : Bytes) :
    verifyEd25519Only primitives (signer.verifyingKeys primitives).ed25519
      message (signer.sign primitives rand message).ed25519 = .ok () :=
  (verifyEd25519Only_eq_ok_iff primitives).mpr
    ⟨correct.edVerifyingKey _, correct.edVerify _ _ _⟩

/-- The ML-DSA half of an honest signature verifies. -/
theorem Primitives.Correct.verifyMlDsaOnly_sign
    (correct : primitives.Correct) (signer : HybridSigner) (rand : Rand)
    (message : Bytes) :
    verifyMlDsaOnly primitives (signer.verifyingKeys primitives).mlDsa
      message (signer.sign primitives rand message).mlDsa = .ok () :=
  (verifyMlDsaOnly_eq_ok_iff primitives).mpr
    ⟨_, _, rfl, rfl, correct.mlDecode _ _ _, correct.mlVerify _ _ _⟩

/-- Signing and verifying a hybrid signature agree. -/
theorem Primitives.Correct.verify_sign
    (correct : primitives.Correct) (signer : HybridSigner) (rand : Rand)
    (message : Bytes) :
    verify primitives (signer.verifyingKeys primitives) message
      (signer.sign primitives rand message) = .ok () := by
  rw [verify, correct.verifyEd25519Only_sign]
  exact correct.verifyMlDsaOnly_sign signer rand message

/-! ## A transparent scheme -/

/-- The first `length` bytes of a text that zeros continue. -/
def fit (length : Nat) (bytes : Bytes) : ByteArr length :=
  ⟨(bytes ++ List.replicate length 0).take length, by simp⟩

theorem take_fit {length : Nat} {bytes : Bytes}
    (bound : bytes.length ≤ length) :
    (fit length bytes).toList.take bytes.length = bytes := by
  simp [fit, List.Vector.toList, List.take_take, bound]

theorem head?_fit {length : Nat} (positive : 0 < length) (byte : UInt8)
    (rest : Bytes) :
    (fit length (byte :: rest)).toList.head? = some byte := by
  simp [fit, List.Vector.toList, List.head?_take,
    Nat.pos_iff_ne_zero.mp positive]

/--
A correct pair of schemes that hides nothing: a signature shows the public key
and the beginning of the message, and nothing else verifies.
-/
def Primitives.transparent : Primitives Unit where
  edPublic secret := secret
  edSign secret _ message := fit ed25519SignatureLen (secret.toList ++ message)
  edVerifyingKey _ := true
  edVerify key message sig :=
    sig = fit ed25519SignatureLen (key.toList ++ message)
  mlPublic seed := fit mlDsa65PublicKeyLen seed.toList
  mlSign seed _ message := fit mlDsa65SignatureLen (seed.toList ++ message)
  mlDecode _ := true
  mlVerify key message sig :=
    sig = fit mlDsa65SignatureLen
      (key.toList.take mlDsa65SecretSeedLen ++ message)

theorem Primitives.transparent_correct : Primitives.transparent.Correct where
  edVerifyingKey _ := rfl
  edVerify secret rand message := by
    simp [transparent]
  mlDecode _ _ _ := rfl
  mlVerify seed rand message := by
    have shown :
        (fit mlDsa65PublicKeyLen seed.toList).toList.take
          mlDsa65SecretSeedLen = seed.toList := by
      have bound : seed.toList.length ≤ mlDsa65PublicKeyLen := by
        rw [seed.toList_length]
        decide
      have taken := take_fit bound
      rwa [seed.toList_length] at taken
    simp [transparent, shown]

end NixPqcCache.Hybrid
