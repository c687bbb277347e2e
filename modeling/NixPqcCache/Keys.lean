import NixPqcCache.Filesystem
import NixPqcCache.Foundation.Candidates
import NixPqcCache.Narinfo

/-!
# Key files and hybrid verification

The crate's `keys` module: named keys and their two file formats, the wire
form of a `Sig-PQC:` entry, and `verify_hybrid`, which pairs the classical and
the post-quantum candidates of one key name.
-/

namespace NixPqcCache.Keys

open NixPqcCache.Data
open NixPqcCache.Filesystem
open NixPqcCache.Foundation
open NixPqcCache.Hybrid
open NixPqcCache.Narinfo

/-! ## Key names -/

/-- `c.is_ascii_alphanumeric() || matches!(c, '.' | '_' | '-')`. -/
def isKeyNameSymbol (symbol : Char) : Bool :=
  symbol.isAlphanum || symbol == '.' || symbol == '_' || symbol == '-'

/-- `validate_key_name`. -/
def validateKeyName (name : Str) : Result Unit :=
  if name = [] then
    .error .emptyKeyName
  else if 128 < byteLength name then
    .error (.keyNameTooLong (byteLength name))
  else if name = ".".toList ∨ name = "..".toList then
    .error .keyNameDots
  else if name.all isKeyNameSymbol then
    .ok ()
  else
    .error (.keyNameSymbols name)

/-- `parse_named_pubkey`. -/
def parseNamedPubkey (text : Str) : Option Str × Str :=
  match Text.splitOnce [':'] text with
  | some (name, key) => (some name, key)
  | none => (none, text)

/-! ## Secret keys -/

/-- A named hybrid signing key. -/
structure SecretKey where
  name : Str
  signer : HybridSigner
  deriving DecidableEq

/-- Publishable hybrid verifying keys. -/
structure PublicKey where
  name : Str
  keys : HybridVerifyingKeys
  deriving DecidableEq

namespace SecretKey

/-- The body `SecretKey::save` writes. -/
def body (secret : SecretKey) : Str :=
  secret.name ++ ['\n'] ++ Base64.encode secret.signer.toBytes ++ ['\n']

/-- `SecretKey::load` on the text of the file. -/
def loadText (text : Str) : Result SecretKey := do
  let lines := Text.lines text
  let name ← okOr .emptySecretKeyFile lines[0]?
  (validateKeyName name).mapError .secretKeyFileName
  let b64 ← okOr .missingKeyMaterial lines[1]?
  let bytes ← okOr .decodeSecretKey (Base64.decode b64)
  let signer ← (HybridSigner.fromBytes bytes).mapError .badSecretKey
  .ok ⟨name, signer⟩

/-- `SecretKey::load`. -/
def load (files : FileSystem) (path : Str) : Result SecretKey := do
  let text ← okOr (.readingSecretKey path) (files.readToString path)
  loadText text

variable {Rand : Type} (primitives : Primitives Rand)

/-- `SecretKey::public`. -/
def publicKey (secret : SecretKey) : PublicKey where
  name := secret.name
  keys := secret.signer.verifyingKeys primitives

end SecretKey

/-! ## Public keys -/

namespace PublicKey

/-- The body `PublicKey::save` writes. -/
def body (pk : PublicKey) : Str :=
  pk.name ++ "\ned25519:".toList ++
    Base64.encode pk.keys.ed25519.toList ++ "\nml-dsa-65:".toList ++
      Base64.encode pk.keys.mlDsa ++ ['\n']

/-- `PublicKey::load` on the text of the file. -/
def loadText (text : Str) : Result PublicKey := do
  let lines := Text.lines text
  let name ← okOr .emptyPublicKeyFile lines[0]?
  (validateKeyName name).mapError .publicKeyFileName
  let edLine ← okOr .missingEdLine lines[1]?
  let mlLine ← okOr .missingMlLine lines[2]?
  let edB64 ← okOr .expectedEdPrefix (edLine.dropPrefix? "ed25519:".toList)
  let mlB64 ← okOr .expectedMlPrefix (mlLine.dropPrefix? "ml-dsa-65:".toList)
  let edBytes ← okOr .decodeEdPubkey (Base64.decode edB64)
  let ed25519 ← okOr .edPubkeyLength
    (tryIntoArray ed25519PublicKeyLen edBytes)
  let mlDsa ← okOr .decodeMlPubkey (Base64.decode mlB64)
  if mlDsa.length ≠ mlDsa65PublicKeyLen then
    .error (.mlPubkeyLength mlDsa.length)
  else
    .ok ⟨name, ⟨ed25519, mlDsa⟩⟩

/-- `PublicKey::load`. -/
def load (files : FileSystem) (path : Str) : Result PublicKey := do
  let text ← okOr (.readingPublicKey path) (files.readToString path)
  loadText text

end PublicKey

/-! ## The `Sig-PQC:` wire form -/

/-- `SigPqcAlgorithm`. -/
inductive SigPqcAlgorithm where
  | mlDsa65
  deriving DecidableEq, Repr

/-- `algorithm as u8`. -/
def SigPqcAlgorithm.tag : SigPqcAlgorithm → UInt8
  | .mlDsa65 => 1

/-- `SigPqcAlgorithm::from_tag`. -/
def SigPqcAlgorithm.fromTag (tag : UInt8) : Result SigPqcAlgorithm :=
  if tag = 1 then .ok .mlDsa65 else .error (.unknownAlgorithmTag tag)

/-- `encode_sig_pqc`. -/
def encodeSigPqc (name : Str) (mlDsaSig : Bytes) : Str :=
  name ++ [':'] ++
    Base64.encode (SigPqcAlgorithm.mlDsa65.tag :: mlDsaSig)

/-- `decode_sig_pqc`. -/
def decodeSigPqc (entry : Str) : Result (Str × SigPqcAlgorithm × Bytes) := do
  let (name, bytes) ← parseSigEntry entry
  match bytes with
  | [] => .error .emptySigPqcEntry
  | tag :: rest =>
      let algorithm ← SigPqcAlgorithm.fromTag tag
      match algorithm with
      | .mlDsa65 =>
          if rest.length ≠ mlDsa65SignatureLen then
            .error (.sigPqcLength rest.length)
          else
            .ok (name, algorithm, rest)

/-! ## Hybrid verification -/

/-- `MAX_SIG_CANDIDATES`. -/
def maxSigCandidates : Nat := 32

/-- `ed_candidates` before repetitions and surplus values are dropped. -/
def edValues (info : NarInfo) (keyname : Str) :
    List (ByteArr ed25519SignatureLen) :=
  ((info.sigs.filter fun s => (keyname ++ [':']).isPrefixOf s).filterMap
    fun s => (parseSigEntry s).toOption).filterMap
      fun parsed => tryIntoArray ed25519SignatureLen parsed.2

/-- `pqc_candidates` before repetitions and surplus values are dropped. -/
def pqcValues (info : NarInfo) (keyname : Str) : List Bytes :=
  ((info.sigPqc.filter fun s => (keyname ++ [':']).isPrefixOf s).filterMap
    fun s => (decodeSigPqc s).toOption).map
      fun decoded => decoded.2.2

variable {Rand : Type} (primitives : Primitives Rand)

/-- `verify_hybrid`. -/
def verifyHybrid (info : NarInfo) (fingerprint keyname : Str)
    (keys : HybridVerifyingKeys) : Result Unit :=
  let message := asBytes fingerprint
  let edCandidates :=
    Candidates.admitted maxSigCandidates (edValues info keyname)
  let pqcCandidates :=
    Candidates.admitted maxSigCandidates (pqcValues info keyname)
  let edOk := edCandidates.any fun sig =>
    (verifyEd25519Only primitives keys.ed25519 message sig).isOk
  let pqcOk := pqcCandidates.any fun sig =>
    (verifyMlDsaOnly primitives keys.mlDsa message sig).isOk
  if edCandidates = [] then
    .error (.noSigCandidate keyname)
  else if pqcCandidates = [] then
    .error (.noSigPqcCandidate keyname)
  else if !edOk then
    .error (.noSigVerified keyname edCandidates.length)
  else if !pqcOk then
    .error (.noSigPqcVerified keyname pqcCandidates.length)
  else
    .ok ()

end NixPqcCache.Keys
