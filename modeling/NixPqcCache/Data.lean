import Mathlib.Data.Vector.Basic
import NixPqcCache.Foundation.Decimal

/-!
# Text, bytes and errors

The data every module of the crate shares.  A Rust `String` is its list of
characters and a `Vec<u8>` or `&[u8]` its list of bytes; a `[u8; n]` carries
its length.  UTF-8 relates the two where the source crosses between them.

`Error` has one constructor for every `bail!`, `anyhow!` and `context` of the
crate, with the values its message prints.
-/

namespace NixPqcCache.Data

open NixPqcCache.Foundation

abbrev Str := List Char

abbrev Bytes := List UInt8

/-- `[u8; length]`. -/
abbrev ByteArr (length : Nat) := List.Vector UInt8 length

/-- `bytes.as_slice().try_into()`: the length has to be exact. -/
def tryIntoArray (length : Nat) (bytes : Bytes) : Option (ByteArr length) :=
  if exact : bytes.length = length then some ⟨bytes, exact⟩ else none

theorem tryIntoArray_eq_some_iff {length : Nat} {bytes : Bytes}
    {array : ByteArr length} :
    tryIntoArray length bytes = some array ↔ array.toList = bytes := by
  constructor
  · intro converted
    rw [tryIntoArray] at converted
    split at converted
    next =>
      rcases Option.some.inj converted with rfl
      rfl
    next => cases converted
  · rintro rfl
    rw [tryIntoArray, dif_pos array.toList_length]
    rfl

@[simp]
theorem tryIntoArray_toList {length : Nat} (array : ByteArr length) :
    tryIntoArray length array.toList = some array :=
  tryIntoArray_eq_some_iff.mpr rfl

/-! ## UTF-8 -/

/-- `str::as_bytes`. -/
def asBytes (text : Str) : Bytes :=
  text.flatMap String.utf8EncodeChar

/-- `String::from_utf8`, without the error it reports. -/
def fromUtf8 (bytes : Bytes) : Option Str :=
  bytes.toByteArray.utf8Decode?.map Array.toList

@[simp]
theorem fromUtf8_asBytes (text : Str) :
    fromUtf8 (asBytes text) = some text := by
  have decoded := List.utf8Decode?_utf8Encode (l := text)
  rw [List.utf8Encode] at decoded
  simp [fromUtf8, asBytes, decoded]

theorem asBytes_of_fromUtf8 {bytes : Bytes} {text : Str}
    (decoded : fromUtf8 bytes = some text) : asBytes text = bytes := by
  rcases Option.map_eq_some_iff.mp decoded with ⟨symbols, found, rfl⟩
  have valid : bytes.toByteArray.utf8Decode?.isSome := by
    rw [found]
    rfl
  have encoded := @ByteArray.utf8Encode_get_utf8Decode? _ valid
  have selected : bytes.toByteArray.utf8Decode?.get valid = symbols :=
    Option.get_of_eq_some valid found
  rw [selected, List.utf8Encode] at encoded
  have arrays := congrArg (fun array => array.data.toList) encoded
  simpa [asBytes] using arrays

theorem asBytes_append (left right : Str) :
    asBytes (left ++ right) = asBytes left ++ asBytes right :=
  List.flatMap_append

theorem asBytes_injective : Function.Injective asBytes := by
  intro left right equal
  have decoded := congrArg fromUtf8 equal
  rwa [fromUtf8_asBytes, fromUtf8_asBytes, Option.some.injEq] at decoded

/-- `core::str::Utf8Error`. -/
structure Utf8Error where
  validUpTo : Nat
  errorLen : Option Nat
  deriving DecidableEq

/-- The bytes that may follow the first one of a character, in order. -/
def followers (first : UInt8) : List (UInt8 × UInt8) :=
  let tail : UInt8 × UInt8 := (0x80, 0xBF)
  if 0xC2 ≤ first ∧ first ≤ 0xDF then [tail]
  else if first = 0xE0 then [(0xA0, 0xBF), tail]
  else if first = 0xED then [(0x80, 0x9F), tail]
  else if 0xE1 ≤ first ∧ first ≤ 0xEF then [tail, tail]
  else if first = 0xF0 then [(0x90, 0xBF), tail, tail]
  else if first = 0xF4 then [(0x80, 0x8F), tail, tail]
  else if 0xF1 ≤ first ∧ first ≤ 0xF3 then [tail, tail, tail]
  else []

/-- How many bytes go together before one does not, if none is missing. -/
def brokenAfter (count : Nat) :
    List (UInt8 × UInt8) → Bytes → Option Nat
  | [], _ => some count
  | _ :: _, [] => none
  | (low, high) :: ranges, byte :: rest =>
      if low ≤ byte ∧ byte ≤ high then
        brokenAfter (count + 1) ranges rest
      else
        some count

/-- The error of `String::from_utf8` for bytes that are not UTF-8. -/
def utf8Error (bytes : Bytes) : Utf8Error :=
  let validUpTo := ((List.range (bytes.length + 1)).reverse.find? fun length =>
    (fromUtf8 (bytes.take length)).isSome).getD 0
  { validUpTo := validUpTo
    errorLen := match bytes.drop validUpTo with
      | [] => none
      | first :: rest => brokenAfter 1 (followers first) rest }

/-- What comes before the reported index is valid. -/
theorem isSome_fromUtf8_take_validUpTo (bytes : Bytes) :
    (fromUtf8 (bytes.take (utf8Error bytes).validUpTo)).isSome = true := by
  rw [utf8Error]
  cases found : (List.range (bytes.length + 1)).reverse.find? fun length =>
      (fromUtf8 (bytes.take length)).isSome with
  | some length =>
      have valid := List.find?_some found
      exact valid
  | none =>
      rw [Option.getD_none, List.take_zero, ← show asBytes [] = [] from rfl,
        fromUtf8_asBytes]
      rfl

/-- The third byte cannot be one of the character that the first begins. -/
example : utf8Error [0x61, 0xE2, 0x82, 0x41] = ⟨1, some 2⟩ := by decide

/-- The last byte of the character is missing. -/
example : utf8Error [0x61, 0xE2, 0x82] = ⟨1, none⟩ := by decide

/-- `str::len`, the number of bytes of the UTF-8 encoding. -/
def byteLength (text : Str) : Nat :=
  (asBytes text).length

theorem length_le_byteLength (text : Str) :
    text.length ≤ byteLength text := by
  induction text with
  | nil => simp
  | cons symbol rest induction =>
      have positive : 0 < symbol.utf8Size := Char.utf8Size_pos symbol
      simp only [byteLength, asBytes, List.flatMap_cons, List.length_append,
        String.length_utf8EncodeChar, List.length_cons] at induction ⊢
      omega

/-! ## Errors -/

/-- What went wrong, with the values the message shows. -/
inductive Error where
  -- narinfo.rs
  | malformedLine (line : Str)
  | fileSize (kind : Decimal.ParseIntError)
  | narSize (kind : Decimal.ParseIntError)
  | missingStorePath
  | missingNarHash
  | storePathHasNoSlash
  | malformedSigEntry (entry : Str)
  | decodeSig
  | sigKeyName (name expected : Str)
  | sigLength
  | decodePubkey
  | pubkeyLength
  | badVerifyingKey
  | edVerification
  -- hybrid.rs
  | signerLength (length : Nat)
  | invalidSigningKey
  | invalidEdVerifyingKey
  | edHalfVerification
  | mlVerifyingKeyLength
  | mlSignatureLength
  | mlSignatureUndecodable
  | mlHalfVerification
  -- keys.rs
  | readingSecretKey (path : Str)
  | emptySecretKeyFile
  | secretKeyFileName (cause : Error)
  | missingKeyMaterial
  | decodeSecretKey
  | badSecretKey (cause : Error)
  | readingPublicKey (path : Str)
  | emptyPublicKeyFile
  | publicKeyFileName (cause : Error)
  | missingEdLine
  | missingMlLine
  | expectedEdPrefix
  | expectedMlPrefix
  | decodeEdPubkey
  | edPubkeyLength
  | decodeMlPubkey
  | mlPubkeyLength (length : Nat)
  | emptyKeyName
  | keyNameTooLong (length : Nat)
  | keyNameDots
  | keyNameSymbols (name : Str)
  | unknownAlgorithmTag (tag : UInt8)
  | emptySigPqcEntry
  | sigPqcLength (length : Nat)
  | noSigCandidate (keyname : Str)
  | noSigPqcCandidate (keyname : Str)
  | noSigVerified (keyname : Str) (tried : Nat)
  | noSigPqcVerified (keyname : Str) (tried : Nat)
  -- main.rs
  | noVerificationRequested
  | classicalRejected
  | hybridRejected (name : Str)
  | requirePqcUnmet
  -- proxy.rs
  | bodyTooLong (cap : Nat)
  | upstreamNotUtf8 (cause : Utf8Error)
  | upstreamRejected (hash : Str)
  -- the operating system and the HTTP client
  | io (path : Str)
  | http
  deriving DecidableEq

abbrev Result := Except Error

/-- `Option::ok_or_else` and `Option::context`. -/
def okOr {α : Type} (cause : Error) : Option α → Result α
  | some value => .ok value
  | none => .error cause

theorem okOr_eq_ok_iff {α : Type} {cause : Error} {option : Option α}
    {value : α} :
    okOr cause option = .ok value ↔ option = some value := by
  cases option with
  | none => simp [okOr]
  | some other => simp [okOr]

theorem mapError_eq_ok_iff {α : Type} {context : Error → Error}
    {result : Result α} {value : α} :
    result.mapError context = .ok value ↔ result = .ok value := by
  cases result with
  | error cause => simp [Except.mapError]
  | ok other => simp [Except.mapError]

namespace Error

open Decimal.ParseIntError

/-- The message of `core::num::ParseIntError`. -/
def parseIntMessage : Decimal.ParseIntError → Str
  | empty => "cannot parse integer from empty string".toList
  | invalidDigit => "invalid digit found in string".toList
  | posOverflow => "number too large to fit in target type".toList

/-- A number as `{}` prints it. -/
def number (value : Nat) : Str :=
  Nat.toDigits 10 value

/-- The message of `core::str::Utf8Error`. -/
def utf8Message (cause : Utf8Error) : Str :=
  match cause.errorLen with
  | some length =>
      "invalid utf-8 sequence of ".toList ++ number length ++
        " bytes from index ".toList ++ number cause.validUpTo
  | none =>
      "incomplete utf-8 byte sequence from index ".toList ++
        number cause.validUpTo

/--
The message printed by `{:#}`, outermost context first.

`debug` is the `{:?}` formatting of a string.  Where the source appends the
text of a library's own error, the message ends in the crate's part.
-/
def message (debug : Str → Str) : Error → Str
  | malformedLine line => "malformed narinfo line: ".toList ++ debug line
  | fileSize kind => "FileSize: ".toList ++ parseIntMessage kind
  | narSize kind => "NarSize: ".toList ++ parseIntMessage kind
  | missingStorePath => "narinfo missing StorePath".toList
  | missingNarHash => "narinfo missing NarHash".toList
  | storePathHasNoSlash => "StorePath has no '/'".toList
  | malformedSigEntry entry => "malformed sig entry: ".toList ++ debug entry
  | decodeSig => "base64 decode sig".toList
  | sigKeyName name expected =>
      "Sig: key name ".toList ++ debug name ++
        " does not match expected ".toList ++ debug expected
  | sigLength => "ed25519 signature is not 64 bytes".toList
  | decodePubkey => "base64 decode pubkey".toList
  | pubkeyLength => "ed25519 public key is not 32 bytes".toList
  | badVerifyingKey => "bad verifying key: ".toList
  | edVerification => "ed25519 signature verification failed: ".toList
  | signerLength length =>
      "signer bytes are ".toList ++ number length ++
        " bytes, expected exactly 64".toList
  | invalidSigningKey => "invalid ML-DSA signing key".toList
  | invalidEdVerifyingKey => "invalid Ed25519 verifying key: ".toList
  | edHalfVerification => "Ed25519 signature verification failed: ".toList
  | mlVerifyingKeyLength => "invalid ML-DSA verifying key length".toList
  | mlSignatureLength => "invalid ML-DSA signature length".toList
  | mlSignatureUndecodable => "undecodable ML-DSA signature".toList
  | mlHalfVerification => "ML-DSA signature verification failed: ".toList
  | readingSecretKey path => "reading secret key ".toList ++ debug path
  | emptySecretKeyFile => "empty secret key file".toList
  | secretKeyFileName cause =>
      "secret key file has an invalid name: ".toList ++ message debug cause
  | missingKeyMaterial => "secret key file missing key material line".toList
  | decodeSecretKey => "base64 decode secret key".toList
  | badSecretKey cause => "bad secret key: ".toList ++ message debug cause
  | readingPublicKey path => "reading public key ".toList ++ debug path
  | emptyPublicKeyFile => "empty public key file".toList
  | publicKeyFileName cause =>
      "public key file has an invalid name: ".toList ++ message debug cause
  | missingEdLine => "public key file missing ed25519 line".toList
  | missingMlLine => "public key file missing ml-dsa-65 line".toList
  | expectedEdPrefix => "expected 'ed25519:' prefix".toList
  | expectedMlPrefix => "expected 'ml-dsa-65:' prefix".toList
  | decodeEdPubkey => "base64 decode ed25519 pubkey".toList
  | edPubkeyLength => "ed25519 public key is not 32 bytes".toList
  | decodeMlPubkey => "base64 decode ml-dsa pubkey".toList
  | mlPubkeyLength length =>
      "ML-DSA-65 public key is ".toList ++ number length ++
        " bytes, expected exactly 1952".toList
  | emptyKeyName => "key name must not be empty".toList
  | keyNameTooLong length =>
      "key name must be at most 128 characters, got ".toList ++ number length
  | keyNameDots => "key name must not be '.' or '..'".toList
  | keyNameSymbols name =>
      "key name ".toList ++ debug name ++
        " must contain only ASCII letters, digits, '.', '_', or '-'".toList
  | unknownAlgorithmTag tag =>
      "unknown Sig-PQC algorithm tag ".toList ++ number tag.toNat ++
        "; this build only understands MlDsa65 (tag 1)".toList
  | emptySigPqcEntry => "empty Sig-PQC entry".toList
  | sigPqcLength length =>
      "Sig-PQC ML-DSA-65 signature is ".toList ++ number length ++
        " bytes, expected exactly 3309".toList
  | noSigCandidate keyname =>
      "no valid Sig: candidate for key '".toList ++ keyname ++
        "' to pair with Sig-PQC".toList
  | noSigPqcCandidate keyname =>
      "no valid Sig-PQC: candidate for key '".toList ++ keyname ++ ['\'']
  | noSigVerified keyname tried =>
      "no Sig: candidate for key '".toList ++ keyname ++
        "' verified against the classical half (".toList ++ number tried ++
          " candidate(s) tried)".toList
  | noSigPqcVerified keyname tried =>
      "no Sig-PQC: candidate for key '".toList ++ keyname ++
        "' verified against the ML-DSA half (".toList ++ number tried ++
          " candidate(s) tried)".toList
  | noVerificationRequested =>
      ("no verification requested: pass --pubkey and/or --pqc-pubkey " ++
        "(verify with neither would otherwise report success " ++
          "without checking anything)").toList
  | classicalRejected =>
      ("no Sig: line verified against the given " ++
        "classical public key").toList
  | hybridRejected name =>
      ("no Sig-PQC: line verified against the given " ++
        "hybrid public key (name ").toList ++ debug name ++ [')']
  | requirePqcUnmet =>
      "--require-pqc set but no valid Sig-PQC was found".toList
  | bodyTooLong cap =>
      "upstream response body exceeded the ".toList ++ number cap ++
        "-byte cap".toList
  | upstreamNotUtf8 cause =>
      "upstream narinfo is not valid UTF-8: ".toList ++ utf8Message cause
  | upstreamRejected hash =>
      ("upstream Sig did not verify against the configured " ++
        "upstream_pubkey for ").toList ++ hash
  | io _ => []
  | http => []

end Error

end NixPqcCache.Data
