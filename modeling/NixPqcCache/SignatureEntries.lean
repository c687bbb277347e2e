import NixPqcCache.Commands
import NixPqcCache.Foundation.Joined
import NixPqcCache.Foundation.Runs
import NixPqcCache.KeyFiles
import NixPqcCache.NarinfoRoundTrip

/-!
# Signature entries

An entry is `name:base64`.  Both decoders read exactly the entries that the
encoders write, so an entry stands for one name and one byte string, and the
prefix test `name:` selects exactly the entries of that name.
-/

namespace NixPqcCache.SignatureEntries

open NixPqcCache.Commands
open NixPqcCache.Data
open NixPqcCache.Foundation
open NixPqcCache.Hybrid
open NixPqcCache.KeyFiles
open NixPqcCache.Keys
open NixPqcCache.Narinfo
open NixPqcCache.NarinfoRoundTrip

/-! ## Entries and names -/

/-- The entry that shows some bytes under a name. -/
def entryOf (name : Str) (bytes : Bytes) : Str :=
  name ++ ':' :: Base64.encode bytes

theorem encodeSigPqc_eq_entryOf (name : Str) (mlDsaSig : Bytes) :
    encodeSigPqc name mlDsaSig =
      entryOf name (SigPqcAlgorithm.mlDsa65.tag :: mlDsaSig) := by
  simp [encodeSigPqc, entryOf]

theorem sigEntry_eq_entryOf (name : Str) (sig : HybridSignature) :
    sigEntry name sig = entryOf name sig.ed25519.toList := by
  simp [sigEntry, entryOf]

/-- The prefix test finds the name of an entry, and no other name. -/
theorem isPrefixOf_entryOf_iff {name other : Str} (clean : ':' ∉ other)
    (bytes : Bytes) :
    (name ++ [':']).isPrefixOf (entryOf other bytes) = true ↔
      name = other := by
  rw [List.isPrefixOf_iff_prefix]
  constructor
  · rintro ⟨suffix, equal⟩
    have colons := congrArg (List.count ':') equal
    have material : ':' ∉ Base64.encode bytes :=
      Base64.not_mem_encode (by decide) (by decide)
    simp only [entryOf, List.count_append, List.count_cons,
      List.count_eq_zero.mpr clean, List.count_eq_zero.mpr material,
      List.count_nil] at colons
    have nameClean : ':' ∉ name :=
      List.count_eq_zero.mp (by simp at colons; omega)
    have split : name ++ ':' :: suffix = other ++ ':' :: Base64.encode bytes :=
      by simpa [entryOf] using equal
    exact (Joined.append_cons_injective nameClean clean split).1
  · rintro rfl
    exact ⟨Base64.encode bytes, by simp [entryOf]⟩

theorem entryOf_ne_nil (name : Str) (bytes : Bytes) :
    entryOf name bytes ≠ [] := by
  simp [entryOf]

/-- An entry fits on a line when its name does. -/
theorem clean_entryOf {name : Str} (newline : '\n' ∉ name)
    (return_ : '\r' ∉ name) (bytes : Bytes) : Clean (entryOf name bytes) := by
  constructor
  · simp [entryOf, newline, encode_newline]
  · apply getLast?_ne_of_not_mem
    simp [entryOf, return_, encode_return]

/-! ## Decoding -/

theorem parseSigEntry_entryOf {name : Str} (clean : ':' ∉ name)
    (bytes : Bytes) :
    parseSigEntry (entryOf name bytes) = .ok (name, bytes) := by
  have split : Text.splitOnce [':'] (entryOf name bytes) =
      some (name, Base64.encode bytes) :=
    Text.splitOnce_singleton_eq_some_iff.mpr ⟨rfl, clean⟩
  simp [parseSigEntry, split, Base64.decode_encode]

theorem parseSigEntry_sigEntry {name : Str} (clean : ':' ∉ name)
    (sig : HybridSignature) :
    parseSigEntry (sigEntry name sig) = .ok (name, sig.ed25519.toList) := by
  rw [sigEntry_eq_entryOf]
  exact parseSigEntry_entryOf clean _

theorem eq_entryOf_of_parseSigEntry {entry name : Str} {bytes : Bytes}
    (parsed : parseSigEntry entry = .ok (name, bytes)) :
    entry = entryOf name bytes ∧ ':' ∉ name := by
  rw [parseSigEntry] at parsed
  split at parsed
  next => cases parsed
  next first b64 found =>
    split at parsed
    next => cases parsed
    next decodedBytes decoded =>
      cases parsed
      rcases Text.splitOnce_singleton_eq_some_iff.mp found with
        ⟨rfl, clean⟩
      rw [Base64.decode_eq_some_iff.mp decoded]
      exact ⟨rfl, clean⟩

/-- `parse_sig_entry` reads exactly the entries of names without a colon. -/
theorem parseSigEntry_eq_ok_iff {entry name : Str} {bytes : Bytes} :
    parseSigEntry entry = .ok (name, bytes) ↔
      entry = entryOf name bytes ∧ ':' ∉ name := by
  constructor
  · exact eq_entryOf_of_parseSigEntry
  · rintro ⟨rfl, clean⟩
    exact parseSigEntry_entryOf clean bytes

theorem decodeSigPqc_encodeSigPqc {name : Str} {mlDsaSig : Bytes}
    (clean : ':' ∉ name) (length : mlDsaSig.length = mlDsa65SignatureLen) :
    decodeSigPqc (encodeSigPqc name mlDsaSig) =
      .ok (name, .mlDsa65, mlDsaSig) := by
  rw [decodeSigPqc, encodeSigPqc_eq_entryOf, parseSigEntry_entryOf clean]
  simp [bind, Except.bind, SigPqcAlgorithm.fromTag, SigPqcAlgorithm.tag,
    length]

theorem eq_encodeSigPqc_of_decodeSigPqc {entry name : Str}
    {algorithm : SigPqcAlgorithm} {mlDsaSig : Bytes}
    (decoded : decodeSigPqc entry = .ok (name, algorithm, mlDsaSig)) :
    entry = encodeSigPqc name mlDsaSig ∧ ':' ∉ name ∧
      mlDsaSig.length = mlDsa65SignatureLen := by
  rcases Runs.bind_eq_ok_iff.mp decoded with
    ⟨⟨first, bytes⟩, parsed, tagged⟩
  rcases eq_entryOf_of_parseSigEntry parsed with ⟨rfl, clean⟩
  cases bytes with
  | nil => cases tagged
  | cons tag rest =>
      rcases Runs.bind_eq_ok_iff.mp tagged with ⟨known, tagEq, checked⟩
      rw [SigPqcAlgorithm.fromTag, Runs.ite_ok_eq_ok_iff] at tagEq
      rcases tagEq with ⟨rfl, rfl⟩
      rcases Runs.ite_error_eq_ok_iff.mp checked with ⟨exact, equal⟩
      cases equal
      rw [encodeSigPqc_eq_entryOf]
      exact ⟨rfl, clean, not_not.mp exact⟩

/-- `decode_sig_pqc` reads exactly what `encode_sig_pqc` writes. -/
theorem decodeSigPqc_eq_ok_iff {entry name : Str}
    {algorithm : SigPqcAlgorithm} {mlDsaSig : Bytes} :
    decodeSigPqc entry = .ok (name, algorithm, mlDsaSig) ↔
      entry = encodeSigPqc name mlDsaSig ∧ ':' ∉ name ∧
        mlDsaSig.length = mlDsa65SignatureLen := by
  constructor
  · exact eq_encodeSigPqc_of_decodeSigPqc
  · rintro ⟨rfl, clean, length⟩
    cases algorithm
    exact decodeSigPqc_encodeSigPqc clean length

/-! ## The grammar -/

theorem entryOf_eq_append (name : Str) (bytes : Bytes) :
    entryOf name bytes = name ++ [':'] ++ Base64.encode bytes := by
  simp [entryOf]

/--
Both decoders accept exactly what the encoders write for a name without a
colon.  An entry therefore decodes to what was encoded, and whatever an entry
decodes to has no other entry.
-/
theorem entry_codecs_exact :
    (∀ entry name mlDsaSig,
      decodeSigPqc entry = .ok (name, .mlDsa65, mlDsaSig) ↔
        ':' ∉ name ∧ mlDsaSig.length = mlDsa65SignatureLen ∧
          entry = encodeSigPqc name mlDsaSig) ∧
      (∀ entry name bytes,
        parseSigEntry entry = .ok (name, bytes) ↔
          ':' ∉ name ∧ entry = name ++ [':'] ++ Base64.encode bytes) ∧
      (∀ name mlDsaSig, ':' ∉ name →
        mlDsaSig.length = mlDsa65SignatureLen →
          decodeSigPqc (encodeSigPqc name mlDsaSig) =
            .ok (name, .mlDsa65, mlDsaSig)) ∧
      (∀ name sig, ':' ∉ name →
        parseSigEntry (sigEntry name sig) =
          .ok (name, sig.ed25519.toList)) ∧
      (∀ left right decoded, decodeSigPqc left = .ok decoded →
        decodeSigPqc right = .ok decoded → left = right) ∧
      ∀ left right parsed, parseSigEntry left = .ok parsed →
        parseSigEntry right = .ok parsed → left = right := by
  refine ⟨?_, ?_, ?_, ?_, ?_, ?_⟩
  · intro entry name mlDsaSig
    rw [decodeSigPqc_eq_ok_iff, and_comm, and_assoc]
  · intro entry name bytes
    rw [parseSigEntry_eq_ok_iff, entryOf_eq_append, and_comm]
  · intro name mlDsaSig clean length
    exact decodeSigPqc_encodeSigPqc clean length
  · intro name sig clean
    exact parseSigEntry_sigEntry clean sig
  · rintro left right ⟨name, algorithm, mlDsaSig⟩ decoded otherDecoded
    rw [(eq_encodeSigPqc_of_decodeSigPqc decoded).1,
      (eq_encodeSigPqc_of_decodeSigPqc otherDecoded).1]
  · rintro left right ⟨name, bytes⟩ parsed otherParsed
    rw [(eq_entryOf_of_parseSigEntry parsed).1,
      (eq_entryOf_of_parseSigEntry otherParsed).1]

/-- A signature of zeros under a name of one symbol. -/
theorem entry_codecs_exact_sample :
    decodeSigPqc (encodeSigPqc ['k'] (List.replicate mlDsa65SignatureLen 0)) =
      .ok (['k'], .mlDsa65, List.replicate mlDsa65SignatureLen 0) := by
  rcases entry_codecs_exact with ⟨-, -, decodes, -⟩
  exact decodes ['k'] _ (by decide) (List.length_replicate ..)

/-! ## The classical check -/

/-- A `--pubkey` argument with a name has the form of an entry. -/
theorem parseNamedPubkey_entryOf {name : Str} (clean : ':' ∉ name)
    (bytes : Bytes) :
    parseNamedPubkey (entryOf name bytes) =
      (some name, Base64.encode bytes) := by
  have split : Text.splitOnce [':'] (entryOf name bytes) =
      some (name, Base64.encode bytes) :=
    Text.splitOnce_singleton_eq_some_iff.mpr ⟨rfl, clean⟩
  simp [parseNamedPubkey, split]

theorem checkSigName_eq_ok_iff {name : Str} {expectedName : Option Str} :
    checkSigName name expectedName = .ok () ↔
      ∀ expected ∈ expectedName, name = expected := by
  cases expectedName with
  | none => simp [checkSigName]
  | some expected =>
      rw [checkSigName]
      split
      next different => simp [different]
      next same => simp [not_not.mp same]

variable {Rand : Type} {primitives : Primitives Rand}

/-- The classical check accepts an entry of the expected name that verifies. -/
theorem verifyEd25519Sig_eq_ok_iff {fingerprint entry pubkeyB64 : Str}
    {expectedName : Option Str} :
    verifyEd25519Sig primitives fingerprint entry expectedName pubkeyB64 =
        .ok () ↔
      ∃ name sig, entry = entryOf name (List.Vector.toList sig) ∧
        ':' ∉ name ∧ (∀ expected ∈ expectedName, name = expected) ∧
          ∃ key, Base64.decode pubkeyB64 = some (List.Vector.toList key) ∧
            verifyEd25519Only primitives key (asBytes fingerprint) sig =
              .ok () := by
  simp only [verifyEd25519Sig, Runs.bind_eq_ok_iff, okOr_eq_ok_iff,
    Prod.exists, tryIntoArray_eq_some_iff, verifyEd25519Only_eq_ok_iff,
    parseSigEntry_eq_ok_iff]
  constructor
  · rintro ⟨name, bytes, ⟨entryEq, clean⟩, ⟨⟩, named, sig, rfl, keyBytes,
      decoded, key, rfl, checked⟩
    refine ⟨name, sig, entryEq, clean, checkSigName_eq_ok_iff.mp named, key,
      decoded, ?_⟩
    split at checked
    next valid =>
      exact ⟨valid, (Runs.ite_ok_eq_ok_iff.mp checked).1⟩
    next => cases checked
  · rintro ⟨name, sig, entryEq, clean, named, key, decoded, valid, verified⟩
    refine ⟨name, sig.toList, ⟨entryEq, clean⟩, (),
      checkSigName_eq_ok_iff.mpr named, sig, rfl, key.toList, decoded, key,
      rfl, ?_⟩
    rw [if_pos valid, if_pos verified]

end NixPqcCache.SignatureEntries
