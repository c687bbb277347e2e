import NixPqcCache.ProxyAnswers

/-!
# How long a narinfo is

A signature is as long as every other one of its kind, and so is its base64.
A pair of entries therefore makes a narinfo longer by a number of bytes that
only depends on the name, and a list of pairs by the sum of these numbers.
-/

namespace NixPqcCache.NarinfoLengths

open NixPqcCache.Commands
open NixPqcCache.Data
open NixPqcCache.Foundation
open NixPqcCache.Hybrid
open NixPqcCache.HybridCandidates
open NixPqcCache.Keys
open NixPqcCache.Narinfo
open NixPqcCache.Proxy
open NixPqcCache.SignatureEntries

/-! ## Lines -/

theorem byteLength_append (left right : Str) :
    byteLength (left ++ right) = byteLength left + byteLength right := by
  rw [byteLength, asBytes_append, List.length_append]
  rfl

/-- Encoded bytes are one byte for each digit. -/
theorem byteLength_encode (bytes : Bytes) :
    byteLength (Base64.encode bytes) = (bytes.length + 2) / 3 * 4 := by
  have ascii : ('=' :: Base64.alphabet).all
      (fun symbol => symbol.utf8Size == 1) = true := rfl
  have lengths : ∀ text : Str, (∀ symbol ∈ text, symbol.utf8Size = 1) →
      byteLength text = text.length := by
    intro text single
    induction text with
    | nil => rfl
    | cons symbol rest induction =>
        rw [List.forall_mem_cons] at single
        rw [List.length_cons, ← induction single.2, byteLength, asBytes,
          List.flatMap_cons, List.length_append,
          String.length_utf8EncodeChar, single.1, Nat.add_comm]
        rfl
  rw [lengths, Base64.length_encode]
  intro symbol member
  apply eq_of_beq
  apply List.all_eq_true.mp ascii symbol
  rcases Base64.mem_encode member with digit | rfl
  · exact List.mem_cons_of_mem _ digit
  · exact List.mem_cons_self

theorem byteLength_entryOf (name : Str) (bytes : Bytes) :
    byteLength (entryOf name bytes) =
      byteLength name + 1 + (bytes.length + 2) / 3 * 4 := by
  have split : entryOf name bytes = name ++ [':'] ++ Base64.encode bytes := by
    simp [entryOf]
  rw [split, byteLength_append, byteLength_append, byteLength_encode]
  rfl

theorem byteLength_formatLine (key value : Str) :
    byteLength (NarInfo.formatLine key value) =
      byteLength key + byteLength value + 3 := by
  have separators : byteLength ": ".toList = 2 ∧ byteLength ['\n'] = 1 := by
    decide
  rw [NarInfo.formatLine, byteLength_append, byteLength_append,
    byteLength_append,
    separators.1, separators.2]
  omega

/-! ## A pair of lines -/

/-- The bytes of a `Sig` and a `Sig-PQC` line of a name. -/
def pairLength (name : Str) : Nat :=
  4522 + 2 * byteLength name

variable {Rand : Type} {primitives : Primitives Rand}

theorem byteLength_reSign (secret : SecretKey) (rand : Rand)
    (info : NarInfo) (fingerprint : Str) :
    byteLength (reSign primitives secret rand info fingerprint).toText =
      byteLength info.toText + pairLength secret.name := by
  have sig (signature : HybridSignature) :
      byteLength (NarInfo.formatLine Field.sig.key
        (sigEntry secret.name signature)) =
        95 + byteLength secret.name := by
    have key : byteLength Field.sig.key = 3 := by decide
    have digits : (ed25519SignatureLen + 2) / 3 * 4 = 88 := rfl
    rw [byteLength_formatLine, sigEntry_eq_entryOf, byteLength_entryOf,
      List.Vector.toList_length, key, digits]
    omega
  have sigPqc (signature : Bytes)
      (length : signature.length = mlDsa65SignatureLen) :
      byteLength (NarInfo.formatLine Field.sigPqc.key
        (encodeSigPqc secret.name signature)) =
        4427 + byteLength secret.name := by
    have key : byteLength Field.sigPqc.key = 7 := by decide
    have digits : (signature.length + 1 + 2) / 3 * 4 = 4416 := by
      rw [length]
      rfl
    rw [byteLength_formatLine, encodeSigPqc_eq_entryOf, byteLength_entryOf,
      List.length_cons, key, digits]
    omega
  simp only [NarInfo.toText, reSign, List.flatMap_append, List.flatMap_cons,
    List.flatMap_nil, List.append_nil, byteLength_append, sig,
    sigPqc _ (length_mlDsa_sign primitives _ _ _), pairLength]
  omega

/-! ## Pairs of several signers -/

section Signers

variable {Signer : Type} (secret : Signer → SecretKey)
  (rand : Signer → Rand)

/-- Each signer appends one pair, in their order. -/
theorem foldl_reSign_eq (fingerprint : Str) (info : NarInfo)
    (signers : List Signer) :
    signers.foldl (fun info signer =>
        reSign primitives (secret signer) (rand signer) info fingerprint)
        info =
      { info with
        sigs := info.sigs ++ signers.map fun signer =>
          sigEntry (secret signer).name ((secret signer).signer.sign
            primitives (rand signer) (asBytes fingerprint))
        sigPqc := info.sigPqc ++ signers.map fun signer =>
          encodeSigPqc (secret signer).name ((secret signer).signer.sign
            primitives (rand signer) (asBytes fingerprint)).mlDsa } := by
  induction signers generalizing info with
  | nil => simp
  | cons signer signers induction =>
      rw [List.foldl_cons, induction]
      simp [reSign]

theorem byteLength_foldl_reSign (fingerprint : Str) (info : NarInfo)
    (signers : List Signer) :
    byteLength (signers.foldl (fun info signer =>
        reSign primitives (secret signer) (rand signer) info fingerprint)
        info).toText =
      byteLength info.toText +
        (signers.map fun signer => pairLength (secret signer).name).sum := by
  induction signers generalizing info with
  | nil => rw [List.foldl_nil, List.map_nil, List.sum_nil, Nat.add_zero]
  | cons signer signers induction =>
      rw [List.foldl_cons, induction, byteLength_reSign, List.map_cons,
        List.sum_cons, Nat.add_assoc]

end Signers

end NixPqcCache.NarinfoLengths
