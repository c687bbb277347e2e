import NixPqcCache.Foundation.Runs
import NixPqcCache.Keys

/-!
# Key names and key files

A validated name contains none of the symbols that structure a narinfo or a
key file.  A public key file therefore reads back as the key that was saved,
and whatever is loaded has a validated name and keys of the exact lengths.
-/

namespace NixPqcCache.KeyFiles

open NixPqcCache.Data
open NixPqcCache.Filesystem
open NixPqcCache.Foundation
open NixPqcCache.Hybrid
open NixPqcCache.Keys

/-! ## Names -/

/-- What `validate_key_name` checks. -/
theorem validateKeyName_eq_ok_iff {name : Str} :
    validateKeyName name = .ok () ↔
      name ≠ [] ∧ byteLength name ≤ 128 ∧ name ≠ ".".toList ∧
        name ≠ "..".toList ∧
          ∀ symbol ∈ name, isKeyNameSymbol symbol = true := by
  simp only [validateKeyName, Runs.ite_error_eq_ok_iff,
    Runs.ite_ok_eq_ok_iff, Nat.not_lt, not_or, List.all_eq_true, and_true,
    and_assoc, ne_eq]

/-- A symbol that names may not contain is not in a validated name. -/
theorem not_mem_of_validateKeyName {name : Str} {symbol : Char}
    (valid : validateKeyName name = .ok ())
    (excluded : isKeyNameSymbol symbol = false) : symbol ∉ name := by
  intro member
  have allowed := (validateKeyName_eq_ok_iff.mp valid).2.2.2.2 symbol member
  rw [excluded] at allowed
  cases allowed

theorem colon_not_mem {name : Str}
    (valid : validateKeyName name = .ok ()) : ':' ∉ name :=
  not_mem_of_validateKeyName valid (by decide)

theorem newline_not_mem {name : Str}
    (valid : validateKeyName name = .ok ()) : '\n' ∉ name :=
  not_mem_of_validateKeyName valid (by decide)

theorem return_not_mem {name : Str}
    (valid : validateKeyName name = .ok ()) : '\r' ∉ name :=
  not_mem_of_validateKeyName valid (by decide)

/-! ## Lines of a key file -/

/-- A line ending that a key file's lines do not contain. -/
theorem encode_newline (bytes : Bytes) : '\n' ∉ Base64.encode bytes :=
  Base64.not_mem_encode (by decide) (by decide)

theorem encode_return (bytes : Bytes) : '\r' ∉ Base64.encode bytes :=
  Base64.not_mem_encode (by decide) (by decide)

theorem getLast?_ne_of_not_mem {text : Str} {symbol : Char}
    (fresh : symbol ∉ text) : text.getLast? ≠ some symbol :=
  fun last => fresh (List.mem_of_getLast? last)

/-- A tagged line of a public key file. -/
theorem lines_tagged {tag : Str} (newline : '\n' ∉ tag) (return_ : '\r' ∉ tag)
    (bytes : Bytes) (rest : Str) :
    Text.lines (tag ++ Base64.encode bytes ++ '\n' :: rest) =
      (tag ++ Base64.encode bytes) :: Text.lines rest := by
  apply Text.lines_append
  · simp [newline, encode_newline]
  · apply getLast?_ne_of_not_mem
    simp [return_, encode_return]

theorem dropPrefix?_eq_some_iff {text tag rest : Str} :
    text.dropPrefix? tag = some rest ↔ text = tag ++ rest := by
  simp only [List.dropPrefix?_eq_some_iff, beq_iff_eq, exists_eq_right]

/-! ## Secret keys -/

@[simp]
theorem length_toBytes (signer : HybridSigner) :
    signer.toBytes.length = hybridSecretKeyLen := by
  rw [HybridSigner.toBytes, List.length_append, signer.ed.toList_length,
    signer.mlDsa.toList_length]

/-- A signer is read from its own 64 bytes, and from no others. -/
theorem fromBytes_eq_ok_iff {bytes : Bytes} {signer : HybridSigner} :
    HybridSigner.fromBytes bytes = .ok signer ↔ bytes = signer.toBytes := by
  constructor
  · intro read
    rw [HybridSigner.fromBytes, Runs.ite_error_eq_ok_iff] at read
    rcases read with ⟨-, read⟩
    split at read
    next ed mlDsa edHalf mlHalf =>
      cases read
      rw [tryIntoArray_eq_some_iff] at edHalf mlHalf
      rw [HybridSigner.toBytes, edHalf, mlHalf, List.take_append_drop]
    next => cases read
  · rintro rfl
    have edHalf : signer.toBytes.take ed25519SecretKeyLen =
        signer.ed.toList :=
      List.take_left' signer.ed.toList_length
    have mlHalf : signer.toBytes.drop ed25519SecretKeyLen =
        signer.mlDsa.toList :=
      List.drop_left' signer.ed.toList_length
    rw [HybridSigner.fromBytes, if_neg (not_not.mpr (length_toBytes signer)),
      edHalf, mlHalf, tryIntoArray_toList, tryIntoArray_toList]

/-- What a secret key file that is loaded contains. -/
theorem loadSecretText_eq_ok_iff {text : Str} {secret : SecretKey} :
    SecretKey.loadText text = .ok secret ↔
      ∃ b64, (Text.lines text)[0]? = some secret.name ∧
        validateKeyName secret.name = .ok () ∧
          (Text.lines text)[1]? = some b64 ∧
            Base64.decode b64 = some secret.signer.toBytes := by
  simp only [SecretKey.loadText, Runs.bind_eq_ok_iff, okOr_eq_ok_iff,
    mapError_eq_ok_iff, fromBytes_eq_ok_iff, Except.ok.injEq]
  constructor
  · rintro ⟨name, nameLine, ⟨⟩, valid, b64, keyLine, bytes, decoded, signer,
      rfl, rfl⟩
    exact ⟨b64, nameLine, valid, keyLine, decoded⟩
  · rintro ⟨b64, nameLine, valid, keyLine, decoded⟩
    exact ⟨secret.name, nameLine, (), valid, b64, keyLine, _, decoded,
      secret.signer, rfl, rfl⟩

theorem lines_secretBody {secret : SecretKey}
    (valid : validateKeyName secret.name = .ok ()) :
    Text.lines secret.body =
      [secret.name, Base64.encode secret.signer.toBytes] := by
  have split : secret.body =
      secret.name ++ '\n' ::
        ([] ++ Base64.encode secret.signer.toBytes ++ '\n' :: []) := by
    simp [SecretKey.body]
  rw [split, Text.lines_append (newline_not_mem valid)
      (getLast?_ne_of_not_mem (return_not_mem valid)),
    lines_tagged (by decide) (by decide), Text.lines_nil, List.nil_append]

/-- A secret key file reads back as the key that was saved. -/
theorem loadText_secretBody {secret : SecretKey}
    (valid : validateKeyName secret.name = .ok ()) :
    SecretKey.loadText secret.body = .ok secret := by
  apply loadSecretText_eq_ok_iff.mpr
  rw [lines_secretBody valid]
  exact ⟨_, rfl, valid, rfl, Base64.decode_encode _⟩

/-- A loaded secret key has a validated name. -/
theorem valid_of_loadSecretText {text : Str} {secret : SecretKey}
    (loaded : SecretKey.loadText text = .ok secret) :
    validateKeyName secret.name = .ok () := by
  rcases loadSecretText_eq_ok_iff.mp loaded with ⟨b64, -, valid, -, -⟩
  exact valid

/-! ## Public keys -/

theorem lines_body {pk : PublicKey}
    (valid : validateKeyName pk.name = .ok ()) :
    Text.lines pk.body =
      [pk.name, "ed25519:".toList ++ Base64.encode pk.keys.ed25519.toList,
        "ml-dsa-65:".toList ++ Base64.encode pk.keys.mlDsa] := by
  have split : pk.body =
      pk.name ++ '\n' :: ("ed25519:".toList ++
        Base64.encode pk.keys.ed25519.toList ++ '\n' ::
          ("ml-dsa-65:".toList ++ Base64.encode pk.keys.mlDsa ++
            '\n' :: [])) := by
    simp [PublicKey.body]
  rw [split, Text.lines_append (newline_not_mem valid)
      (getLast?_ne_of_not_mem (return_not_mem valid)),
    lines_tagged (by decide) (by decide), lines_tagged (by decide) (by decide),
    Text.lines_nil]

/-- What a public key file that is loaded contains. -/
theorem loadText_eq_ok_iff {text : Str} {pk : PublicKey} :
    PublicKey.loadText text = .ok pk ↔
      ∃ edB64 mlB64, (Text.lines text)[0]? = some pk.name ∧
        validateKeyName pk.name = .ok () ∧
          (Text.lines text)[1]? = some ("ed25519:".toList ++ edB64) ∧
          (Text.lines text)[2]? = some ("ml-dsa-65:".toList ++ mlB64) ∧
            Base64.decode edB64 = some pk.keys.ed25519.toList ∧
            Base64.decode mlB64 = some pk.keys.mlDsa ∧
              pk.keys.mlDsa.length = mlDsa65PublicKeyLen := by
  simp only [PublicKey.loadText, Runs.bind_eq_ok_iff, okOr_eq_ok_iff,
    mapError_eq_ok_iff, Runs.ite_error_eq_ok_iff, dropPrefix?_eq_some_iff,
    tryIntoArray_eq_some_iff, Except.ok.injEq, not_not]
  constructor
  · rintro ⟨name, nameLine, ⟨⟩, valid, edLine, second, mlLine, third,
      edB64, rfl, mlB64, rfl, edBytes, edDecoded, ed25519, rfl, mlDsa,
      mlDecoded, length, rfl⟩
    exact ⟨edB64, mlB64, nameLine, valid, second, third, edDecoded,
      mlDecoded, length⟩
  · rintro ⟨edB64, mlB64, nameLine, valid, second, third, edDecoded,
      mlDecoded, length⟩
    exact ⟨pk.name, nameLine, (), valid, _, second, _, third, edB64, rfl,
      mlB64, rfl, _, edDecoded, pk.keys.ed25519, rfl, pk.keys.mlDsa,
      mlDecoded, length, rfl⟩

/-- A public key file reads back as the key that was saved. -/
theorem loadText_body {pk : PublicKey}
    (valid : validateKeyName pk.name = .ok ())
    (length : pk.keys.mlDsa.length = mlDsa65PublicKeyLen) :
    PublicKey.loadText pk.body = .ok pk := by
  apply loadText_eq_ok_iff.mpr
  rw [lines_body valid]
  exact ⟨_, _, rfl, valid, rfl, rfl, Base64.decode_encode _,
    Base64.decode_encode _, length⟩

/-- The public half of a secret key can be loaded from its file. -/
theorem loadText_publicKey_body {Rand : Type} (primitives : Primitives Rand)
    {secret : SecretKey} (valid : validateKeyName secret.name = .ok ()) :
    PublicKey.loadText (secret.publicKey primitives).body =
      .ok (secret.publicKey primitives) := by
  apply loadText_body
  · exact valid
  · simp [SecretKey.publicKey, HybridSigner.verifyingKeys]

/-- Loading yields a validated name and keys of the exact lengths. -/
theorem valid_of_loadText {text : Str} {pk : PublicKey}
    (loaded : PublicKey.loadText text = .ok pk) :
    validateKeyName pk.name = .ok () ∧
      pk.keys.mlDsa.length = mlDsa65PublicKeyLen := by
  rcases loadText_eq_ok_iff.mp loaded with
    ⟨edB64, mlB64, -, valid, -, -, -, -, length⟩
  exact ⟨valid, length⟩

theorem load_of_contents {files : FileSystem} {path text : Str}
    {pk : PublicKey} (contents : files path = some (asBytes text))
    (loaded : PublicKey.loadText text = .ok pk) :
    PublicKey.load files path = .ok pk := by
  rw [PublicKey.load, FileSystem.readToString_eq_some contents]
  exact loaded

theorem valid_of_load {files : FileSystem} {path : Str} {pk : PublicKey}
    (loaded : PublicKey.load files path = .ok pk) :
    validateKeyName pk.name = .ok () := by
  rcases Runs.bind_eq_ok_iff.mp loaded with ⟨text, -, read⟩
  exact (valid_of_loadText read).1

end NixPqcCache.KeyFiles
