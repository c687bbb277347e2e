import NixPqcCache.HybridCandidates

/-!
# The signature vectors

The example `generate_test_vectors` draws a key, signs a narinfo and writes
eight vectors, most of them with entries that were tampered with.  The test
`run_signature_vector` reads such a vector and compares the verdict of
`verify_hybrid` with the one that the vector expects.

The key and the signature are new at every run, so what the vectors expect has
to be right for all of them.  Where an entry was tampered with, its bytes are
what the generator says they are: of the same number but for the truncated
one, and not the signature that was made.
-/

namespace NixPqcCache.TestVectors

open NixPqcCache.Commands
open NixPqcCache.Data
open NixPqcCache.Foundation
open NixPqcCache.Hybrid
open NixPqcCache.HybridCandidates
open NixPqcCache.Keys
open NixPqcCache.Narinfo
open NixPqcCache.SignatureEntries

/-! ## Vectors -/

/-- The `narinfo_fields` of a vector. -/
structure NarinfoFields where
  storePath : Str
  narHash : Str
  narSize : UInt64
  references : List Str

/-- A signature vector, without its description. -/
structure SignatureVector where
  name : Str
  narinfoFields : NarinfoFields
  fingerprint : Str
  keyname : Str
  ed25519PublicKeyB64 : Str
  mlDsa65PublicKeyB64 : Str
  sigLines : List Str
  sigPqcLines : List Str
  hybridValid : Bool

/-! ## Tampering -/

/-- `flip_a_char`; the last ten bytes of an entry are ASCII. -/
def flipAChar (line : Str) : Str :=
  let mid := line.length - 10
  line.set mid (if line.getD mid 'B' = 'A' then 'B' else 'A')

/-- `flip_ed25519_byte`; where it panics there is no entry. -/
def flipEd25519Byte (sigLine : Str) : Option Str := do
  let (name, b64) ← Text.splitOnce [':'] sigLine
  match ← Base64.decode b64 with
  | [] => none
  | first :: rest =>
      some (name ++ [':'] ++ Base64.encode ((first ^^^ 0xFF) :: rest))

/-- `set_tag_byte`. -/
def setTagByte (sigPqcLine : Str) (tag : UInt8) : Option Str := do
  let (name, b64) ← Text.splitOnce [':'] sigPqcLine
  match ← Base64.decode b64 with
  | [] => none
  | _ :: rest => some (name ++ [':'] ++ Base64.encode (tag :: rest))

/-! ## The generator -/

variable {Rand : Type} (primitives : Primitives Rand)

/-- `write_signature_vector`. -/
def writeSignatureVector (name : Str) (info : NarInfo)
    (fingerprint keyname ed25519PubkeyB64 mlDsaPubkeyB64 : Str)
    (sigLines sigPqcLines : List Str) (hybridValid : Bool) :
    SignatureVector where
  name := name
  narinfoFields :=
    ⟨info.storePath, info.narHash, info.narSize, info.references⟩
  fingerprint := fingerprint
  keyname := keyname
  ed25519PublicKeyB64 := ed25519PubkeyB64
  mlDsa65PublicKeyB64 := mlDsaPubkeyB64
  sigLines := sigLines.map fun v => "Sig: ".toList ++ v
  sigPqcLines := sigPqcLines.map fun v => "Sig-PQC: ".toList ++ v
  hybridValid := hybridValid

/-- The vector whose verdict depends on the primitives. -/
def invalidMlDsa : Str := "sig-pqc-002-invalid-ml-dsa".toList

/-- The entries that the vectors are made of. -/
structure VectorEntries where
  sigLine : Str
  sigPqcLine : Str
  corruptedPqc : Str
  unknownTagPqc : Str
  corruptedSig : Str
  malformedBase64 : Str
  wrongSizePqc : Str
  futureTagPqc : Str

/-- The calls of `write_signature_vector`. -/
def VectorEntries.vectors (entries : VectorEntries)
    (write : Str → List Str → List Str → Bool → SignatureVector) :
    List SignatureVector :=
  [write "sig-pqc-001-valid".toList
      [entries.sigLine] [entries.sigPqcLine] true,
    write invalidMlDsa
      [entries.sigLine] [entries.corruptedPqc] false,
    write "sig-pqc-003-unknown-algorithm-tag".toList
      [entries.sigLine] [entries.unknownTagPqc] false,
    write "sig-pqc-004-missing-classical-pairing".toList
      [] [entries.sigPqcLine] false,
    write "sig-pqc-005-duplicate-invalid-first-valid-second".toList
      [entries.corruptedSig, entries.sigLine]
      [entries.corruptedPqc, entries.sigPqcLine] true,
    write "sig-pqc-006-malformed-base64".toList
      [entries.sigLine] [entries.malformedBase64] false,
    write "sig-pqc-007-wrong-size-ml-dsa-signature".toList
      [entries.sigLine] [entries.wrongSizePqc] false,
    write "sig-pqc-008-unknown-tag-then-valid".toList
      [entries.sigLine] [entries.futureTagPqc, entries.sigPqcLine] true]

/-- The entries for a signature; none where tampering panics. -/
def vectorEntries (name : Str) (sig : HybridSignature) :
    Option VectorEntries := do
  let sigLine := name ++ [':'] ++ Base64.encode sig.ed25519.toList
  let sigPqcLine := encodeSigPqc name sig.mlDsa
  let unknownTagPqc ← setTagByte sigPqcLine 99
  let corruptedSig ← flipEd25519Byte sigLine
  let futureTagPqc ← setTagByte sigPqcLine 250
  some {
    sigLine := sigLine
    sigPqcLine := sigPqcLine
    corruptedPqc := flipAChar sigPqcLine
    unknownTagPqc := unknownTagPqc
    corruptedSig := corruptedSig
    malformedBase64 := name ++ [':'] ++ "not-valid-base64!!!@@@###".toList
    wrongSizePqc := encodeSigPqc name (sig.mlDsa.take 100)
    futureTagPqc := futureTagPqc }

/-- `write_signature_vectors`, for a key that was drawn and a narinfo. -/
def writeSignatureVectors (key : SecretKey) (rand : Rand) (info : NarInfo) :
    Option (List SignatureVector) := do
  let fingerprint ← info.fingerprint.toOption
  let entries ← vectorEntries key.name
    (key.signer.sign primitives rand (asBytes fingerprint))
  let keys := (key.publicKey primitives).keys
  some (entries.vectors fun name => writeSignatureVector name info
    fingerprint key.name (Base64.encode keys.ed25519.toList)
      (Base64.encode keys.mlDsa))

/-! ## The test -/

/-- `narinfo_from_fields`. -/
def narinfoFromFields (fields : NarinfoFields) : NarInfo where
  storePath := fields.storePath
  narHash := fields.narHash
  narSize := fields.narSize
  references := fields.references

/-- `strip_prefix_all`. -/
def stripPrefixAll (lines : List Str) (pre : Str) : Option (List Str) :=
  lines.mapM fun v => v.dropPrefix? pre

/-- The verdict that `run_signature_vector` compares, unless it panics. -/
def actualVerdict (vector : SignatureVector) : Option Bool := do
  let info := narinfoFromFields vector.narinfoFields
  let fingerprint ← info.fingerprint.toOption
  if fingerprint ≠ vector.fingerprint then
    none
  else
    let ed25519 ← (Base64.decode vector.ed25519PublicKeyB64).bind
      (tryIntoArray ed25519PublicKeyLen)
    let mlDsa ← Base64.decode vector.mlDsa65PublicKeyB64
    let sigs ← stripPrefixAll vector.sigLines "Sig: ".toList
    let sigPqc ← stripPrefixAll vector.sigPqcLines "Sig-PQC: ".toList
    some (verifyHybrid primitives { info with sigs, sigPqc } fingerprint
      vector.keyname ⟨ed25519, mlDsa⟩).isOk

/-- `run_signature_vector` passes. -/
def runSignatureVector (vector : SignatureVector) : Bool :=
  actualVerdict primitives vector = some vector.hybridValid

/-! ## What is written is read -/

theorem stripPrefixAll_map (pre : Str) (values : List Str) :
    stripPrefixAll (values.map fun v => pre ++ v) pre = some values := by
  induction values with
  | nil => rfl
  | cons value values induction =>
      have cut : (pre ++ value).dropPrefix? pre = some value :=
        KeyFiles.dropPrefix?_eq_some_iff.mpr rfl
      rw [stripPrefixAll] at induction
      rw [List.map_cons, stripPrefixAll, List.mapM_cons, cut, induction]
      rfl

theorem fingerprint_narinfoFromFields (info : NarInfo) :
    (narinfoFromFields ⟨info.storePath, info.narHash, info.narSize,
      info.references⟩).fingerprint = info.fingerprint :=
  rfl

/-- The test compares the verdict on what was written. -/
theorem runSignatureVector_eq_true_iff {info : NarInfo}
    {fingerprint : Str} (computed : info.fingerprint = .ok fingerprint)
    (name keyname : Str) (keys : HybridVerifyingKeys)
    (sigs sigPqc : List Str) (hybridValid : Bool) :
    runSignatureVector primitives
        (writeSignatureVector name info fingerprint keyname
          (Base64.encode keys.ed25519.toList) (Base64.encode keys.mlDsa)
            sigs sigPqc hybridValid) = true ↔
      ((edAccepts primitives sigs fingerprint keyname keys = true ∧
          pqcAccepts primitives sigPqc fingerprint keyname keys = true) ↔
        hybridValid = true) := by
  have verdict (info : NarInfo) :
      (verifyHybrid primitives { info with sigs, sigPqc } fingerprint keyname
        keys).isOk = true ↔
          edAccepts primitives sigs fingerprint keyname keys = true ∧
            pqcAccepts primitives sigPqc fingerprint keyname keys = true :=
    Runs.isOk_eq_true_iff.trans (verifyHybrid_eq_ok_iff primitives)
  rw [← verdict (narinfoFromFields ⟨info.storePath, info.narHash,
    info.narSize, info.references⟩), runSignatureVector]
  simp only [actualVerdict, writeSignatureVector,
    fingerprint_narinfoFromFields, computed, Except.toOption,
    Base64.decode_encode, stripPrefixAll_map, Option.bind_eq_bind,
    Option.bind_some, tryIntoArray_toList, ne_eq, not_true_eq_false,
    if_false, Option.some.injEq, decide_eq_true_eq]
  exact Bool.eq_iff_iff

/-! ## What tampering makes of an entry -/

theorem setTagByte_encodeSigPqc {name : Str} (clean : ':' ∉ name)
    (mlDsaSig : Bytes) (tag : UInt8) :
    setTagByte (encodeSigPqc name mlDsaSig) tag =
      some (entryOf name (tag :: mlDsaSig)) := by
  have split : Text.splitOnce [':'] (encodeSigPqc name mlDsaSig) =
      some (name,
        Base64.encode (SigPqcAlgorithm.mlDsa65.tag :: mlDsaSig)) := by
    rw [encodeSigPqc_eq_entryOf]
    exact Text.splitOnce_singleton_eq_some_iff.mpr ⟨rfl, clean⟩
  simp [setTagByte, split, Base64.decode_encode, entryOf]

theorem exists_flipEd25519Byte {name : Str} (clean : ':' ∉ name)
    (sig : HybridSignature) :
    ∃ corrupted, flipEd25519Byte (sigEntry name sig) = some corrupted := by
  have split : Text.splitOnce [':'] (sigEntry name sig) =
      some (name, Base64.encode sig.ed25519.toList) := by
    rw [sigEntry_eq_entryOf]
    exact Text.splitOnce_singleton_eq_some_iff.mpr ⟨rfl, clean⟩
  have length : sig.ed25519.toList.length = ed25519SignatureLen :=
    sig.ed25519.toList_length
  cases bytes : sig.ed25519.toList with
  | nil =>
      rw [bytes] at length
      cases length
  | cons first rest =>
      simp [flipEd25519Byte, split, Base64.decode_encode, bytes]

/-- The character that is flipped is another one then. -/
theorem flipAChar_ne {line : Str} (long : 10 ≤ line.length) :
    flipAChar line ≠ line := by
  intro same
  have inside : line.length - 10 < line.length := by omega
  have flipped := congrArg (fun text => text.getD (line.length - 10) 'B')
    same
  simp only [flipAChar, List.getD_eq_getElem _ _ inside, List.length_set,
    inside, List.getD_eq_getElem, List.getElem_set_self] at flipped
  split at flipped
  next isA =>
    rw [isA] at flipped
    cases flipped
  next other => exact other flipped.symm

/-- The new character is a digit. -/
theorem exists_flipAChar_eq_set (line : Str) :
    ∃ symbol ∈ Base64.alphabet,
      flipAChar line = line.set (line.length - 10) symbol := by
  refine ⟨_, ?_, rfl⟩
  split
  next => decide
  next => decide

/-- The flipped character belongs to the signature, whose length it keeps. -/
theorem exists_flipAChar_encodeSigPqc (name : Str) {mlDsaSig : Bytes}
    (length : mlDsaSig.length = mlDsa65SignatureLen) :
    ∃ corrupted, flipAChar (encodeSigPqc name mlDsaSig) =
        encodeSigPqc name corrupted ∧
      corrupted.length = mlDsa65SignatureLen ∧ corrupted ≠ mlDsaSig := by
  let bytes := SigPqcAlgorithm.mlDsa65.tag :: mlDsaSig
  have line : encodeSigPqc name mlDsaSig =
      (name ++ [':']) ++ Base64.encode bytes := rfl
  have bytesLength : bytes.length = 3310 := congrArg (· + 1) length
  have encodedLength : (Base64.encode bytes).length = 4416 := by
    rw [Base64.length_encode, bytesLength]
  have lineLength : (encodeSigPqc name mlDsaSig).length =
      (name ++ [':']).length + 4416 := by
    rw [line, List.length_append, encodedLength]
  have different : flipAChar (encodeSigPqc name mlDsaSig) ≠
      encodeSigPqc name mlDsaSig := flipAChar_ne (by omega)
  rcases exists_flipAChar_eq_set (encodeSigPqc name mlDsaSig) with
    ⟨symbol, isDigit, flipped⟩
  -- The tenth digit from the end is in the last full group but one.
  have full : 4406 < bytes.length / 3 * 4 := by
    rw [bytesLength]
    decide
  rcases Base64.exists_encode_set bytes full isDigit with
    ⟨other, changed, otherLength, kept⟩
  have shown : flipAChar (encodeSigPqc name mlDsaSig) =
      (name ++ [':']) ++ Base64.encode other := by
    rw [flipped, lineLength, line, List.set_append_right _ _ (by omega),
      ← changed]
    congr 2
    omega
  cases other with
  | nil =>
      rw [bytesLength] at otherLength
      cases otherLength
  | cons tag corrupted =>
      have sameTag : tag = SigPqcAlgorithm.mlDsa65.tag :=
        List.head_eq_of_cons_eq kept
      subst tag
      refine ⟨corrupted, shown, ?_, ?_⟩
      · exact Nat.succ.inj (otherLength.trans (congrArg (· + 1) length))
      · rintro rfl
        exact different shown

/-! ## The vectors are right -/

/-- An entry with another tag holds no candidate. -/
theorem pqcCandidate_otherTag {name : Str} {tag : UInt8} (mlDsaSig : Bytes)
    (other : tag ≠ SigPqcAlgorithm.mlDsa65.tag) :
    pqcCandidate name (entryOf name (tag :: mlDsaSig)) = none := by
  rw [Option.eq_none_iff_forall_ne_some]
  intro candidate found
  have entry := (pqcCandidate_eq_some_iff.mp found).1
  rw [encodeSigPqc_eq_entryOf, entryOf, entryOf, List.append_cancel_left_eq,
    List.cons.injEq] at entry
  have bytes := Base64.decode_eq_some_iff.mpr entry.2
  rw [Base64.decode_encode, Option.some.injEq, List.cons.injEq] at bytes
  exact other bytes.1

/-- An entry with a character that is no digit holds no candidate. -/
theorem pqcCandidate_malformed {name b64 : Str} {symbol : Char}
    (member : symbol ∈ b64) (noDigit : symbol ∉ Base64.alphabet)
    (noPadding : symbol ≠ '=') :
    pqcCandidate name (name ++ [':'] ++ b64) = none := by
  rw [Option.eq_none_iff_forall_ne_some]
  intro candidate found
  have entry := (pqcCandidate_eq_some_iff.mp found).1
  rw [encodeSigPqc, List.append_cancel_left_eq] at entry
  rw [entry] at member
  exact (Base64.mem_encode member).elim noDigit noPadding

/-- An entry with bytes of another length holds no candidate. -/
theorem pqcCandidate_otherLength {name : Str} {mlDsaSig : Bytes}
    (other : mlDsaSig.length ≠ mlDsa65SignatureLen) :
    pqcCandidate name (encodeSigPqc name mlDsaSig) = none := by
  rw [Option.eq_none_iff_forall_ne_some]
  intro candidate found
  rcases pqcCandidate_eq_some_iff.mp found with ⟨entry, -, length⟩
  rw [encodeSigPqc, encodeSigPqc, List.append_cancel_left_eq] at entry
  have bytes := Base64.decode_eq_some_iff.mpr entry
  rw [Base64.decode_encode, Option.some.injEq, List.cons.injEq] at bytes
  exact other (bytes.2 ▸ length)

/-- The entries are made, and what was tampered with is known. -/
theorem vectorEntries_eq {name : Str} (clean : ':' ∉ name)
    {sig : HybridSignature}
    (length : sig.mlDsa.length = mlDsa65SignatureLen) :
    ∃ corruptedSig corrupted, corrupted.length = mlDsa65SignatureLen ∧
      corrupted ≠ sig.mlDsa ∧
        vectorEntries name sig = some {
          sigLine := sigEntry name sig
          sigPqcLine := encodeSigPqc name sig.mlDsa
          corruptedPqc := encodeSigPqc name corrupted
          unknownTagPqc := entryOf name (99 :: sig.mlDsa)
          corruptedSig := corruptedSig
          malformedBase64 :=
            name ++ [':'] ++ "not-valid-base64!!!@@@###".toList
          wrongSizePqc := encodeSigPqc name (sig.mlDsa.take 100)
          futureTagPqc := entryOf name (250 :: sig.mlDsa) } := by
  rcases exists_flipAChar_encodeSigPqc name length with
    ⟨corrupted, flipped, corruptedLength, different⟩
  rcases exists_flipEd25519Byte clean sig with ⟨corruptedSig, flippedSig⟩
  refine ⟨corruptedSig, corrupted, corruptedLength, different, ?_⟩
  rw [sigEntry] at flippedSig
  simp only [vectorEntries, setTagByte_encodeSigPqc clean, flippedSig,
    flipped, Option.bind_eq_bind, Option.bind_some, sigEntry]

theorem writeSignatureVectors_eq {key : SecretKey} {rand : Rand}
    {info : NarInfo} {fingerprint : Str} {entries : VectorEntries}
    (computed : info.fingerprint = .ok fingerprint)
    (made : vectorEntries key.name
      (key.signer.sign primitives rand (asBytes fingerprint)) =
        some entries) :
    writeSignatureVectors primitives key rand info =
      some (entries.vectors fun name =>
        writeSignatureVector name info fingerprint key.name
          (Base64.encode (key.publicKey primitives).keys.ed25519.toList)
            (Base64.encode (key.publicKey primitives).keys.mlDsa)) := by
  simp only [writeSignatureVectors, computed, Except.toOption, made,
    Option.bind_eq_bind, Option.bind_some]

section Verdicts

variable {primitives} {name fingerprint : Str} {keys : HybridVerifyingKeys}
  {sigs sigPqc : List Str}

theorem edAccepts_of_mem {sig : HybridSignature} (clean : ':' ∉ name)
    (few : sigs.length ≤ maxSigCandidates)
    (good : edGood primitives keys (asBytes fingerprint) sig.ed25519 = true)
    (member : sigEntry name sig ∈ sigs) :
    edAccepts primitives sigs fingerprint name keys = true :=
  (Candidates.accepts_filterMap_iff_of_few few).mpr
    ⟨_, member, _, edCandidate_sigEntry clean sig, good⟩

theorem pqcAccepts_of_mem {mlDsaSig : Bytes} (clean : ':' ∉ name)
    (length : mlDsaSig.length = mlDsa65SignatureLen)
    (few : sigPqc.length ≤ maxSigCandidates)
    (good : pqcGood primitives keys (asBytes fingerprint) mlDsaSig = true)
    (member : encodeSigPqc name mlDsaSig ∈ sigPqc) :
    pqcAccepts primitives sigPqc fingerprint name keys = true :=
  (Candidates.accepts_filterMap_iff_of_few few).mpr
    ⟨_, member, _, pqcCandidate_encodeSigPqc clean length, good⟩

theorem not_pqcAccepts_singleton {entry : Str}
    (none : pqcCandidate name entry = none) :
    ¬ pqcAccepts primitives [entry] fingerprint name keys = true := by
  rw [pqcAccepts, List.filterMap_cons_none none]
  simp [Candidates.accepts, Candidates.admitted, Candidates.distinct,
    Candidates.distinctFrom]

theorem pqcAccepts_singleton_iff {mlDsaSig : Bytes} (clean : ':' ∉ name)
    (length : mlDsaSig.length = mlDsa65SignatureLen) :
    pqcAccepts primitives [encodeSigPqc name mlDsaSig] fingerprint name
        keys = true ↔
      verifyMlDsaOnly primitives keys.mlDsa (asBytes fingerprint) mlDsaSig =
        .ok () := by
  have few : [encodeSigPqc name mlDsaSig].length ≤ maxSigCandidates := by
    rw [List.length_singleton]
    decide
  rw [pqcAccepts, Candidates.accepts_filterMap_iff_of_few few]
  simp [pqcCandidate_encodeSigPqc clean length, pqcGood,
    Runs.isOk_eq_true_iff]

/-- A vector with another name passes if its verdict is the expected one. -/
theorem passes_iff {info : NarInfo} {vectorName : Str} {hybridValid : Bool}
    {Rejected : Prop} (computed : info.fingerprint = .ok fingerprint)
    (other : vectorName ≠ invalidMlDsa)
    (verdict : (edAccepts primitives sigs fingerprint name keys = true ∧
      pqcAccepts primitives sigPqc fingerprint name keys = true) ↔
        hybridValid = true) :
    runSignatureVector primitives
        (writeSignatureVector vectorName info fingerprint name
          (Base64.encode keys.ed25519.toList) (Base64.encode keys.mlDsa)
            sigs sigPqc hybridValid) = true ↔
      (vectorName = invalidMlDsa → Rejected) :=
  iff_of_true ((runSignatureVector_eq_true_iff primitives computed _ _ _ _ _
    _).mpr verdict) (fun same => absurd same other)

end Verdicts

/-- The only entry of a vector decodes to a signature of a name. -/
def SoleEntry (keyname : Str) (mlDsaSig : Bytes)
    (vector : SignatureVector) : Prop :=
  ∃ entry, vector.sigPqcLines = ["Sig-PQC: ".toList ++ entry] ∧
    decodeSigPqc entry = .ok (keyname, .mlDsa65, mlDsaSig)

/-- One vector has a flipped character, and its entry still decodes. -/
theorem soleEntry_of_mem {entries : VectorEntries} {info : NarInfo}
    {fingerprint keyname ed mlDsa : Str} {corrupted : Bytes}
    (clean : ':' ∉ keyname) (length : corrupted.length = mlDsa65SignatureLen)
    (flipped : entries.corruptedPqc = encodeSigPqc keyname corrupted) :
    ∀ vector ∈ entries.vectors fun name =>
      writeSignatureVector name info fingerprint keyname ed mlDsa,
      vector.name = invalidMlDsa → SoleEntry keyname corrupted vector := by
  have other {name : Str} (different : name ≠ invalidMlDsa) {Entry : Prop} :
      name = invalidMlDsa → Entry := fun same => (different same).elim
  simp only [VectorEntries.vectors, List.forall_mem_cons,
    writeSignatureVector]
  refine ⟨other (by decide), fun _ => ?_, other (by decide),
    other (by decide), other (by decide), other (by decide),
    other (by decide), other (by decide), ?_⟩
  · exact ⟨_, congrArg (fun entry => ["Sig-PQC: ".toList ++ entry]) flipped,
      decodeSigPqc_encodeSigPqc clean length⟩
  · intro vector impossible
    cases impossible

/--
Whatever key the generator draws and whatever its signature is, it writes eight
vectors, and each of them passes the test but for the one with a flipped
character: its entry decodes to another signature of the right length, and it
passes exactly if that one does not verify.
-/
theorem signature_vectors_pass (correct : primitives.Correct)
    {key : SecretKey} (clean : ':' ∉ key.name) {info : NarInfo}
    {fingerprint : Str} (computed : info.fingerprint = .ok fingerprint)
    (rand : Rand) :
    ∃ vectors corrupted,
      writeSignatureVectors primitives key rand info = some vectors ∧
        vectors.length = 8 ∧
        (∃ vector ∈ vectors, vector.name = invalidMlDsa) ∧
        (∀ vector ∈ vectors, vector.name = invalidMlDsa →
          SoleEntry key.name corrupted vector) ∧
        corrupted.length = mlDsa65SignatureLen ∧
          corrupted ≠ (key.signer.sign primitives rand
            (asBytes fingerprint)).mlDsa ∧
            ∀ vector ∈ vectors,
              runSignatureVector primitives vector = true ↔
                (vector.name = invalidMlDsa →
                  verifyMlDsaOnly primitives
                    (key.publicKey primitives).keys.mlDsa
                      (asBytes fingerprint) corrupted ≠ .ok ()) := by
  have length := length_mlDsa_sign primitives key.signer rand
    (asBytes fingerprint)
  have edGood := edGood_sign correct key.signer rand (asBytes fingerprint)
  have pqcGood := pqcGood_sign correct key.signer rand (asBytes fingerprint)
  rcases vectorEntries_eq clean length with
    ⟨corruptedSig, corrupted, corruptedLength, different, made⟩
  refine ⟨_, corrupted, writeSignatureVectors_eq primitives computed made,
    rfl, ⟨_, List.mem_cons_of_mem _ List.mem_cons_self, rfl⟩,
    soleEntry_of_mem clean corruptedLength rfl, corruptedLength, different,
    ?_⟩
  let sig := key.signer.sign primitives rand (asBytes fingerprint)
  have ed {sigs : List Str} (few : sigs.length ≤ maxSigCandidates)
      (member : sigEntry key.name sig ∈ sigs) :
      edAccepts primitives sigs fingerprint key.name
        (key.publicKey primitives).keys = true :=
    edAccepts_of_mem clean few edGood member
  have pqc {sigPqc : List Str} (few : sigPqc.length ≤ maxSigCandidates)
      (member : encodeSigPqc key.name sig.mlDsa ∈ sigPqc) :
      pqcAccepts primitives sigPqc fingerprint key.name
        (key.publicKey primitives).keys = true :=
    pqcAccepts_of_mem clean length few pqcGood member
  have one (entry : Str) : [entry].length ≤ maxSigCandidates := by
    rw [List.length_singleton]
    decide
  have two (entry other : Str) : [entry, other].length ≤ maxSigCandidates := by
    rw [List.length_cons, List.length_singleton]
    decide
  have rejected {sigs : List Str} {entry : Str}
      (none : pqcCandidate key.name entry = none) :
      (edAccepts primitives sigs fingerprint key.name
          (key.publicKey primitives).keys = true ∧
        pqcAccepts primitives [entry] fingerprint key.name
          (key.publicKey primitives).keys = true) ↔ false = true :=
    iff_of_false (fun accepted =>
      not_pqcAccepts_singleton none accepted.2) Bool.false_ne_true
  have short : (sig.mlDsa.take 100).length ≠ mlDsa65SignatureLen := by
    rw [List.length_take, length]
    decide
  simp only [VectorEntries.vectors, List.forall_mem_cons]
  refine ⟨?_, ?_, ?_, ?_, ?_, ?_, ?_, ?_, ?_⟩
  · exact passes_iff computed (by decide)
      (iff_of_true ⟨ed (one _) List.mem_cons_self,
        pqc (one _) List.mem_cons_self⟩ rfl)
  · rw [runSignatureVector_eq_true_iff primitives computed,
      and_iff_right (ed (one _) List.mem_cons_self),
      pqcAccepts_singleton_iff clean corruptedLength]
    have named : (writeSignatureVector invalidMlDsa info fingerprint key.name
        (Base64.encode (key.publicKey primitives).keys.ed25519.toList)
          (Base64.encode (key.publicKey primitives).keys.mlDsa)
            [sigEntry key.name sig] [encodeSigPqc key.name corrupted]
              false).name = invalidMlDsa := rfl
    rw [iff_false_intro Bool.false_ne_true, iff_false]
    exact ⟨fun rejects _ => rejects, fun rejects => rejects named⟩
  · exact passes_iff computed (by decide)
      (rejected (pqcCandidate_otherTag _ (by decide)))
  · refine passes_iff computed (by decide) (iff_of_false ?_
      Bool.false_ne_true)
    rintro ⟨accepted, -⟩
    rcases Candidates.exists_of_accepts accepted with ⟨_, member, -⟩
    cases member
  · exact passes_iff computed (by decide)
      (iff_of_true ⟨ed (two _ _) (List.mem_cons_of_mem _ List.mem_cons_self),
        pqc (two _ _) (List.mem_cons_of_mem _ List.mem_cons_self)⟩ rfl)
  · exact passes_iff computed (by decide)
      (rejected (@pqcCandidate_malformed _ _ '!' (by decide) (by decide)
        (by decide)))
  · exact passes_iff computed (by decide)
      (rejected (pqcCandidate_otherLength short))
  · exact passes_iff computed (by decide)
      (iff_of_true ⟨ed (one _) List.mem_cons_self,
        pqc (two _ _) (List.mem_cons_of_mem _ List.mem_cons_self)⟩ rfl)
  · intro vector impossible
    cases impossible

theorem signature_vectors_pass_sample :
    ∃ vectors corrupted,
      writeSignatureVectors Primitives.transparent sampleSecret ()
          sampleInfo = some vectors ∧
        vectors.length = 8 ∧
        (∃ vector ∈ vectors, vector.name = invalidMlDsa) ∧
        (∀ vector ∈ vectors, vector.name = invalidMlDsa →
          SoleEntry sampleSecret.name corrupted vector) ∧
        corrupted.length = mlDsa65SignatureLen ∧
          corrupted ≠ (sampleSecret.signer.sign Primitives.transparent ()
            (asBytes sampleFingerprint)).mlDsa ∧
            ∀ vector ∈ vectors,
              runSignatureVector Primitives.transparent vector = true ↔
                (vector.name = invalidMlDsa →
                  verifyMlDsaOnly Primitives.transparent
                    (sampleSecret.publicKey Primitives.transparent).keys.mlDsa
                      (asBytes sampleFingerprint) corrupted ≠ .ok ()) :=
  signature_vectors_pass Primitives.transparent
    Primitives.transparent_correct (by decide) (by decide) ()

end NixPqcCache.TestVectors
