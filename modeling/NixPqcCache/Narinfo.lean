import NixPqcCache.Foundation.Base64
import NixPqcCache.Foundation.Text
import NixPqcCache.Hybrid
import Mathlib.Data.Char
import Mathlib.Data.List.Lex
import Mathlib.Data.List.Sort

/-!
# The narinfo format

The crate's `narinfo` module: the record, its parser and serializer, the v1
signing fingerprint, and the classical check of one `Sig:` entry.

The parser is a fold over the lines of the text.  Its `match` on the key is
the enumeration `Field` of the twelve modelled keys; every other key is kept
in `extra`.
-/

namespace NixPqcCache.Narinfo

open NixPqcCache.Data
open NixPqcCache.Foundation
open NixPqcCache.Hybrid

/-- A parsed `.narinfo` document. -/
structure NarInfo where
  storePath : Str := []
  url : Str := []
  compression : Str := []
  fileHash : Option Str := none
  fileSize : Option UInt64 := none
  narHash : Str := []
  narSize : UInt64 := 0
  references : List Str := []
  deriver : Option Str := none
  system : Option Str := none
  /-- Raw `name:base64` entries from `Sig:` lines. -/
  sigs : List Str := []
  /-- Raw `name:base64` entries from `Sig-PQC:` lines. -/
  sigPqc : List Str := []
  /-- All other lines, in order. -/
  extra : List (Str × Str) := []
  deriving DecidableEq

/-- The keys the parser knows. -/
inductive Field where
  | storePath
  | url
  | compression
  | fileHash
  | fileSize
  | narHash
  | narSize
  | references
  | deriver
  | system
  | sig
  | sigPqc
  deriving DecidableEq, Repr

/-- The text of a known key. -/
def Field.key : Field → Str
  | .storePath => "StorePath".toList
  | .url => "URL".toList
  | .compression => "Compression".toList
  | .fileHash => "FileHash".toList
  | .fileSize => "FileSize".toList
  | .narHash => "NarHash".toList
  | .narSize => "NarSize".toList
  | .references => "References".toList
  | .deriver => "Deriver".toList
  | .system => "System".toList
  | .sig => "Sig".toList
  | .sigPqc => "Sig-PQC".toList

/-- The known keys. -/
def Field.all : List Field :=
  [.storePath, .url, .compression, .fileHash, .fileSize, .narHash, .narSize,
    .references, .deriver, .system, .sig, .sigPqc]

/-- The known key with a given text. -/
def Field.ofKey (key : Str) : Option Field :=
  Field.all.find? fun field => field.key == key

theorem Field.mem_all (field : Field) : field ∈ Field.all := by
  cases field <;> decide

theorem Field.key_injective {left right : Field}
    (equal : left.key = right.key) : left = right := by
  revert equal
  cases left <;> cases right <;> decide

theorem Field.key_inj {left right : Field} :
    left.key = right.key ↔ left = right :=
  ⟨Field.key_injective, congrArg Field.key⟩

@[simp]
theorem Field.ofKey_eq_some_iff {key : Str} {field : Field} :
    Field.ofKey key = some field ↔ field.key = key := by
  constructor
  · intro found
    simpa using List.find?_some found
  · rintro rfl
    cases found : Field.ofKey field.key with
    | none =>
        have missing := List.find?_eq_none.mp found field field.mem_all
        simp at missing
    | some other =>
        have equal : other.key = field.key := by
          simpa using List.find?_some found
        rw [Field.key_injective equal]

@[simp]
theorem Field.ofKey_key (field : Field) :
    Field.ofKey field.key = some field :=
  Field.ofKey_eq_some_iff.mpr rfl

theorem Field.ofKey_eq_none_iff {key : Str} :
    Field.ofKey key = none ↔ ∀ field : Field, field.key ≠ key := by
  simp [Field.ofKey, List.find?_eq_none, Field.mem_all]

/-! ## Parsing -/

/-- The number of values of a `u64`. -/
abbrev u64Limit : Nat := 2 ^ 64

/-- `value.parse::<u64>()`. -/
def parseU64 (value : Str) : Except Decimal.ParseIntError UInt64 :=
  UInt64.ofNat <$> Decimal.parseUnsigned u64Limit value

/-- A `u64` as `{}` prints it. -/
def displayU64 (value : UInt64) : Str :=
  Nat.toDigits 10 value.toNat

/-- `value.split(' ')`. -/
def splitReferences (value : Str) : List Str :=
  value.splitOn ' '

/-- The references of a `References` value. -/
def parseReferences (value : Str) : List Str :=
  if value = [] then [] else splitReferences value

/-- Key and value of a line: `"Key: value"`, or a bare `"Key:"`. -/
def splitLine (line : Str) : Result (Str × Str) :=
  match Text.splitOnce [':', ' '] line with
  | some halves => .ok halves
  | none =>
      match line.dropSuffix? [':'] with
      | some key => .ok (key, [])
      | none => .error (.malformedLine line)

/--
A line is split at its first `": "`; a line without one that ends in `":"` has
an empty value.
-/
theorem splitLine_eq_ok_iff {line key value : Str} :
    splitLine line = .ok (key, value) ↔
      (line = key ++ ':' :: ' ' :: value ∧ ¬ [':', ' '] <:+: key) ∨
        (line = key ++ [':'] ∧ value = [] ∧ ¬ [':', ' '] <:+: line) := by
  rw [splitLine]
  cases split : Text.splitOnce [':', ' '] line with
  | some halves =>
      have found := (Text.splitOnce_pair_eq_some_iff (by decide)).mp split
      have inside : [':', ' '] <:+: line := by
        refine ⟨halves.1, halves.2, ?_⟩
        rw [found.1, List.append_assoc]
        rfl
      simp only [inside, not_true_eq_false, and_false, or_false,
        Except.ok.injEq]
      rw [← Text.splitOnce_pair_eq_some_iff (by decide), split,
        Option.some.injEq]
  | none =>
      have outside := (Text.splitOnce_eq_none_iff (by decide)).mp split
      have unsplit :
          ¬ (line = key ++ ':' :: ' ' :: value ∧ ¬ [':', ' '] <:+: key) := by
        rw [← Text.splitOnce_pair_eq_some_iff (by decide), split]
        simp
      simp only [unsplit, false_or, outside, not_false_eq_true, and_true]
      cases stripped : line.dropSuffix? [':'] with
      | some body =>
          rcases List.dropSuffix?_eq_some_iff.mp stripped with
            ⟨suffix, rfl, equal⟩
          rcases beq_iff_eq.mp equal with rfl
          simp [eq_comm]
      | none =>
          constructor
          · intro impossible
            cases impossible
          · rintro ⟨rfl, -⟩
            have found : (key ++ [':']).dropSuffix? [':'] = some key :=
              List.dropSuffix?_eq_some_iff.mpr ⟨[':'], rfl, by simp⟩
            rw [stripped] at found
            cases found

namespace NarInfo

/-- The arms of `match key`. -/
def setField (info : NarInfo) (key value : Str) : Result NarInfo :=
  match Field.ofKey key with
  | some .storePath => .ok { info with storePath := value }
  | some .url => .ok { info with url := value }
  | some .compression => .ok { info with compression := value }
  | some .fileHash => .ok { info with fileHash := some value }
  | some .fileSize =>
      match parseU64 value with
      | .ok size => .ok { info with fileSize := some size }
      | .error kind => .error (.fileSize kind)
  | some .narHash => .ok { info with narHash := value }
  | some .narSize =>
      match parseU64 value with
      | .ok size => .ok { info with narSize := size }
      | .error kind => .error (.narSize kind)
  | some .references =>
      .ok { info with references := parseReferences value }
  | some .deriver => .ok { info with deriver := some value }
  | some .system => .ok { info with system := some value }
  | some .sig => .ok { info with sigs := info.sigs ++ [value] }
  | some .sigPqc => .ok { info with sigPqc := info.sigPqc ++ [value] }
  | none => .ok { info with extra := info.extra ++ [(key, value)] }

/-- The body of the loop over the lines. -/
def parseLine (info : NarInfo) (line : Str) : Result NarInfo :=
  let line := Text.trimEndMatches '\r' line
  if line = [] then
    .ok info
  else
    match splitLine line with
    | .ok (key, value) => setField info key value
    | .error cause => .error cause

/-- `NarInfo::parse`. -/
def parse (text : Str) : Result NarInfo := do
  let info ← (Text.lines text).foldlM parseLine {}
  if info.storePath = [] then
    .error .missingStorePath
  else if info.narHash = [] then
    .error .missingNarHash
  else
    .ok info

/-! ## Serializing -/

/-- `format!("{key}: {value}\n")`. -/
def formatLine (key value : Str) : Str :=
  key ++ ": ".toList ++ value ++ ['\n']

/-- A line that is written only when its value is present. -/
def formatOptional (key : Str) : Option Str → Str
  | some value => formatLine key value
  | none => []

/-- `NarInfo::to_text`. -/
def toText (info : NarInfo) : Str :=
  formatLine Field.storePath.key info.storePath ++
  formatLine Field.url.key info.url ++
  formatLine Field.compression.key info.compression ++
  formatOptional Field.fileHash.key info.fileHash ++
  formatOptional Field.fileSize.key (info.fileSize.map displayU64) ++
  formatLine Field.narHash.key info.narHash ++
  formatLine Field.narSize.key (displayU64 info.narSize) ++
  formatLine Field.references.key ([' '].intercalate info.references) ++
  formatOptional Field.deriver.key info.deriver ++
  formatOptional Field.system.key info.system ++
  (info.extra.flatMap fun entry => formatLine entry.1 entry.2) ++
  (info.sigs.flatMap fun entry => formatLine Field.sig.key entry) ++
  (info.sigPqc.flatMap fun entry => formatLine Field.sigPqc.key entry)

/-! ## The fingerprint -/

/-- `NarInfo::store_dir`. -/
def storeDir (info : NarInfo) : Result Str :=
  match Text.rfind '/' info.storePath with
  | some idx => .ok (info.storePath.take idx)
  | none => .error .storePathHasNoSlash

/--
`NarInfo::fingerprint`.

Comparing UTF-8 strings byte by byte is comparing them character by
character, so the sort is by the lexicographic order of the characters.
-/
def fingerprint (info : NarInfo) : Result Str := do
  let storeDir ← info.storeDir
  let sortedRefs := info.references.insertionSort (· ≤ ·)
  let refs :=
    [','].intercalate (sortedRefs.map fun r => storeDir ++ ['/'] ++ r)
  .ok ("1;".toList ++ info.storePath ++ [';'] ++ info.narHash ++ [';'] ++
    displayU64 info.narSize ++ [';'] ++ refs)

end NarInfo

/-! ## Signature entries -/

/-- `parse_sig_entry`: the name and the raw bytes of a `name:base64` entry. -/
def parseSigEntry (entry : Str) : Result (Str × Bytes) :=
  match Text.splitOnce [':'] entry with
  | none => .error (.malformedSigEntry entry)
  | some (name, b64) =>
      match Base64.decode b64 with
      | none => .error .decodeSig
      | some bytes => .ok (name, bytes)

variable {Rand : Type} (primitives : Primitives Rand)

/-- The name check of `verify_ed25519_sig`; a bare key skips it. -/
def checkSigName (name : Str) : Option Str → Result Unit
  | some expected =>
      if name ≠ expected then .error (.sigKeyName name expected) else .ok ()
  | none => .ok ()

/-- `verify_ed25519_sig`. -/
def verifyEd25519Sig (fingerprint sigEntry : Str)
    (expectedName : Option Str) (pubkeyB64 : Str) : Result Unit := do
  let (name, sigBytes) ← parseSigEntry sigEntry
  checkSigName name expectedName
  let sig ← okOr .sigLength (tryIntoArray ed25519SignatureLen sigBytes)
  let pkBytes ← okOr .decodePubkey (Base64.decode pubkeyB64)
  let pk ← okOr .pubkeyLength (tryIntoArray ed25519PublicKeyLen pkBytes)
  if primitives.edVerifyingKey pk then
    if primitives.edVerify pk (asBytes fingerprint) sig then
      .ok ()
    else
      .error .edVerification
  else
    .error .badVerifyingKey

end NixPqcCache.Narinfo
