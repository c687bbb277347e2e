import NixPqcCache.Fingerprint
import NixPqcCache.VerifyPolicy

/-!
# Signing again and again

A run of `cmd_sign` rewrites one narinfo by a list of keys.  Each rewrite reads
the text that the previous one wrote, so by the round trip a run on texts is a
run on records.  On records the entries of a name are touched only by the keys
of that name: the last of them leaves exactly its own pair.
-/

namespace NixPqcCache.SignRuns

open NixPqcCache.Commands
open NixPqcCache.Data
open NixPqcCache.Filesystem
open NixPqcCache.Fingerprint
open NixPqcCache.Foundation
open NixPqcCache.Hybrid
open NixPqcCache.HybridCandidates
open NixPqcCache.KeyFiles
open NixPqcCache.Keys
open NixPqcCache.Narinfo
open NixPqcCache.NarinfoRoundTrip
open NixPqcCache.SignatureEntries
open NixPqcCache.VerifyPolicy

/-! ## The entries of a name -/

/-- The entries that start with `name:`. -/
def ownEntries (name : Str) (entries : List Str) : List Str :=
  entries.filter fun entry => (name ++ [':']).isPrefixOf entry

/-- An entry starts with at most one name. -/
theorem name_unique {name other entry : Str} (clean : ':' ∉ name)
    (otherClean : ':' ∉ other)
    (starts : (name ++ [':']).isPrefixOf entry = true)
    (otherStarts : (other ++ [':']).isPrefixOf entry = true) :
    name = other := by
  rw [List.isPrefixOf_iff_prefix] at starts otherStarts
  rcases starts with ⟨rest, rfl⟩
  rcases otherStarts with ⟨otherRest, equal⟩
  have split : other ++ ':' :: otherRest = name ++ ':' :: rest := by
    simpa using equal
  exact (Joined.append_cons_injective otherClean clean split).1.symm

theorem ownEntries_dropOwn_self (name : Str) (entries : List Str) :
    ownEntries name (dropOwn name entries) = [] := by
  simp [ownEntries, dropOwn, List.filter_filter]

theorem ownEntries_dropOwn_of_ne {name other : Str} (clean : ':' ∉ name)
    (otherClean : ':' ∉ other) (different : other ≠ name)
    (entries : List Str) :
    ownEntries name (dropOwn other entries) = ownEntries name entries := by
  rw [ownEntries, dropOwn, List.filter_filter, ownEntries]
  apply List.filter_congr
  intro entry member
  cases starts : (name ++ [':']).isPrefixOf entry with
  | false => simp
  | true =>
      have foreign : (other ++ [':']).isPrefixOf entry = false := by
        rw [Bool.eq_false_iff]
        intro otherStarts
        exact different (name_unique otherClean clean otherStarts starts)
      simp [foreign]

theorem ownEntries_append_own {name : Str} (clean : ':' ∉ name)
    (entries : List Str) (bytes : Bytes) :
    ownEntries name (dropOwn name entries ++ [entryOf name bytes]) =
      [entryOf name bytes] := by
  rw [ownEntries, List.filter_append, ← ownEntries,
    ownEntries_dropOwn_self, List.nil_append, List.filter_cons_of_pos]
  · rfl
  · exact (isPrefixOf_entryOf_iff clean bytes).mpr rfl

theorem ownEntries_append_of_ne {name other : Str} (clean : ':' ∉ name)
    (otherClean : ':' ∉ other) (different : other ≠ name)
    (entries : List Str) (bytes : Bytes) :
    ownEntries name (dropOwn other entries ++ [entryOf other bytes]) =
      ownEntries name entries := by
  have foreign :
      ¬ (name ++ [':']).isPrefixOf (entryOf other bytes) = true :=
    fun starts => different
      ((isPrefixOf_entryOf_iff otherClean bytes).mp starts).symm
  rw [ownEntries, List.filter_append, ← ownEntries,
    ownEntries_dropOwn_of_ne clean otherClean different,
    List.filter_cons_of_neg foreign, List.filter_nil, List.append_nil]

/-! ## One rewrite -/

/-- A secret key with a validated name, and the randomness of one signing. -/
structure Signing (Rand : Type) where
  secret : SecretKey
  rand : Rand
  nameValid : validateKeyName secret.name = .ok ()

variable {Rand : Type} (primitives : Primitives Rand)

/-- The signature a signing makes on a fingerprint. -/
def Signing.signature (signing : Signing Rand) (fingerprint : Str) :
    HybridSignature :=
  signing.secret.signer.sign primitives signing.rand (asBytes fingerprint)

/-- A rewrite of the record. -/
def Signing.apply (fingerprint : Str) (info : NarInfo)
    (signing : Signing Rand) : NarInfo :=
  signInfo primitives signing.secret signing.rand info fingerprint

/-- A rewrite of the text. -/
def Signing.rewrite (text : Str) (signing : Signing Rand) : Result Str :=
  signText primitives signing.secret signing.rand text

/-- A text holds a record with a fingerprint. -/
def Holds (info : NarInfo) (fingerprint text : Str) : Prop :=
  NarInfo.parse text = .ok info ∧ info.fingerprint = .ok fingerprint

theorem Signing.colon (signing : Signing Rand) : ':' ∉ signing.secret.name :=
  colon_not_mem signing.nameValid

theorem Signing.clean_entry (signing : Signing Rand) (bytes : Bytes) :
    Clean (entryOf signing.secret.name bytes) :=
  clean_entryOf (newline_not_mem signing.nameValid)
    (return_not_mem signing.nameValid) bytes

theorem clean_dropOwn_append {name : Str} {entries : List Str} {entry : Str}
    (clean : ∀ other ∈ entries, Clean other) (cleanEntry : Clean entry) :
    ∀ other ∈ dropOwn name entries ++ [entry], Clean other := by
  intro other member
  rcases List.mem_append.mp member with old | new
  · exact clean other (List.mem_of_mem_filter old)
  · rw [List.mem_singleton.mp new]
    exact cleanEntry

/-- Signing keeps a record representable. -/
theorem Signing.representable_apply {signing : Signing Rand}
    {fingerprint : Str} {info : NarInfo}
    (representable : Representable info) :
    Representable (signing.apply primitives fingerprint info) := by
  apply representable.withSignatures
  · rw [sigEntry_eq_entryOf]
    exact clean_dropOwn_append
      (fun _ member => representable.clean_signature (Or.inl member))
      (signing.clean_entry _)
  · rw [encodeSigPqc_eq_entryOf]
    exact clean_dropOwn_append
      (fun _ member => representable.clean_signature (Or.inr member))
      (signing.clean_entry _)

/-- A rewrite writes the text of the rewritten record. -/
theorem Signing.rewrite_eq {signing : Signing Rand} {info : NarInfo}
    {fingerprint text : Str} (holds : Holds info fingerprint text) :
    Signing.rewrite primitives text signing =
      .ok (signing.apply primitives fingerprint info).toText := by
  rcases holds with ⟨parsed, computed⟩
  rw [Signing.rewrite, signText, parsed]
  change (info.fingerprint >>= _) = _
  rw [computed]
  rfl

/-- That text holds the rewritten record. -/
theorem Signing.holds_toText {signing : Signing Rand} {info : NarInfo}
    {fingerprint text : Str} (holds : Holds info fingerprint text) :
    Holds (signing.apply primitives fingerprint info) fingerprint
      (signing.apply primitives fingerprint info).toText := by
  constructor
  · exact parse_toText (signing.representable_apply primitives
      (representable_of_parse holds.1))
  · exact holds.2

/-- A rewrite of the text is the rewrite of the record it holds. -/
theorem Signing.rewrite_holds {signing : Signing Rand} {info : NarInfo}
    {fingerprint text : Str} (holds : Holds info fingerprint text) :
    ∃ next, Signing.rewrite primitives text signing = .ok next ∧
      Holds (signing.apply primitives fingerprint info) fingerprint next :=
  ⟨_, signing.rewrite_eq primitives holds,
    signing.holds_toText primitives holds⟩

/-! ## A run of rewrites -/

/-- A run of rewrites of the record. -/
def applyAll (fingerprint : Str) (info : NarInfo)
    (signings : List (Signing Rand)) : NarInfo :=
  signings.foldl (Signing.apply primitives fingerprint) info

/-- A run of rewrites of the text. -/
def rewriteAll (text : Str) (signings : List (Signing Rand)) : Result Str :=
  signings.foldlM (Signing.rewrite primitives) text

/-- Every run of rewrites succeeds and follows the run on records. -/
theorem rewriteAll_holds {signings : List (Signing Rand)} {info : NarInfo}
    {fingerprint text : Str} (holds : Holds info fingerprint text) :
    ∃ final, rewriteAll primitives text signings = .ok final ∧
      Holds (applyAll primitives fingerprint info signings) fingerprint
        final := by
  have follows : ∀ record written signing, Holds record fingerprint written →
      ∃ next, Signing.rewrite primitives written signing = .ok next ∧
        Holds (signing.apply primitives fingerprint record) fingerprint
          next :=
    fun _ _ signing => signing.rewrite_holds primitives
  exact Runs.foldlM_simulates follows holds

/-! ## Who owns the entries of a name -/

/-- The pair of entries a signing leaves. -/
def Signing.LeavesPair (signing : Signing Rand) (fingerprint : Str)
    (info : NarInfo) : Prop :=
  let signature := signing.signature primitives fingerprint
  ownEntries signing.secret.name info.sigs =
      [sigEntry signing.secret.name signature] ∧
    ownEntries signing.secret.name info.sigPqc =
      [encodeSigPqc signing.secret.name signature.mlDsa]

/-- A signing leaves its own pair. -/
theorem Signing.apply_leavesPair (signing : Signing Rand)
    (fingerprint : Str) (info : NarInfo) :
    signing.LeavesPair primitives fingerprint
      (signing.apply primitives fingerprint info) := by
  constructor
  · simp only [Signing.apply, signInfo, sigEntry_eq_entryOf]
    exact ownEntries_append_own signing.colon _ _
  · simp only [Signing.apply, signInfo, encodeSigPqc_eq_entryOf]
    exact ownEntries_append_own signing.colon _ _

/-- A signing under another name keeps the pair. -/
theorem Signing.LeavesPair.apply_of_ne {signing other : Signing Rand}
    {fingerprint : Str} {info : NarInfo}
    (pair : signing.LeavesPair primitives fingerprint info)
    (different : other.secret.name ≠ signing.secret.name) :
    signing.LeavesPair primitives fingerprint
      (other.apply primitives fingerprint info) := by
  constructor
  · rw [← pair.1]
    simp only [Signing.apply, signInfo, sigEntry_eq_entryOf]
    exact ownEntries_append_of_ne signing.colon other.colon different _ _
  · rw [← pair.2]
    simp only [Signing.apply, signInfo, encodeSigPqc_eq_entryOf]
    exact ownEntries_append_of_ne signing.colon other.colon different _ _

/-- Signings under other names keep the pair. -/
theorem Signing.LeavesPair.applyAll_of_ne {signing : Signing Rand}
    {after : List (Signing Rand)} {fingerprint : Str} {info : NarInfo}
    (pair : signing.LeavesPair primitives fingerprint info)
    (different : ∀ later ∈ after,
      later.secret.name ≠ signing.secret.name) :
    signing.LeavesPair primitives fingerprint
      (applyAll primitives fingerprint info after) := by
  induction after generalizing info with
  | nil => exact pair
  | cons later after induction =>
      rw [List.forall_mem_cons] at different
      exact induction (pair.apply_of_ne primitives different.1) different.2

/-- The last signing under a name leaves its pair to the end of the run. -/
theorem applyAll_leavesPair {after : List (Signing Rand)}
    {signing : Signing Rand}
    (last : ∀ later ∈ after, later.secret.name ≠ signing.secret.name)
    (before : List (Signing Rand)) (fingerprint : Str) (info : NarInfo) :
    signing.LeavesPair primitives fingerprint
      (applyAll primitives fingerprint info
        (before ++ signing :: after)) := by
  have split :
      applyAll primitives fingerprint info (before ++ signing :: after) =
        applyAll primitives fingerprint
          (signing.apply primitives fingerprint
            (applyAll primitives fingerprint info before)) after := by
    simp [applyAll]
  rw [split]
  exact (signing.apply_leavesPair primitives fingerprint _).applyAll_of_ne
    primitives last

/-! ## The signer is accepted -/

/-- Only the entries of a name hold its candidates. -/
theorem filterMap_ownEntries {α : Type} {name : Str}
    {candidate : Str → Option α}
    (named : ∀ entry value, candidate entry = some value →
      (name ++ [':']).isPrefixOf entry = true) (entries : List Str) :
    (ownEntries name entries).filterMap candidate =
      entries.filterMap candidate := by
  rw [ownEntries, List.filterMap_filter]
  apply List.filterMap_congr
  intro entry member
  split
  next => rfl
  next foreign =>
    cases found : candidate entry with
    | none => rfl
    | some value => exact (foreign (named entry value found)).elim

variable {primitives}

/-- Under its own keys a pair is accepted. -/
theorem Signing.LeavesPair.verifyHybrid {signing : Signing Rand}
    {fingerprint : Str} {info : NarInfo} (correct : primitives.Correct)
    (pair : signing.LeavesPair primitives fingerprint info) :
    HybridEvidence primitives info fingerprint
      (signing.secret.publicKey primitives) := by
  have clean := signing.colon
  have length : (signing.signature primitives fingerprint).mlDsa.length =
      mlDsa65SignatureLen :=
    length_mlDsa_sign primitives _ _ _
  have edNamed : ∀ entry sig,
      edCandidate signing.secret.name entry = some sig →
        (signing.secret.name ++ [':']).isPrefixOf entry = true := by
    intro entry sig found
    rw [(edCandidate_eq_some_iff.mp found).1]
    exact (isPrefixOf_entryOf_iff clean _).mpr rfl
  have pqcNamed : ∀ entry mlDsaSig,
      pqcCandidate signing.secret.name entry = some mlDsaSig →
        (signing.secret.name ++ [':']).isPrefixOf entry = true := by
    intro entry mlDsaSig found
    rw [(pqcCandidate_eq_some_iff.mp found).1, encodeSigPqc_eq_entryOf]
    exact (isPrefixOf_entryOf_iff clean _).mpr rfl
  refine (verifyHybrid_eq_ok_iff _).mpr ⟨?_, ?_⟩
  · change Candidates.accepts _ _
      (info.sigs.filterMap (edCandidate signing.secret.name)) = true
    rw [← filterMap_ownEntries edNamed, pair.1,
      List.filterMap_cons_some (edCandidate_sigEntry clean _)]
    exact Candidates.accepts_cons (by decide) (edGood_sign correct _ _ _)
  · change Candidates.accepts _ _
      (info.sigPqc.filterMap (pqcCandidate signing.secret.name)) = true
    rw [← filterMap_ownEntries pqcNamed, pair.2,
      List.filterMap_cons_some (pqcCandidate_encodeSigPqc clean length)]
    exact Candidates.accepts_cons (by decide) (pqcGood_sign correct _ _ _)

/-- A narinfo that ends up with the pair passes the strictest policy. -/
theorem Signing.LeavesPair.cmdVerify {signing : Signing Rand}
    {fingerprint text : Str} {info : NarInfo} (correct : primitives.Correct)
    (pair : signing.LeavesPair primitives fingerprint info)
    (holds : Holds info fingerprint text) {files : FileSystem}
    {narinfoPath pqcPubkeyPath : Str}
    (narinfo : files narinfoPath = some (asBytes text))
    (pqcPubkey : files pqcPubkeyPath =
      some (asBytes (signing.secret.publicKey primitives).body)) :
    cmdVerify primitives files narinfoPath
      (some (entryOf signing.secret.name
        (signing.secret.publicKey primitives).keys.ed25519.toList))
      (some pqcPubkeyPath) true = .ok () := by
  have member : sigEntry signing.secret.name
      (signing.signature primitives fingerprint) ∈ info.sigs := by
    apply List.mem_of_mem_filter
    rw [← ownEntries, pair.1]
    exact List.mem_singleton.mpr rfl
  have loaded : PublicKey.load files pqcPubkeyPath =
      .ok (signing.secret.publicKey primitives) :=
    load_of_contents pqcPubkey
      (loadText_publicKey_body primitives signing.nameValid)
  refine (cmdVerify_eq_ok_iff _).mpr ⟨.inl (by simp), info, fingerprint,
    ⟨text, FileSystem.readToString_eq_some narinfo, holds.1, holds.2⟩, ?_,
    _, loaded, .inl (pair.verifyHybrid correct)⟩
  intro arg given
  rw [← Option.mem_some_iff.mp given]
  exact classicalEvidence_of_sign correct signing.colon member

/--
Signing any number of times succeeds and keeps the fingerprint.  Whoever
signed last under a name has exactly one entry of that name in each list, and
is accepted under the strictest policy.
-/
theorem rewriteAll_keeps_signers_verifiable (correct : primitives.Correct)
    {text fingerprint : Str} {info : NarInfo}
    (parsed : NarInfo.parse text = .ok info)
    (computed : info.fingerprint = .ok fingerprint)
    (signings : List (Signing Rand)) :
    ∃ final finalInfo, rewriteAll primitives text signings = .ok final ∧
      NarInfo.parse final = .ok finalInfo ∧
        finalInfo.fingerprint = .ok fingerprint ∧
          ∀ before signing after, signings = before ++ signing :: after →
            (∀ later ∈ after,
              later.secret.name ≠ signing.secret.name) →
            (ownEntries signing.secret.name finalInfo.sigs).length = 1 ∧
              (ownEntries signing.secret.name finalInfo.sigPqc).length = 1 ∧
                ∀ files narinfoPath pqcPubkeyPath,
                  files narinfoPath = some (asBytes final) →
                  files pqcPubkeyPath = some (asBytes
                    (signing.secret.publicKey primitives).body) →
                  cmdVerify primitives files narinfoPath
                    (some (entryOf signing.secret.name
                      (signing.secret.publicKey
                        primitives).keys.ed25519.toList))
                    (some pqcPubkeyPath) true = .ok () := by
  rcases rewriteAll_holds primitives ⟨parsed, computed⟩ with
    ⟨final, ran, holds⟩
  refine ⟨final, _, ran, holds.1, holds.2, ?_⟩
  rintro before signing after rfl last
  have pair :=
    applyAll_leavesPair primitives last before fingerprint info
  refine ⟨by rw [pair.1]; rfl, by rw [pair.2]; rfl, ?_⟩
  intro files narinfoPath pqcPubkeyPath narinfo pqcPubkey
  exact pair.cmdVerify correct holds narinfo pqcPubkey

/-- A key whose name begins the name of the sample key. -/
def sampleOther : SecretKey where
  name := "proxy".toList
  signer := ⟨fit ed25519SecretKeyLen [254], fit mlDsa65SecretSeedLen [254]⟩

/-- The sample narinfo with entries of both names, and one of no name. -/
def sampleMixed : NarInfo :=
  { sampleInfo with
    sigs := ["proxy-1:old".toList, "proxy:AA==".toList, "none".toList,
      "proxy-1:old".toList]
    sigPqc := ["proxy:".toList, "proxy-1:old".toList] }

theorem sampleMixed_holds :
    Holds sampleMixed sampleFingerprint sampleMixed.toText := by
  constructor
  · apply sampleInfo_parse
    · unfold Clean
      decide
    · unfold Clean
      decide
  · exact sampleInfo_fingerprint

/-- The two keys sign. -/
def sampleSigning : Signing Unit := ⟨sampleSecret, (), by decide⟩

def sampleOtherSigning : Signing Unit := ⟨sampleOther, (), by decide⟩

/-- A narinfo in `n`, and the two public keys in `k` and `o`. -/
def sampleMixedFiles (text : Str) : FileSystem := fun path =>
  if path = "n".toList then some (asBytes text)
  else if path = "k".toList then some (asBytes samplePublic.body)
  else if path = "o".toList then
    some (asBytes (sampleOther.publicKey Primitives.transparent).body)
  else none

/-- The sample key signs, then the other key, then the sample key again. -/
theorem rewriteAll_keeps_signers_sample :
    ∃ final finalInfo,
      rewriteAll Primitives.transparent sampleMixed.toText
          [sampleSigning, sampleOtherSigning, sampleSigning] = .ok final ∧
        NarInfo.parse final = .ok finalInfo ∧
        (ownEntries sampleSecret.name finalInfo.sigs).length = 1 ∧
        (ownEntries sampleOther.name finalInfo.sigPqc).length = 1 ∧
        cmdVerify Primitives.transparent (sampleMixedFiles final) "n".toList
          (some samplePubkeyArg) (some "k".toList) true = .ok () ∧
        cmdVerify Primitives.transparent (sampleMixedFiles final) "n".toList
          (some (entryOf sampleOther.name
            (sampleOther.publicKey
              Primitives.transparent).keys.ed25519.toList))
          (some "o".toList) true = .ok () := by
  rcases rewriteAll_keeps_signers_verifiable Primitives.transparent_correct
      sampleMixed_holds.1 sampleMixed_holds.2
      [sampleSigning, sampleOtherSigning, sampleSigning] with
    ⟨final, finalInfo, ran, parsed, -, kept⟩
  have own := kept [sampleSigning, sampleOtherSigning] sampleSigning [] rfl
    (by simp)
  have other := kept [sampleSigning] sampleOtherSigning [sampleSigning] rfl
    (by decide)
  refine ⟨final, finalInfo, ran, parsed, own.1, other.2.1, ?_, ?_⟩
  · exact own.2.2 (sampleMixedFiles final) "n".toList "k".toList rfl rfl
  · exact other.2.2 (sampleMixedFiles final) "n".toList "o".toList rfl rfl

end NixPqcCache.SignRuns
