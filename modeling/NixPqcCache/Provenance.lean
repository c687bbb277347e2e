import NixPqcCache.FingerprintSeparators
import NixPqcCache.Foundation.Journals
import NixPqcCache.ProxyChain

/-!
# Where an accepted narinfo comes from

Publishers sign narinfos and proxies sign what they have checked, while the
network delivers any text it likes to anyone.  What is assumed of the signature
schemes is stated for the texts that are delivered: an entry that verifies
under the key of somebody honest shows a fingerprint that he has signed.

Everything that was ever signed then goes back to a publisher, from proxy to
proxy along the configured upstream keys, over one fingerprint.  A client that
requires both halves needs this assumption for one of them only.
-/

namespace NixPqcCache.Provenance

open NixPqcCache.Commands
open NixPqcCache.Data
open NixPqcCache.Filesystem
open NixPqcCache.FingerprintSeparators
open NixPqcCache.Foundation
open NixPqcCache.Foundation.Journals
open NixPqcCache.Hybrid
open NixPqcCache.HybridCandidates
open NixPqcCache.Keys
open NixPqcCache.Narinfo
open NixPqcCache.NarinfoRoundTrip
open NixPqcCache.Proxy
open NixPqcCache.ProxyAnswers
open NixPqcCache.ProxyChain
open NixPqcCache.SignRuns
open NixPqcCache.SignatureEntries
open NixPqcCache.VerifyPolicy

variable {Rand : Type} (primitives : Primitives Rand)

/-! ## What a narinfo shows -/

/-- Some `Sig` entry verifies under an Ed25519 key. -/
def EdShown (info : NarInfo) (fingerprint : Str)
    (key : ByteArr ed25519PublicKeyLen) : Prop :=
  ∃ name sig, entryOf name (List.Vector.toList sig) ∈ info.sigs ∧
    verifyEd25519Only primitives key (asBytes fingerprint) sig = .ok ()

/-- Some `Sig-PQC` entry verifies under an ML-DSA key. -/
def MlShown (info : NarInfo) (fingerprint : Str) (key : Bytes) : Prop :=
  ∃ name sig, encodeSigPqc name sig ∈ info.sigPqc ∧
    verifyMlDsaOnly primitives key (asBytes fingerprint) sig = .ok ()

variable {primitives}

/-- The classical check has seen such an entry. -/
theorem edShown_of_verifyEd25519Sig {info : NarInfo}
    {fingerprint entry pubkeyB64 : Str} {expectedName : Option Str}
    {key : ByteArr ed25519PublicKeyLen} (member : entry ∈ info.sigs)
    (decoded : Base64.decode pubkeyB64 = some key.toList)
    (verified : verifyEd25519Sig primitives fingerprint entry expectedName
      pubkeyB64 = .ok ()) :
    EdShown primitives info fingerprint key := by
  rcases verifyEd25519Sig_eq_ok_iff.mp verified with
    ⟨name, sig, rfl, -, -, other, otherDecoded, checked⟩
  have same : key = other :=
    List.Vector.toList_injective
      (Option.some.inj (decoded.symm.trans otherDecoded))
  exact ⟨name, sig, member, same ▸ checked⟩

/-- The hybrid check has seen both kinds. -/
theorem shown_of_hybridEvidence {info : NarInfo} {fingerprint : Str}
    {pk : PublicKey}
    (evidence : HybridEvidence primitives info fingerprint pk) :
    EdShown primitives info fingerprint pk.keys.ed25519 ∧
      MlShown primitives info fingerprint pk.keys.mlDsa := by
  rcases exists_good_of_verifyHybrid _ evidence with
    ⟨⟨sig, edMember, edGood⟩, mlDsaSig, pqcMember, pqcGood⟩
  rw [edValues_eq_filterMap] at edMember
  rw [pqcValues_eq_filterMap] at pqcMember
  rcases List.mem_filterMap.mp edMember with ⟨entry, edEntry, edFound⟩
  rcases List.mem_filterMap.mp pqcMember with ⟨other, pqcEntry, pqcFound⟩
  rcases edCandidate_eq_some_iff.mp edFound with ⟨rfl, -⟩
  rcases pqcCandidate_eq_some_iff.mp pqcFound with ⟨rfl, -, -⟩
  exact ⟨⟨pk.name, sig, edEntry, Runs.isOk_eq_true_iff.mp edGood⟩,
    pk.name, mlDsaSig, pqcEntry, Runs.isOk_eq_true_iff.mp pqcGood⟩

/-! ## What was signed -/

/-- A signature that was made, by a publisher or for an answer of a proxy. -/
structure Statement where
  signer : HybridSigner
  /-- The proxy, or nothing for a publisher. -/
  proxy : Option ProxyState
  info : NarInfo
  fingerprint : Str

variable (primitives)

/-- The record shows a fingerprint that the holder of the key has signed. -/
def EdUnforged (journal : List Statement) (info : NarInfo)
    (fingerprint : Str) (key : ByteArr ed25519PublicKeyLen) : Prop :=
  EdShown primitives info fingerprint key →
    ∃ statement ∈ journal, statement.fingerprint = fingerprint ∧
      primitives.edPublic statement.signer.ed = key

/-- The same for the other half. -/
def MlUnforged (journal : List Statement) (info : NarInfo)
    (fingerprint : Str) (key : Bytes) : Prop :=
  MlShown primitives info fingerprint key →
    ∃ statement ∈ journal, statement.fingerprint = fingerprint ∧
      (primitives.mlPublic statement.signer.mlDsa).toList = key

/-- Who signs on his own account, which proxies run, and whose keys are safe. -/
structure Parties where
  publisher : SecretKey → Prop
  proxy : ProxyState → Prop
  honest : ByteArr ed25519PublicKeyLen → Prop

/-- The proxies are configured with keys of honest parties. -/
def Parties.Configured (parties : Parties) : Prop :=
  ∀ state, parties.proxy state → ∃ key, parties.honest key ∧
    Base64.decode state.upstreamPubkey = some (List.Vector.toList key)

/-- A publisher signs a narinfo, or a proxy answers with one. -/
inductive Step (parties : Parties) :
    List Statement → List Statement → Prop where
  | publish {journal : List Statement} {signing : Signing Rand}
      {text signed fingerprint : Str} {info : NarInfo}
      (publishes : parties.publisher signing.secret)
      (holds : Holds info fingerprint text)
      (written : Signing.rewrite primitives text signing = .ok signed) :
      Step parties journal
        (journal ++ [⟨signing.secret.signer, none, info, fingerprint⟩])
  -- the upstream of the proxy is anybody who cannot forge
  | answer {journal : List Statement} {hop : Hop Rand}
      {text served fingerprint : Str} {info : NarInfo}
      (runs : parties.proxy hop.state) (receives : hop.Receives text)
      (holds : Holds info fingerprint text)
      (unforged : ∀ key, parties.honest key →
        EdUnforged primitives journal info fingerprint key)
      (answers : hop.Answers primitives served) :
      Step parties journal
        (journal ++ [⟨hop.state.secret.signer, some hop.state, info,
          fingerprint⟩])

/-- The later one was made by a proxy that trusts the earlier one's signer. -/
def VouchedBy (later earlier : Statement) : Prop :=
  later.fingerprint = earlier.fingerprint ∧
    ∃ state, later.proxy = some state ∧
      Base64.decode state.upstreamPubkey =
        some (primitives.edPublic earlier.signer.ed).toList

/-- A publisher made it, of a record with its fingerprint. -/
def Published (parties : Parties) (statement : Statement) : Prop :=
  statement.proxy = none ∧
    statement.info.fingerprint = .ok statement.fingerprint ∧
      ∃ secret, parties.publisher secret ∧
        secret.signer = statement.signer

variable {primitives}

/-- Every new statement is a publisher's, or somebody trusted made it before. -/
theorem grows_of_step {parties : Parties} (configured : parties.Configured)
    (journal after : List Statement)
    (step : Step primitives parties journal after) :
    ∃ statement, after = journal ++ [statement] ∧
      (Published parties statement ∨
        ∃ earlier ∈ journal, VouchedBy primitives statement earlier) := by
  cases step with
  | @publish signing _ _ _ _ publishes holds _ =>
      exact ⟨_, rfl, Or.inl ⟨rfl, holds.2, signing.secret, publishes, rfl⟩⟩
  | @answer hop _ _ fingerprint info runs receives holds unforged answers =>
      refine ⟨_, rfl, Or.inr ?_⟩
      rcases (Hop.Answers.spec_of_receives primitives answers receives
        holds.1 holds.2).1 with ⟨entry, member, verified⟩
      rcases configured hop.state runs with ⟨key, honest, decoded⟩
      rcases unforged key honest
        (edShown_of_verifyEd25519Sig member decoded verified) with
        ⟨earlier, old, sameFingerprint, rfl⟩
      exact ⟨earlier, old, sameFingerprint.symm, hop.state, rfl, decoded⟩

/-- Nobody on the way back changes the fingerprint. -/
theorem fingerprint_of_path {journal : List Statement}
    {statement origin : Statement}
    (path : Relation.ReflTransGen (fun later earlier =>
      earlier ∈ journal ∧ VouchedBy primitives later earlier)
        statement origin) :
    origin.fingerprint = statement.fingerprint := by
  induction path with
  | refl => rfl
  | tail _ step induction => exact step.2.1.symm.trans induction

/-- What a shared fingerprint says about two records. -/
structure Agrees (origin info : NarInfo) : Prop where
  fields : SemicolonFree origin → origin.storePath = info.storePath ∧
    origin.narHash = info.narHash ∧ origin.narSize = info.narSize
  references : SemicolonFree origin → CommaFree origin → CommaFree info →
    origin.references.Perm info.references

theorem agrees_of_fingerprint_eq {origin info : NarInfo} {fingerprint : Str}
    (originComputed : origin.fingerprint = .ok fingerprint)
    (computed : info.fingerprint = .ok fingerprint) :
    Agrees origin info where
  fields clean := fields_eq_of_fingerprint_eq clean originComputed computed
  references clean commas otherCommas :=
    references_perm_of_fingerprint_eq clean commas otherCommas
      originComputed computed

/-! ## The client -/

section Client

variable {parties : Parties} {journal : List Statement} {info : NarInfo}
  {fingerprint : Str}

variable (primitives) in
/--
A key holder has signed this fingerprint, and from him the statements go back
to a publisher, who has signed a record that agrees with this one.
-/
def ComesFrom (parties : Parties) (journal : List Statement)
    (Holder : HybridSigner → Prop) (info : NarInfo) (fingerprint : Str) :
    Prop :=
  ∃ statement ∈ journal, ∃ origin ∈ journal, Holder statement.signer ∧
    statement.fingerprint = fingerprint ∧ Published parties origin ∧
      Relation.ReflTransGen (fun later earlier =>
        earlier ∈ journal ∧ VouchedBy primitives later earlier)
          statement origin ∧
      Agrees origin.info info

/-- What somebody has signed comes from a publisher. -/
theorem comesFrom_of_reached (configured : parties.Configured)
    (reached : Relation.ReflTransGen (Step primitives parties) [] journal)
    (computed : info.fingerprint = .ok fingerprint) {statement : Statement}
    (member : statement ∈ journal)
    (same : statement.fingerprint = fingerprint)
    {Holder : HybridSigner → Prop} (holder : Holder statement.signer) :
    ComesFrom primitives parties journal Holder info fingerprint := by
  rcases goesBack_of_reached (grows_of_step configured) reached member with
    ⟨origin, originMember, published, path⟩
  have originComputed : origin.info.fingerprint = .ok fingerprint := by
    rw [published.2.1, fingerprint_of_path path, same]
  exact ⟨statement, member, origin, originMember, holder, same, published,
    path, agrees_of_fingerprint_eq originComputed computed⟩

/--
Whatever the network delivers, a narinfo that `verify --require-pqc` accepts
was signed by the holder of the key and goes back to a publisher's record, as
long as one of the two schemes holds for the key.  The two have the same path,
hash and size if the publisher's fields are free of semicolons.  With `--pubkey`
this rests on the classical scheme.
-/
theorem accepted_was_published (configured : parties.Configured)
    (reached : Relation.ReflTransGen (Step primitives parties) [] journal)
    {files : FileSystem} {narinfoPath : Str}
    {pubkeyB64 pqcPubkeyPath : Option Str} {requirePqc : Bool}
    (reads : Reads files narinfoPath info fingerprint)
    (accepted : cmdVerify primitives files narinfoPath pubkeyB64
      pqcPubkeyPath requirePqc = .ok ()) :
    (∀ path pk, requirePqc = true → pqcPubkeyPath = some path →
      PublicKey.load files path = .ok pk →
      (EdUnforged primitives journal info fingerprint pk.keys.ed25519 ∨
        MlUnforged primitives journal info fingerprint pk.keys.mlDsa) →
      ComesFrom primitives parties journal (fun signer =>
        primitives.edPublic signer.ed = pk.keys.ed25519 ∨
          (primitives.mlPublic signer.mlDsa).toList = pk.keys.mlDsa)
        info fingerprint) ∧
      ∀ arg key, pubkeyB64 = some arg →
        Base64.decode (parseNamedPubkey arg).2 =
          some (List.Vector.toList key) →
        EdUnforged primitives journal info fingerprint key →
        ComesFrom primitives parties journal
          (fun signer => primitives.edPublic signer.ed = key)
          info fingerprint := by
  rcases (cmdVerify_eq_ok_iff _).mp accepted with
    ⟨-, other, otherFingerprint, otherReads, classical, passes⟩
  rcases reads.unique otherReads with ⟨rfl, rfl⟩
  rcases reads with ⟨text, -, -, computed⟩
  constructor
  · rintro path pk rfl rfl loaded half
    have hybrid : HybridEvidence primitives other otherFingerprint pk := by
      rcases passes with ⟨otherPk, otherLoaded, hybrid | ⟨optional, -⟩⟩
      · rcases Except.ok.inj (loaded.symm.trans otherLoaded) with rfl
        exact hybrid
      · cases optional
    rcases shown_of_hybridEvidence hybrid with ⟨edShown, mlShown⟩
    rcases half with unforged | unforged
    · rcases unforged edShown with ⟨statement, member, same, key⟩
      exact comesFrom_of_reached configured reached computed member same
        (Or.inl key)
    · rcases unforged mlShown with ⟨statement, member, same, key⟩
      exact comesFrom_of_reached configured reached computed member same
        (Or.inr key)
  · rintro arg key rfl decoded unforged
    rcases classical arg rfl with ⟨entry, member, verified⟩
    rcases unforged (edShown_of_verifyEd25519Sig member decoded verified) with
      ⟨statement, signed, same, sameKey⟩
    exact comesFrom_of_reached configured reached computed signed same sameKey

end Client

/-! ## A publisher and a proxy -/

/-- The sample key, as the key of a cache. -/
def cacheSigning : Signing Unit :=
  ⟨⟨"cache".toList, sampleSecret.signer⟩, (), by decide⟩

/-- The cache publishes, and a proxy of the cache answers. -/
def sampleParties : Parties where
  publisher secret := secret = cacheSigning.secret
  proxy state := state = sampleState
  honest key := key = samplePublic.keys.ed25519

/-- The proxy's answer to a request. -/
def sampleHop : Hop Unit :=
  ⟨sampleState, sampleUpstream (crowded 0), (), "x.narinfo".toList,
    by decide⟩

/-- What has been signed then. -/
def sampleJournal : List Statement :=
  [⟨sampleSecret.signer, none, sampleInfo, sampleFingerprint⟩,
    ⟨sampleSecret.signer, some sampleState, crowded 0, sampleFingerprint⟩]

theorem crowded_fits :
    (asBytes (crowded 0).toText).length ≤ maxNarinfoBytes := by
  decide +kernel

theorem sampleParties_configured : sampleParties.Configured := by
  rintro state rfl
  refine ⟨_, rfl, ?_⟩
  have key := @parseNamedPubkey_entryOf "cache".toList (by decide)
    samplePublic.keys.ed25519.toList
  change Base64.decode (parseNamedPubkey sampleUpstreamKey).2 = _
  rw [sampleUpstreamKey, ← samplePublic, key]
  exact Base64.decode_encode _

theorem sampleJournal_reached :
    Relation.ReflTransGen (Step Primitives.transparent sampleParties) []
      sampleJournal := by
  have holds : Holds sampleInfo sampleFingerprint sampleInfo.toText :=
    ⟨parse_toText sampleInfo_representable, sampleInfo_fingerprint⟩
  have publish := @Step.publish _ Primitives.transparent sampleParties []
    cacheSigning _ _ _ _ rfl holds
    (cacheSigning.rewrite_eq Primitives.transparent holds)
  have unforged (key : ByteArr ed25519PublicKeyLen)
      (honest : sampleParties.honest key) :
      EdUnforged Primitives.transparent
        [⟨sampleSecret.signer, none, sampleInfo, sampleFingerprint⟩]
        (crowded 0) sampleFingerprint key := by
    rintro -
    exact ⟨_, List.mem_singleton.mpr rfl, rfl, honest.symm⟩
  have answer := @Step.answer _ _ sampleParties _ sampleHop _ _ _ _ rfl
    (crowded_receives crowded_fits)
    ⟨crowded_parse 0, crowded_fingerprint 0⟩ unforged
    (crowded_answers crowded_fits)
  exact (Relation.ReflTransGen.single publish).tail answer

/-- The client's files: the answer, and the key of the proxy. -/
def sampleClient : FileSystem :=
  sampleFiles (sampleServed 0) sampleInfo

theorem sampleClient_reads :
    Reads sampleClient "n".toList (sampleServed 0) sampleFingerprint :=
  ⟨(sampleServed 0).toText, FileSystem.readToString_eq_some rfl,
    parse_reSign _ (by decide) (crowded_parse 0),
    (fingerprint_reSign _ _ _ _ _).trans (crowded_fingerprint 0)⟩

theorem sampleClient_accepts :
    cmdVerify Primitives.transparent sampleClient "n".toList none
      (some "k".toList) true = .ok () := by
  have noEd : edValues (crowded 0) sampleSecret.name = [] := by
    decide +kernel
  have noPqc : pqcValues (crowded 0) sampleSecret.name = [] := by
    decide +kernel
  refine (cmdVerify_eq_ok_iff _).mpr ⟨.inr (by simp), _, _,
    sampleClient_reads, by simp, samplePublic, sampleFiles_load _ _,
    .inl ((verifyHybrid_eq_ok_iff _).mpr ⟨?_, ?_⟩)⟩
  · refine (edAccepts_reSign_iff Primitives.transparent_correct
      (by decide)).mpr (.inl ?_)
    rw [noEd]
    decide
  · apply pqcAccepts_reSign Primitives.transparent_correct (by decide)
    rw [noPqc]
    decide

/-- The client's narinfo goes back to the cache. -/
theorem accepted_was_published_sample :
    ComesFrom Primitives.transparent sampleParties sampleJournal
      (fun signer =>
        Primitives.transparent.edPublic signer.ed =
            samplePublic.keys.ed25519 ∨
          (Primitives.transparent.mlPublic signer.mlDsa).toList =
            samplePublic.keys.mlDsa)
      (sampleServed 0) sampleFingerprint := by
  have unforged : MlUnforged Primitives.transparent sampleJournal
      (sampleServed 0) sampleFingerprint samplePublic.keys.mlDsa := by
    rintro -
    exact ⟨_, List.mem_cons_self, rfl, rfl⟩
  exact (accepted_was_published sampleParties_configured
    sampleJournal_reached sampleClient_reads sampleClient_accepts).1 _ _ rfl
    rfl (sampleFiles_load _ _) (Or.inr unforged)

end NixPqcCache.Provenance
