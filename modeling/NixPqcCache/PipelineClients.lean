import NixPqcCache.Pipeline
import NixPqcCache.VerifyPolicy

/-!
# Clients of a row of proxies

A client may trust any proxy of a row.  It saves what the last proxy answers
with and runs `verify` with the keys of the one it trusts.  What the proxies
after that one have appended does not matter: the verdict is already decided
by what the trusted proxy has received.
-/

namespace NixPqcCache.PipelineClients

open NixPqcCache.Commands
open NixPqcCache.Data
open NixPqcCache.Filesystem
open NixPqcCache.Foundation
open NixPqcCache.Hybrid
open NixPqcCache.HybridCandidates
open NixPqcCache.KeyFiles
open NixPqcCache.Keys
open NixPqcCache.Narinfo
open NixPqcCache.NarinfoLengths
open NixPqcCache.Pipeline
open NixPqcCache.Proxy
open NixPqcCache.ProxyAnswers
open NixPqcCache.Server
open NixPqcCache.SignRuns
open NixPqcCache.SignatureEntries
open NixPqcCache.VerifyPolicy

variable {Rand : Type} (primitives : Primitives Rand)

/-! ## The entries of the proxies -/

/-- What a proxy draws as its signature. -/
def signature (fingerprint : Str) (node : Node Rand) : HybridSignature :=
  node.state.secret.signer.sign primitives node.rand (asBytes fingerprint)

/-- The `Sig` entries of proxies. -/
def sigEntries (fingerprint : Str) (nodes : List (Node Rand)) : List Str :=
  nodes.map fun node =>
    sigEntry node.state.secret.name (signature primitives fingerprint node)

/-- The `Sig-PQC` entries of proxies. -/
def sigPqcEntries (fingerprint : Str) (nodes : List (Node Rand)) :
    List Str :=
  nodes.map fun node => encodeSigPqc node.state.secret.name
    (signature primitives fingerprint node).mlDsa

/-- Each proxy has appended one pair, in their order. -/
theorem resigned_eq (fingerprint : Str) (info : NarInfo)
    (nodes : List (Node Rand)) :
    resigned primitives fingerprint info nodes =
      { info with
        sigs := info.sigs ++ sigEntries primitives fingerprint nodes
        sigPqc := info.sigPqc ++
          sigPqcEntries primitives fingerprint nodes } :=
  foldl_reSign_eq (fun node : Node Rand => node.state.secret) Node.rand
    fingerprint info nodes

/-- What a row answers with is read back. -/
theorem parse_resigned {text fingerprint : Str} {info : NarInfo}
    (parsed : NarInfo.parse text = .ok info) (node : Node Rand)
    (nodes : List (Node Rand)) :
    NarInfo.parse
        (resigned primitives fingerprint info (node :: nodes)).toText =
      .ok (resigned primitives fingerprint info (node :: nodes)) := by
  induction nodes generalizing text info node with
  | nil => exact parse_reSign primitives node.nameValid parsed
  | cons next nodes induction =>
      rw [resigned_cons]
      exact induction (parse_reSign primitives node.nameValid parsed) next

variable {primitives} {framework : Framework} {origin : Origin}
  {hash served : Str}

/-! ## The two halves -/

theorem edAccepts_resigned_iff (correct : primitives.Correct)
    {fingerprint : Str} {info : NarInfo} (node : Node Rand)
    (after : List (Node Rand)) :
    edAccepts primitives
        (resigned primitives fingerprint info (node :: after)).sigs
          fingerprint node.state.secret.name
            (node.state.secret.publicKey primitives).keys = true ↔
      (Candidates.distinct
          (edValues info node.state.secret.name)).length <
          maxSigCandidates ∨
        edAccepts primitives info.sigs fingerprint node.state.secret.name
          (node.state.secret.publicKey primitives).keys = true := by
  have clean := colon_not_mem node.nameValid
  rw [edAccepts, edAccepts, resigned_eq, sigEntries, List.map_cons,
    List.filterMap_append,
    List.filterMap_cons_some (edCandidate_sigEntry clean _),
    ← edValues_eq_filterMap]
  exact Candidates.accepts_append_cons_iff (edGood_sign correct _ _ _) _

theorem pqcAccepts_resigned (correct : primitives.Correct)
    {fingerprint : Str} {info : NarInfo} (node : Node Rand)
    (after : List (Node Rand))
    (room : (Candidates.distinct
      (pqcValues info node.state.secret.name)).length < maxSigCandidates) :
    pqcAccepts primitives
        (resigned primitives fingerprint info (node :: after)).sigPqc
          fingerprint node.state.secret.name
            (node.state.secret.publicKey primitives).keys = true := by
  have clean := colon_not_mem node.nameValid
  have length : (signature primitives fingerprint node).mlDsa.length =
      mlDsa65SignatureLen :=
    length_mlDsa_sign primitives _ _ _
  rw [pqcAccepts, resigned_eq, sigPqcEntries, List.map_cons,
    List.filterMap_append,
    List.filterMap_cons_some (pqcCandidate_encodeSigPqc clean length),
    ← pqcValues_eq_filterMap]
  exact (Candidates.accepts_append_cons_iff
    (pqcGood_sign correct _ _ _) _).mpr (.inl room)

/-- What a proxy can read leaves places in the ML-DSA half. -/
theorem pqcRoom_of_delivers {node : Node Rand} {text : Str}
    {info : NarInfo} (delivers : Delivers (node.sees origin) hash text)
    (parsed : NarInfo.parse text = .ok info) (keyname : Str) :
    (Candidates.distinct (pqcValues info keyname)).length <
      maxSigCandidates :=
  (receives_iff.mpr delivers).pqcRoom parsed keyname

/-- At most one text is delivered. -/
theorem delivers_unique {text other : Str}
    (delivers : Delivers origin hash text)
    (otherDelivers : Delivers origin hash other) : other = text := by
  rcases delivers with ⟨reply, replied, -, read⟩
  rcases otherDelivers with ⟨otherReply, otherReplied, -, otherRead⟩
  rcases Except.ok.inj (replied.symm.trans otherReplied) with rfl
  exact asBytes_injective (Except.ok.inj (otherRead.symm.trans read))

/-! ## The verdict -/

theorem pipeline_append (origin : Origin)
    (before after : List (Node Rand)) :
    pipeline primitives framework origin (before ++ after) =
      pipeline primitives framework
        (pipeline primitives framework origin before) after :=
  List.foldl_append

/-- The hybrid verdict on what a row of proxies answers with. -/
theorem verifyHybrid_resigned_iff (correct : primitives.Correct)
    {text fingerprint : Str} {info : NarInfo} {node : Node Rand}
    {after : List (Node Rand)}
    (delivers : Delivers (node.sees origin) hash text)
    (parsed : NarInfo.parse text = .ok info) :
    verifyHybrid primitives
        (resigned primitives fingerprint info (node :: after)) fingerprint
          node.state.secret.name
            (node.state.secret.publicKey primitives).keys = .ok () ↔
      (Candidates.distinct
          (edValues info node.state.secret.name)).length <
          maxSigCandidates ∨
        ∃ sig ∈ Candidates.admitted maxSigCandidates
            (edValues info node.state.secret.name),
          verifyEd25519Only primitives
            (node.state.secret.publicKey primitives).keys.ed25519
              (asBytes fingerprint) sig = .ok () := by
  have early :
      (∃ sig ∈ Candidates.admitted maxSigCandidates
          (edValues info node.state.secret.name),
        verifyEd25519Only primitives
          (node.state.secret.publicKey primitives).keys.ed25519
            (asBytes fingerprint) sig = .ok ()) ↔
        edAccepts primitives info.sigs fingerprint node.state.secret.name
          (node.state.secret.publicKey primitives).keys = true := by
    rw [edAccepts, ← edValues_eq_filterMap, Candidates.accepts_eq_true_iff]
    simp only [edGood, Runs.isOk_eq_true_iff]
  rw [early, ← edAccepts_resigned_iff correct node after,
    verifyHybrid_eq_ok_iff]
  exact and_iff_left (pqcAccepts_resigned correct node after
    (pqcRoom_of_delivers delivers parsed _))

/--
A client behind a row of proxies that trusts one of them, by its `name:key`
and its public key file, accepts what the last one answers with exactly if
that proxy has received a narinfo whose entries of its name leave a place in
the `Sig` half, or verify already.
-/
theorem pipeline_verify_iff (correct : primitives.Correct)
    {before after : List (Node Rand)} {node : Node Rand}
    (plain : Plain framework (hash ++ ".narinfo".toList))
    (faithful : Linked primitives framework
      (Node.Faithful (narinfoPath hash))
        (pipeline primitives framework origin before) (node :: after))
    (answered : Answered (pipeline primitives framework origin
      (before ++ node :: after)) hash served)
    {files : FileSystem} {path pqcPath : Str}
    (read : files.readToString path = some served)
    (loaded : PublicKey.load files pqcPath =
      .ok (node.state.secret.publicKey primitives)) :
    cmdVerify primitives files path
        (some (entryOf node.state.secret.name
          (node.state.secret.publicKey primitives).keys.ed25519.toList))
        (some pqcPath) true = .ok () ↔
      ∃ text info fingerprint,
        Delivers (node.sees (pipeline primitives framework origin before))
            hash text ∧
          NarInfo.parse text = .ok info ∧
            info.fingerprint = .ok fingerprint ∧
              ((Candidates.distinct
                  (edValues info node.state.secret.name)).length <
                  maxSigCandidates ∨
                ∃ sig ∈ Candidates.admitted maxSigCandidates
                    (edValues info node.state.secret.name),
                  verifyEd25519Only primitives
                    (node.state.secret.publicKey primitives).keys.ed25519
                      (asBytes fingerprint) sig = .ok ()) := by
  rw [pipeline_append] at answered
  rcases read_of_answered plain faithful answered with
    ⟨text, info, fingerprint, delivers, holds, -, -, rfl⟩
  have reparsed := @parse_resigned _ primitives _ fingerprint _ holds.1 node
    after
  have recomputed := (@fingerprint_resigned _ primitives fingerprint info
    (node :: after)).trans holds.2
  have own : ClassicalEvidence primitives
      (resigned primitives fingerprint info (node :: after)) fingerprint
        (entryOf node.state.secret.name
          (node.state.secret.publicKey primitives).keys.ed25519.toList) := by
    refine @classicalEvidence_of_sign _ _ correct _ node.rand _ _
      (colon_not_mem node.nameValid) ?_
    rw [resigned_eq]
    exact List.mem_append_right _ List.mem_cons_self
  have hybrid := @verifyHybrid_resigned_iff _ _ _ _ correct _ fingerprint _
    node after delivers holds.1
  constructor
  · intro accepted
    rcases (cmdVerify_eq_ok_iff primitives).mp accepted with
      ⟨-, other, otherFingerprint, reads, -, pk, otherLoaded, evidence⟩
    rcases (reads_iff read reparsed).mp reads with ⟨rfl, computed⟩
    rcases Except.ok.inj (recomputed.symm.trans computed) with rfl
    rcases Except.ok.inj (loaded.symm.trans otherLoaded) with rfl
    rcases evidence with accepted | ⟨impossible, -⟩
    · exact ⟨text, info, fingerprint, delivers, holds.1, holds.2,
        hybrid.mp accepted⟩
    · cases impossible
  · rintro ⟨other, otherInfo, otherFingerprint, otherDelivers, otherParsed,
      otherComputed, free⟩
    rcases delivers_unique delivers otherDelivers with rfl
    rcases Except.ok.inj (holds.1.symm.trans otherParsed) with rfl
    rcases Except.ok.inj (holds.2.symm.trans otherComputed) with rfl
    refine (cmdVerify_eq_ok_iff primitives).mpr
      ⟨by simp, _, fingerprint, ⟨_, read, reparsed, recomputed⟩, ?_, _,
        loaded, Or.inl (hybrid.mpr free)⟩
    rintro arg ⟨⟩
    exact own

/-- What two sample proxies answer with, and the keys of the first one. -/
def sampleSaved : FileSystem :=
  sampleFiles (resigned Primitives.transparent sampleFingerprint (crowded 0)
    [sampleNode, sampleNode]) sampleInfo

theorem pipeline_verify_sample :
    cmdVerify Primitives.transparent sampleSaved "n".toList
      (some (entryOf sampleSecret.name samplePublic.keys.ed25519.toList))
        (some "k".toList) true = .ok () := by
  have plain : Plain sampleFramework ("x".toList ++ ".narinfo".toList) :=
    sample_plain _ (by decide)
  have sees : Delivers (sampleNode.sees (sampleNetwork (crowded 0)))
      "x".toList (crowded 0).toText :=
    (sampleNode_sees _).symm ▸ sample_delivers
  have linked := sample_linked (narinfoPath "x".toList)
    (sampleNetwork (crowded 0)) 2
  have answered := answered_of_read plain linked sees sample_holds
    (sample_vouched 2) (@sample_fits 2 (by decide))
  have absent : edValues (crowded 0) sampleSecret.name = [] := by
    decide +kernel
  have room : (Candidates.distinct
      (edValues (crowded 0) sampleSecret.name)).length <
        maxSigCandidates := by
    rw [absent]
    decide
  exact (@pipeline_verify_iff _ _ _ _ _ _
    Primitives.transparent_correct [] [sampleNode] sampleNode plain
      (linked.faithful _ _) answered sampleSaved _ _
        (FileSystem.readToString_eq_some rfl) (sampleFiles_load _ _)).mpr
    ⟨_, crowded 0, sampleFingerprint, sees, crowded_parse 0,
      crowded_fingerprint 0, Or.inl room⟩

end NixPqcCache.PipelineClients
