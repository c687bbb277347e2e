import NixPqcCache.ProxyAnswers

/-!
# Chains of proxies

A proxy may be the upstream of another one.  In a chain of answered requests
each proxy receives the text that the previous one served, so each answer is
one more pair appended to the same record, over the same fingerprint.
-/

namespace NixPqcCache.ProxyChain

open NixPqcCache.Commands
open NixPqcCache.Data
open NixPqcCache.Fingerprint
open NixPqcCache.Foundation
open NixPqcCache.Hybrid
open NixPqcCache.Keys
open NixPqcCache.Narinfo
open NixPqcCache.Proxy
open NixPqcCache.ProxyAnswers

/-- A proxy with a validated name, and one request to it. -/
structure Hop (Rand : Type) where
  state : ProxyState
  upstream : Upstream
  rand : Rand
  filename : Str
  nameValid : validateKeyName state.secret.name = .ok ()

variable {Rand : Type} (primitives : Primitives Rand)

/-- The proxy of a hop receives a text. -/
def Hop.Receives (hop : Hop Rand) (text : Str) : Prop :=
  ProxyAnswers.Receives hop.state hop.upstream hop.filename text

/-- The proxy of a hop answers with a text. -/
def Hop.Answers (hop : Hop Rand) (served : Str) : Prop :=
  ProxyAnswers.Answers primitives hop.state hop.upstream hop.rand
    hop.filename served

/-- The `Sig` entry the proxy of a hop appends. -/
def Hop.sigEntry (fingerprint : Str) (hop : Hop Rand) : Str :=
  Commands.sigEntry hop.state.secret.name
    (hop.state.secret.signer.sign primitives hop.rand (asBytes fingerprint))

/-- The `Sig-PQC` entry the proxy of a hop appends. -/
def Hop.sigPqcEntry (fingerprint : Str) (hop : Hop Rand) : Str :=
  encodeSigPqc hop.state.secret.name
    (hop.state.secret.signer.sign primitives hop.rand
      (asBytes fingerprint)).mlDsa

/-- A record with the entries of some proxies appended. -/
def appendAll (fingerprint : Str) (info : NarInfo) (hops : List (Hop Rand)) :
    NarInfo :=
  { info with
    sigs := info.sigs ++ hops.map (Hop.sigEntry primitives fingerprint)
    sigPqc := info.sigPqc ++ hops.map (Hop.sigPqcEntry primitives fingerprint) }

theorem appendAll_cons (fingerprint : Str) (info : NarInfo) (hop : Hop Rand)
    (hops : List (Hop Rand)) :
    appendAll primitives fingerprint info (hop :: hops) =
      appendAll primitives fingerprint
        (appendAll primitives fingerprint info [hop]) hops := by
  simp [appendAll]

theorem fingerprint_appendAll (fingerprint : Str) (info : NarInfo)
    (hops : List (Hop Rand)) :
    (appendAll primitives fingerprint info hops).fingerprint =
      info.fingerprint :=
  fingerprint_withSignatures info _ _

/-! ## One proxy -/

/-- What an answer with 200 says about the upstream's narinfo. -/
theorem Hop.Answers.spec {hop : Hop Rand} {served : Str}
    (answers : hop.Answers primitives served) :
    ∃ text info fingerprint, hop.Receives text ∧
      NarInfo.parse text = .ok info ∧ info.fingerprint = .ok fingerprint ∧
        UpstreamEvidence primitives hop.state info fingerprint ∧
          NarInfo.parse served =
            .ok (appendAll primitives fingerprint info [hop]) := by
  rcases (answers_iff primitives).mp answers with
    ⟨text, info, fingerprint, receives, parsed, computed, evidence, equal⟩
  refine ⟨text, info, fingerprint, receives, parsed, computed, evidence, ?_⟩
  rw [equal]
  exact parse_reSign primitives hop.nameValid parsed

/-- The same, when the text that was received is known. -/
theorem Hop.Answers.spec_of_receives {hop : Hop Rand}
    {served text fingerprint : Str} {info : NarInfo}
    (answers : hop.Answers primitives served) (receives : hop.Receives text)
    (parsed : NarInfo.parse text = .ok info)
    (computed : info.fingerprint = .ok fingerprint) :
    UpstreamEvidence primitives hop.state info fingerprint ∧
      NarInfo.parse served =
        .ok (appendAll primitives fingerprint info [hop]) := by
  rcases Hop.Answers.spec primitives answers with
    ⟨otherText, otherInfo, otherFingerprint, otherReceives, otherParsed,
      otherComputed, evidence, reparsed⟩
  rcases ProxyAnswers.Receives.unique receives otherReceives with rfl
  rcases Except.ok.inj (parsed.symm.trans otherParsed) with rfl
  rcases Except.ok.inj (computed.symm.trans otherComputed) with rfl
  exact ⟨evidence, reparsed⟩

/-! ## A chain of proxies -/

/-- Each proxy received the text that the previous one served. -/
inductive Chain : Str → List (Hop Rand) → Str → Prop where
  | origin (text : Str) : Chain text [] text
  | relay {text served final : Str} {hop : Hop Rand}
      {hops : List (Hop Rand)} (receives : hop.Receives text)
      (answers : hop.Answers primitives served)
      (chain : Chain served hops final) : Chain text (hop :: hops) final

/-- The final text holds the origin's record with every pair appended. -/
theorem Chain.parse_final {text final fingerprint : Str} {info : NarInfo}
    {hops : List (Hop Rand)} (chain : Chain primitives text hops final)
    (parsed : NarInfo.parse text = .ok info)
    (computed : info.fingerprint = .ok fingerprint) :
    NarInfo.parse final =
      .ok (appendAll primitives fingerprint info hops) := by
  induction chain generalizing info with
  | origin text =>
      rw [parsed, appendAll]
      simp
  | relay receives answers chain induction =>
      have reparsed := (Hop.Answers.spec_of_receives primitives answers
        receives parsed computed).2
      rw [appendAll_cons]
      exact induction reparsed
        ((fingerprint_appendAll primitives _ _ _).trans computed)

/-- Every proxy of the chain verified an entry over the origin's fingerprint. -/
theorem Chain.evidence {text final fingerprint : Str} {info : NarInfo}
    {before after : List (Hop Rand)} {hop : Hop Rand}
    (chain : Chain primitives text (before ++ hop :: after) final)
    (parsed : NarInfo.parse text = .ok info)
    (computed : info.fingerprint = .ok fingerprint) :
    UpstreamEvidence primitives hop.state
      (appendAll primitives fingerprint info before) fingerprint := by
  induction before generalizing text info with
  | nil =>
      cases chain with
      | relay receives answers chain =>
          have evidence := (Hop.Answers.spec_of_receives primitives answers
            receives parsed computed).1
          simpa [appendAll] using evidence
  | cons first before induction =>
      cases chain with
      | relay receives answers chain =>
          have reparsed := (Hop.Answers.spec_of_receives primitives answers
            receives parsed computed).2
          rw [appendAll_cons]
          exact induction chain reparsed
            ((fingerprint_appendAll primitives _ _ _).trans computed)

/--
A proxy answers with 200 only for a narinfo that its upstream key signed, and
then with that narinfo and its own pair appended.  At the end of a chain of
such answers stand the origin's fingerprint, the entry of the origin that the
first proxy verified, and the pair of every proxy in order.
-/
theorem proxy_chain_vouches :
    (∀ (hop : Hop Rand) (response : Response),
        handleNarinfo primitives hop.state hop.upstream hop.rand
            hop.filename = .ok response →
          response.status = 200 →
        ∃ served text info fingerprint, response.body = asBytes served ∧
          hop.Receives text ∧ NarInfo.parse text = .ok info ∧
            info.fingerprint = .ok fingerprint ∧
              UpstreamEvidence primitives hop.state info fingerprint ∧
                NarInfo.parse served =
                  .ok (appendAll primitives fingerprint info [hop])) ∧
      ∀ (text final : Str) (hop : Hop Rand) (hops : List (Hop Rand)),
        Chain primitives text (hop :: hops) final →
          ∃ info fingerprint, NarInfo.parse text = .ok info ∧
            info.fingerprint = .ok fingerprint ∧
              ∃ finalInfo, NarInfo.parse final = .ok finalInfo ∧
                finalInfo =
                  appendAll primitives fingerprint info (hop :: hops) ∧
                finalInfo.fingerprint = .ok fingerprint ∧
                ∃ entry ∈ info.sigs, entry ∈ finalInfo.sigs ∧
                  verifyEd25519Sig primitives fingerprint entry
                    hop.state.upstreamKeyName hop.state.upstreamPubkey =
                      .ok () := by
  constructor
  · intro hop response handled status
    rcases exists_answers primitives handled status with
      ⟨served, body, answers⟩
    rcases Hop.Answers.spec primitives answers with
      ⟨text, info, fingerprint, spec⟩
    exact ⟨served, text, info, fingerprint, body, spec⟩
  · intro text final hop hops chain
    cases chain with
    | relay receives answers rest =>
        rcases Hop.Answers.spec primitives answers with
          ⟨otherText, info, fingerprint, otherReceives, parsed, computed,
            ⟨entry, member, verified⟩, -⟩
        rcases ProxyAnswers.Receives.unique receives otherReceives with rfl
        have whole := Chain.parse_final primitives
          (.relay receives answers rest) parsed computed
        exact ⟨info, fingerprint, parsed, computed, _, whole, rfl,
          (fingerprint_appendAll primitives _ _ _).trans computed,
          entry, member, List.mem_append_left _ member, verified⟩

end NixPqcCache.ProxyChain
