import NixPqcCache.NarinfoLengths
import NixPqcCache.Server

/-!
# Proxies in front of proxies

A proxy may be the upstream of another one.  A request to the last one goes
through all of them to the origin, and every proxy answers it, even if only
with the news that something further up has failed.

What a proxy's HTTP client makes of the server at its upstream is a parameter:
it may change a path, follow a redirect, or give up after its thirty seconds.
The results name what they ask of it for the path of the request.

A NAR comes through unchanged.  A narinfo gets one pair of entries at each
proxy, which makes it longer by a known number of bytes, so the cap on the
body bounds how many proxies it can pass.
-/

namespace NixPqcCache.Pipeline

open NixPqcCache.CappedReader
open NixPqcCache.Commands
open NixPqcCache.Data
open NixPqcCache.Foundation
open NixPqcCache.Hybrid
open NixPqcCache.HybridCandidates
open NixPqcCache.KeyFiles
open NixPqcCache.Keys
open NixPqcCache.Narinfo
open NixPqcCache.NarinfoLengths
open NixPqcCache.NarinfoRoundTrip
open NixPqcCache.Proxy
open NixPqcCache.ProxyAnswers
open NixPqcCache.Server
open NixPqcCache.SignRuns
open NixPqcCache.SignatureEntries

/-! ## Pipelines -/

/-- What answers a request for a path. -/
abbrev Origin := Str → Result Reply

/--
A proxy with a validated name, what it draws for a signature, and what its
HTTP client gets when some server is at its upstream.
-/
structure Node (Rand : Type) where
  state : ProxyState
  rand : Rand
  client : Origin → Network
  nameValid : validateKeyName state.secret.name = .ok ()

/-- A server as a proxy in front of it sees it. -/
def Node.sees {Rand : Type} (node : Node Rand) (origin : Origin) : Origin :=
  fun path => node.client origin (node.state.upstream ++ path)

variable {Rand : Type} (primitives : Primitives Rand)
  (framework : Framework)

/-- A proxy in front of a server. -/
def Node.serve (origin : Origin) (node : Node Rand) : Origin := fun path =>
  .ok (respond primitives framework node.state (node.client origin)
    node.rand path)

/-- Some proxies in front of a server, the first one next to it. -/
def pipeline (origin : Origin) (nodes : List (Node Rand)) : Origin :=
  nodes.foldl (Node.serve primitives framework) origin

/-! ## Links -/

/--
A reply comes over a link with its status and its type, and with all of its
bytes, however they are cut.  Where it breaks off it has not come whole.
-/
structure Carries (sent received : Reply) : Prop where
  status : received.status = sent.status
  contentType : received.contentType = sent.contentType
  normal : ending received.body = none ↔ ending sent.body = none
  arrived : (chunks received.body).flatten <+: (chunks sent.body).flatten
  whole : ending sent.body = none →
    (chunks received.body).flatten = (chunks sent.body).flatten

/--
The client asks the server for this very path, follows no redirect, and has
the reply before its time is up.
-/
def Node.Prompt (path : Str) (node : Node Rand) (origin : Origin) : Prop :=
  ∀ sent, origin path = .ok sent →
    ∃ received, node.sees origin path = .ok received ∧ Carries sent received

/-- What the client has whole the server has sent for this very path. -/
def Node.Faithful (path : Str) (node : Node Rand) (origin : Origin) : Prop :=
  ∀ received, node.sees origin path = .ok received →
    ending received.body = none →
      ∃ sent, origin path = .ok sent ∧ Carries sent received

/-- Every proxy but the first is linked in this way to the one before it. -/
def Linked (link : Node Rand → Origin → Prop) (origin : Origin) :
    List (Node Rand) → Prop
  | node :: next :: nodes =>
      link next (node.serve primitives framework origin) ∧
        Linked link (node.serve primitives framework origin) (next :: nodes)
  | _ => True

theorem Carries.refl (reply : Reply) : Carries reply reply :=
  ⟨rfl, rfl, Iff.rfl, List.prefix_rfl, fun _ => rfl⟩

theorem Carries.trans {first second third : Reply}
    (carries : Carries first second) (onwards : Carries second third) :
    Carries first third where
  status := onwards.status.trans carries.status
  contentType := onwards.contentType.trans carries.contentType
  normal := onwards.normal.trans carries.normal
  arrived := onwards.arrived.trans carries.arrived
  whole := fun complete =>
    (onwards.whole (carries.normal.mpr complete)).trans
      (carries.whole complete)

/-- A capped body that is read is read on both sides. -/
theorem Carries.readCapped_eq_ok_iff {sent received : Reply}
    (carries : Carries sent received) {cap : Nat} {bytes : Bytes} :
    readCapped cap received.body = .ok bytes ↔
      readCapped cap sent.body = .ok bytes := by
  simp only [CappedReader.readCapped_eq_ok_iff, ← List.length_flatten,
    carries.normal]
  constructor
  · rintro ⟨complete, fits, rfl⟩
    rw [carries.whole complete] at fits ⊢
    exact ⟨complete, fits, rfl⟩
  · rintro ⟨complete, fits, rfl⟩
    rw [carries.whole complete]
    exact ⟨complete, fits, rfl⟩

/-- A server that replies is seen as it is by a prompt client. -/
theorem Node.Prompt.faithful {path : Str} {node : Node Rand}
    {origin : Origin} (prompt : node.Prompt path origin) {sent : Reply}
    (replies : origin path = .ok sent) : node.Faithful path origin := by
  intro received sees _
  rcases prompt sent replies with ⟨other, same, carries⟩
  rcases Except.ok.inj (sees.symm.trans same) with rfl
  exact ⟨sent, replies, carries⟩

variable {primitives framework} in
theorem Linked.mono {link other : Node Rand → Origin → Prop}
    (implies : ∀ (node next : Node Rand) (origin : Origin),
      link next (node.serve primitives framework origin) →
        other next (node.serve primitives framework origin))
    {nodes : List (Node Rand)} {origin : Origin}
    (linked : Linked primitives framework link origin nodes) :
    Linked primitives framework other origin nodes := by
  induction nodes generalizing origin with
  | nil => trivial
  | cons node nodes induction =>
      cases nodes with
      | nil => trivial
      | cons next nodes =>
          exact ⟨implies node next origin linked.1, induction linked.2⟩

/-- A proxy always replies, so its prompt clients are faithful. -/
theorem Linked.faithful {path : Str} {nodes : List (Node Rand)}
    {origin : Origin}
    (linked : Linked primitives framework (Node.Prompt path) origin nodes) :
    Linked primitives framework (Node.Faithful path) origin nodes :=
  linked.mono fun _ _ _ prompt => prompt.faithful rfl

theorem linked_of_forall {link : Node Rand → Origin → Prop}
    {nodes : List (Node Rand)}
    (always : ∀ node ∈ nodes, ∀ origin, link node origin) (origin : Origin) :
    Linked primitives framework link origin nodes := by
  induction nodes generalizing origin with
  | nil => trivial
  | cons node nodes induction =>
      rw [List.forall_mem_cons] at always
      cases nodes with
      | nil => trivial
      | cons next nodes =>
          exact ⟨always.2 next List.mem_cons_self _,
            induction always.2 _⟩

/-! ## Paths -/

def narinfoPath (hash : Str) : Str :=
  '/' :: (hash ++ ".narinfo".toList)

def narPath (file : Str) : Str :=
  "/nar/".toList ++ file

def cacheInfoPath : Str :=
  "/nix-cache-info".toList

/-- A segment that is its own percent-encoding. -/
def Plain (segment : Str) : Prop :=
  isSegment segment = true ∧ framework.decode segment = some segment

theorem route_narinfoPath {hash : Str}
    (segment : isSegment (hash ++ ".narinfo".toList) = true) :
    route (narinfoPath hash) =
      some (.narinfo (hash ++ ".narinfo".toList)) := by
  have other : hash ++ ".narinfo".toList ≠ "nix-cache-info".toList := by
    intro equal
    have ends : ".narinfo".toList <:+ "nix-cache-info".toList :=
      ⟨hash, equal⟩
    revert ends
    decide
  simp only [route, narinfoPath, if_neg other, segment, if_true]

theorem route_narPath {file : Str} (segment : isSegment file = true) :
    route (narPath file) = some (.nar file) := by
  have other : "nar/".toList ++ file ≠ "nix-cache-info".toList := by
    intro equal
    have starts : "nar/".toList <+: "nix-cache-info".toList :=
      ⟨file, equal⟩
    revert starts
    decide
  have two : isSegment ("nar/".toList ++ file) = false := by
    simp [isSegment]
  have cut : ("nar/".toList ++ file).dropPrefix? "nar/".toList =
      some file := dropPrefix?_eq_some_iff.mpr rfl
  have path : narPath file = '/' :: ("nar/".toList ++ file) := rfl
  rw [path, route, if_neg other, two, if_neg (by decide), cut]
  exact if_pos segment

/-! ## One proxy -/

/-- A server delivers a text that a proxy behind it can read. -/
def Delivers (origin : Origin) (hash text : Str) : Prop :=
  ∃ reply, origin (narinfoPath hash) = .ok reply ∧
    isSuccess reply.status.code = true ∧
      readCapped maxNarinfoBytes reply.body = .ok (asBytes text)

/-- A server answers a request for a narinfo with a text. -/
def Answered (origin : Origin) (hash served : Str) : Prop :=
  ∃ reply, origin (narinfoPath hash) = .ok reply ∧
    reply.status.code = 200 ∧
      reply.contentType = some "text/x-nix-narinfo".toList ∧
        ending reply.body = none ∧
          (chunks reply.body).flatten = asBytes served

variable {primitives framework} {origin : Origin} {node : Node Rand}
  {hash file served text : Str}

/-- What the proxy receives is what it sees its upstream deliver. -/
theorem receives_iff :
    Receives node.state (node.client origin).upstream
        (hash ++ ".narinfo".toList) text ↔
      Delivers (node.sees origin) hash text := by
  have url (other : Str) :
      node.state.upstream ++ ['/'] ++ other ++ ".narinfo".toList =
        node.state.upstream ++ narinfoPath other := by
    simp [narinfoPath]
  have suffix : (hash ++ ".narinfo".toList).dropSuffix? ".narinfo".toList =
      some hash :=
    List.dropSuffix?_eq_some_iff.mpr ⟨_, rfl, by simp⟩
  constructor
  · rintro ⟨other, resp, bytes, found, fetched, success, read, decoded⟩
    rcases Option.some.inj (suffix.symm.trans found) with rfl
    rw [url, Network.upstream] at fetched
    split at fetched
    next reply replied =>
      rcases Except.ok.inj fetched with rfl
      refine ⟨reply, replied, success, ?_⟩
      rw [asBytes_of_fromUtf8 decoded]
      exact read
    next => cases fetched
  · rintro ⟨reply, replied, success, read⟩
    refine ⟨hash, ⟨reply.status.code, reply.body⟩, _, suffix, ?_, success,
      read, fromUtf8_asBytes text⟩
    rw [Node.sees] at replied
    rw [url, Network.upstream, replied]

/-- What a faithful client sees delivered is delivered. -/
theorem Node.Faithful.delivers
    (faithful : node.Faithful (narinfoPath hash) origin)
    (delivers : Delivers (node.sees origin) hash text) :
    Delivers origin hash text := by
  rcases delivers with ⟨received, sees, success, read⟩
  rcases faithful received sees
    (CappedReader.readCapped_eq_ok_iff.mp read).1 with
    ⟨sent, replied, carries⟩
  exact ⟨sent, replied, carries.status ▸ success,
    carries.readCapped_eq_ok_iff.mp read⟩

/-- A prompt client sees what is delivered. -/
theorem Node.Prompt.delivers
    (prompt : node.Prompt (narinfoPath hash) origin)
    (delivers : Delivers origin hash text) :
    Delivers (node.sees origin) hash text := by
  rcases delivers with ⟨sent, replied, success, read⟩
  rcases prompt sent replied with ⟨received, sees, carries⟩
  exact ⟨received, sees, carries.status.symm ▸ success,
    carries.readCapped_eq_ok_iff.mpr read⟩

theorem serve_narinfoPath
    (plain : Plain framework (hash ++ ".narinfo".toList)) :
    node.serve primitives framework origin (narinfoPath hash) =
      .ok (framework.reply plainText (handleNarinfo primitives node.state
        (node.client origin).upstream node.rand
          (hash ++ ".narinfo".toList))) := by
  rw [Node.serve, respond, route_narinfoPath plain.1]
  simp only [plain.2]

/-- The three statuses of the handler. -/
theorem status_handleNarinfo {state : ProxyState} {upstream : Upstream}
    {rand : Rand} {filename : Str} {response : Response}
    (handled : handleNarinfo primitives state upstream rand filename =
      .ok response) :
    response.status = 200 ∨ response.status = 404 := by
  rw [handleNarinfo] at handled
  split at handled
  next =>
    cases handled
    exact Or.inr rfl
  next =>
    rcases Runs.bind_eq_ok_iff.mp handled with ⟨resp, -, handled⟩
    split at handled
    next =>
      simp only [Runs.bind_eq_ok_iff] at handled
      rcases handled with ⟨_, -, _, -, _, -, same⟩
      cases same
      exact Or.inl rfl
    next =>
      cases handled
      exact Or.inr rfl

/-- The handler, by what the proxy sees of its upstream. -/
theorem handleNarinfo_eq :
    handleNarinfo primitives node.state (node.client origin).upstream
        node.rand (hash ++ ".narinfo".toList) =
      (do
        let reply ← node.sees origin (narinfoPath hash)
        if isSuccess reply.status.code then
          let bytes ← readCapped maxNarinfoBytes reply.body
          let text ← okOr (.upstreamNotUtf8 (utf8Error bytes))
            (fromUtf8 bytes)
          let served ← serveText primitives node.state node.rand hash text
          .ok ⟨200, some "text/x-nix-narinfo".toList, asBytes served⟩
        else
          .ok ⟨404, none, asBytes "upstream narinfo not found".toList⟩) := by
  have url : node.state.upstream ++ ['/'] ++ hash ++ ".narinfo".toList =
      node.state.upstream ++ narinfoPath hash := by
    simp [narinfoPath]
  have suffix : (hash ++ ".narinfo".toList).dropSuffix? ".narinfo".toList =
      some hash :=
    List.dropSuffix?_eq_some_iff.mpr ⟨_, rfl, by simp⟩
  rw [handleNarinfo, suffix]
  simp only [url, Network.upstream, Node.sees]
  cases node.client origin (node.state.upstream ++ narinfoPath hash) with
  | error cause => rfl
  | ok reply => rfl

/-- The statuses of a reply to a request for a narinfo. -/
theorem code_serve (plain : Plain framework (hash ++ ".narinfo".toList))
    {reply : Reply}
    (served : node.serve primitives framework origin (narinfoPath hash) =
      .ok reply) :
    (∃ response, handleNarinfo primitives node.state
        (node.client origin).upstream node.rand
          (hash ++ ".narinfo".toList) = .ok response ∧
        reply.status.code = response.status ∧
          reply.contentType = some (response.contentType.getD plainText) ∧
            reply.body = framework.cut response.body) ∨
      ∃ cause, handleNarinfo primitives node.state
          (node.client origin).upstream node.rand
            (hash ++ ".narinfo".toList) = .error cause ∧
          reply.status.code = 502 := by
  rw [serve_narinfoPath plain, Except.ok.injEq] at served
  cases handled : handleNarinfo primitives node.state
      (node.client origin).upstream node.rand
        (hash ++ ".narinfo".toList) with
  | error cause =>
      rw [handled] at served
      exact Or.inr ⟨cause, rfl, served ▸ rfl⟩
  | ok response =>
      rw [handled] at served
      refine Or.inl ⟨response, rfl, ?_, served ▸ rfl, served ▸ rfl⟩
      rw [← served]
      rcases status_handleNarinfo handled with status | status
      · simp only [Framework.reply, status]
        rfl
      · simp only [Framework.reply, status]
        rfl

/-- Where nothing comes back the proxy is a bad gateway. -/
theorem code_serve_of_error
    (plain : Plain framework (hash ++ ".narinfo".toList)) {cause : Error}
    (sees : node.sees origin (narinfoPath hash) = .error cause) :
    ∃ reply, node.serve primitives framework origin (narinfoPath hash) =
        .ok reply ∧ reply.status.code = 502 := by
  refine ⟨_, serve_narinfoPath plain, ?_⟩
  rw [handleNarinfo_eq, sees]
  rfl

/-- What is no success further up is not found. -/
theorem code_serve_of_failure
    (plain : Plain framework (hash ++ ".narinfo".toList)) {received : Reply}
    (sees : node.sees origin (narinfoPath hash) = .ok received)
    (failure : isSuccess received.status.code = false) :
    ∃ reply, node.serve primitives framework origin (narinfoPath hash) =
        .ok reply ∧ reply.status.code = 404 := by
  refine ⟨_, serve_narinfoPath plain, ?_⟩
  have handled : handleNarinfo primitives node.state
      (node.client origin).upstream node.rand (hash ++ ".narinfo".toList) =
        .ok ⟨404, none, asBytes "upstream narinfo not found".toList⟩ := by
    rw [handleNarinfo_eq, sees]
    exact if_neg (by rw [failure]; decide)
  rw [handled]
  rfl

/-- The proxy answers as its handler does. -/
theorem answered_serve_iff
    (plain : Plain framework (hash ++ ".narinfo".toList)) :
    Answered (node.serve primitives framework origin) hash served ↔
      ∃ text info fingerprint, Delivers (node.sees origin) hash text ∧
        Holds info fingerprint text ∧
          UpstreamEvidence primitives node.state info fingerprint ∧
            served = (reSign primitives node.state.secret node.rand info
              fingerprint).toText := by
  have answers : Answered (node.serve primitives framework origin) hash
      served ↔ Answers primitives node.state
        (node.client origin).upstream node.rand
          (hash ++ ".narinfo".toList) served := by
    constructor
    · rintro ⟨reply, replied, status, -, -, bytes⟩
      rcases code_serve plain replied with
        ⟨response, handled, code, -, body⟩ | ⟨cause, -, code⟩
      · refine ⟨response, handled, code.symm.trans status, ?_⟩
        rw [← bytes, body, (framework.cut_complete _).2]
      · rw [code] at status
        cases status
    · intro answers
      refine ⟨_, serve_narinfoPath plain, ?_⟩
      rw [handled_of_answers primitives answers]
      exact ⟨rfl, rfl, (framework.cut_complete _).1,
        (framework.cut_complete _).2⟩
  simp only [answers, answers_iff, receives_iff, Holds, and_assoc]

/-- A proxy delivers what it answers with, if that is not too long. -/
theorem delivers_serve_iff
    (plain : Plain framework (hash ++ ".narinfo".toList)) :
    Delivers (node.serve primitives framework origin) hash served ↔
      Answered (node.serve primitives framework origin) hash served ∧
        byteLength served ≤ maxNarinfoBytes := by
  constructor
  · rintro ⟨reply, replied, success, read⟩
    rcases readCapped_eq_ok_iff.mp read with ⟨normal, fits, bytes⟩
    rw [← List.length_flatten, ← bytes] at fits
    refine ⟨⟨reply, replied, ?_⟩, fits⟩
    rcases code_serve plain replied with
      ⟨response, handled, code, type, body⟩ | ⟨cause, -, code⟩
    · rcases status_handleNarinfo handled with status | status
      · rcases (handleNarinfo_answers_iff primitives).mp
          ⟨handled, status⟩ with ⟨_, _, _, -, -, rfl⟩
        exact ⟨code, type, normal, bytes.symm⟩
      · rw [code, status] at success
        cases success
    · rw [code] at success
      cases success
  · rintro ⟨⟨reply, replied, status, -, normal, bytes⟩, fits⟩
    refine ⟨reply, replied, by rw [status]; decide, ?_⟩
    refine readCapped_eq_ok_iff.mpr ⟨normal, ?_, bytes.symm⟩
    rw [← List.length_flatten, bytes]
    exact fits

/-! ## The record on its way -/

variable (primitives)

/-- A record to which some proxies have appended their pairs. -/
def resigned (fingerprint : Str) (info : NarInfo)
    (nodes : List (Node Rand)) : NarInfo :=
  nodes.foldl (fun info node => reSign primitives node.state.secret
    node.rand info fingerprint) info

theorem resigned_cons (fingerprint : Str) (info : NarInfo)
    (node : Node Rand) (nodes : List (Node Rand)) :
    resigned primitives fingerprint info (node :: nodes) =
      resigned primitives fingerprint
        (reSign primitives node.state.secret node.rand info fingerprint)
        nodes :=
  rfl

/-- Every proxy finds an entry of its upstream in what it receives. -/
def Vouched (fingerprint : Str) (info : NarInfo)
    (nodes : List (Node Rand)) : Prop :=
  ∀ before node after, nodes = before ++ node :: after →
    UpstreamEvidence primitives node.state
      (resigned primitives fingerprint info before) fingerprint

variable {primitives}

theorem vouched_nil (fingerprint : Str) (info : NarInfo) :
    Vouched primitives fingerprint info ([] : List (Node Rand)) := by
  intro before node after impossible
  simp at impossible

theorem vouched_cons_iff {fingerprint : Str} {info : NarInfo}
    {nodes : List (Node Rand)} :
    Vouched primitives fingerprint info (node :: nodes) ↔
      UpstreamEvidence primitives node.state info fingerprint ∧
        Vouched primitives fingerprint
          (reSign primitives node.state.secret node.rand info fingerprint)
          nodes := by
  constructor
  · intro vouched
    refine ⟨vouched [] node nodes rfl, ?_⟩
    rintro before other after rfl
    exact vouched (node :: before) other after rfl
  · rintro ⟨evidence, vouched⟩ before other after split
    cases before with
    | nil =>
        rcases List.cons.inj split with ⟨rfl, rfl⟩
        exact evidence
    | cons first before =>
        rcases List.cons.inj split with ⟨rfl, rfl⟩
        exact vouched before other after rfl

theorem fingerprint_resigned (fingerprint : Str) (info : NarInfo)
    (nodes : List (Node Rand)) :
    (resigned primitives fingerprint info nodes).fingerprint =
      info.fingerprint := by
  induction nodes generalizing info with
  | nil => rfl
  | cons node nodes induction =>
      exact (induction _).trans (fingerprint_reSign primitives _ _ _ _)

/-- An entry that the origin has made is there at every proxy. -/
theorem vouched_of_origin {fingerprint : Str} {info : NarInfo}
    {nodes : List (Node Rand)}
    (evidence : ∀ node ∈ nodes,
      UpstreamEvidence primitives node.state info fingerprint) :
    Vouched primitives fingerprint info nodes := by
  induction nodes generalizing info with
  | nil => exact vouched_nil fingerprint info
  | cons node nodes induction =>
      rw [List.forall_mem_cons] at evidence
      refine vouched_cons_iff.mpr ⟨evidence.1, induction ?_⟩
      intro other member
      rcases evidence.2 other member with ⟨entry, found, verified⟩
      exact ⟨entry, List.mem_append_left _ found, verified⟩

/-! ## How long it gets -/

/-- What a proxy adds to a narinfo. -/
def Node.growth (node : Node Rand) : Nat :=
  pairLength node.state.secret.name

/-- What every proxy but the last answers with can be read by the next. -/
def Fits (info : NarInfo) (nodes : List (Node Rand)) : Prop :=
  nodes.dropLast ≠ [] →
    byteLength info.toText + (nodes.dropLast.map Node.growth).sum ≤
      maxNarinfoBytes

theorem fits_cons_cons_iff {info : NarInfo} {fingerprint : Str}
    {next : Node Rand} {nodes : List (Node Rand)} :
    Fits info (node :: next :: nodes) ↔
      byteLength (reSign primitives node.state.secret node.rand info
          fingerprint).toText ≤ maxNarinfoBytes ∧
        Fits (reSign primitives node.state.secret node.rand info fingerprint)
          (next :: nodes) := by
  rw [Fits, Fits, byteLength_reSign, List.dropLast_cons_cons,
    List.map_cons, List.sum_cons, Node.growth]
  constructor
  · intro fits
    have whole := fits (List.cons_ne_nil _ _)
    exact ⟨by omega, fun _ => by omega⟩
  · rintro ⟨first, rest⟩ -
    by_cases last : (next :: nodes).dropLast = []
    · rw [last, List.map_nil, List.sum_nil]
      omega
    · have whole := rest last
      omega

/-! ## A whole pipeline -/

/-- A narinfo that comes through was read and verified by every proxy. -/
theorem read_of_answered
    (plain : Plain framework (hash ++ ".narinfo".toList))
    {nodes : List (Node Rand)}
    (faithful : Linked primitives framework
      (Node.Faithful (narinfoPath hash)) origin (node :: nodes))
    (answered : Answered (pipeline primitives framework origin
      (node :: nodes)) hash served) :
    ∃ text info fingerprint, Delivers (node.sees origin) hash text ∧
      Holds info fingerprint text ∧
        Vouched primitives fingerprint info (node :: nodes) ∧
          Fits info (node :: nodes) ∧
            served = (resigned primitives fingerprint info
              (node :: nodes)).toText := by
  induction nodes generalizing origin node with
  | nil =>
      rcases (answered_serve_iff plain).mp answered with
        ⟨text, info, fingerprint, delivers, holds, evidence, rfl⟩
      exact ⟨text, info, fingerprint, delivers, holds,
        vouched_cons_iff.mpr ⟨evidence, vouched_nil _ _⟩,
        fun more => (more rfl).elim, rfl⟩
  | cons next nodes induction =>
      rcases induction faithful.2 answered with
        ⟨_, _, _, sees, ⟨parsed, computed⟩, vouched, fits, rfl⟩
      rcases (delivers_serve_iff plain).mp (faithful.1.delivers sees) with
        ⟨first, short⟩
      rcases (answered_serve_iff plain).mp first with
        ⟨text, info, fingerprint, delivers, holds, evidence, rfl⟩
      have reparsed := @parse_reSign _ primitives _ node.rand text info
        fingerprint node.nameValid holds.1
      rcases Except.ok.inj (reparsed.symm.trans parsed) with rfl
      rw [fingerprint_reSign, holds.2, Except.ok.injEq] at computed
      rcases computed with rfl
      exact ⟨text, info, fingerprint, delivers, holds,
        vouched_cons_iff.mpr ⟨evidence, vouched⟩,
        fits_cons_cons_iff.mpr ⟨short, fits⟩, rfl⟩

/-- A narinfo that every proxy can read and verify comes through. -/
theorem answered_of_read
    (plain : Plain framework (hash ++ ".narinfo".toList))
    {nodes : List (Node Rand)}
    (prompt : Linked primitives framework (Node.Prompt (narinfoPath hash))
      origin (node :: nodes)) {info : NarInfo} {fingerprint : Str}
    (delivers : Delivers (node.sees origin) hash text)
    (holds : Holds info fingerprint text)
    (vouched : Vouched primitives fingerprint info (node :: nodes))
    (fits : Fits info (node :: nodes)) :
    Answered (pipeline primitives framework origin (node :: nodes)) hash
      (resigned primitives fingerprint info (node :: nodes)).toText := by
  induction nodes generalizing origin node text info with
  | nil =>
      exact (answered_serve_iff plain).mpr ⟨text, info, fingerprint, delivers,
        holds, (vouched_cons_iff.mp vouched).1, rfl⟩
  | cons next nodes induction =>
      rw [vouched_cons_iff] at vouched
      rw [@fits_cons_cons_iff _ primitives node info fingerprint] at fits
      have first := (answered_serve_iff plain).mpr ⟨text, info, fingerprint,
        delivers, holds, vouched.1, rfl⟩
      exact induction prompt.2
        (prompt.1.delivers ((delivers_serve_iff plain).mpr ⟨first, fits.1⟩))
        ⟨parse_reSign primitives node.nameValid holds.1,
          (fingerprint_reSign primitives _ _ _ _).trans holds.2⟩
        vouched.2 fits.2

theorem pipeline_concat (origin : Origin) (before : List (Node Rand))
    (last : Node Rand) :
    pipeline primitives framework origin (before ++ [last]) =
      last.serve primitives framework
        (pipeline primitives framework origin before) :=
  List.foldl_concat _ _ _ _

/-- What the first proxy brings about and every link keeps, a row keeps. -/
theorem pipeline_invariant {Good : Origin → Prop}
    {link : Node Rand → Origin → Prop}
    (step : ∀ (server : Origin) (next : Node Rand), link next server →
      Good server → Good (next.serve primitives framework server))
    {nodes : List (Node Rand)}
    (linked : Linked primitives framework link origin (node :: nodes))
    (start : Good (node.serve primitives framework origin)) :
    Good (pipeline primitives framework origin (node :: nodes)) := by
  induction nodes generalizing origin node with
  | nil => exact start
  | cons next nodes induction =>
      exact induction linked.2 (step _ next linked.1 start)

/-- A proxy that succeeds has answered. -/
theorem answered_of_success
    (plain : Plain framework (hash ++ ".narinfo".toList)) {reply : Reply}
    (replied : node.serve primitives framework origin (narinfoPath hash) =
      .ok reply)
    (success : isSuccess reply.status.code = true) :
    ∃ text, Answered (node.serve primitives framework origin) hash text := by
  rcases code_serve plain replied with
    ⟨response, handled, code, type, body⟩ | ⟨cause, -, code⟩
  · rcases status_handleNarinfo handled with status | status
    · rcases (handleNarinfo_answers_iff primitives).mp ⟨handled, status⟩ with
        ⟨_, _, text, -, -, rfl⟩
      refine ⟨text, reply, replied, code, type, ?_⟩
      rw [body]
      exact framework.cut_complete _
    · rw [code, status] at success
      cases success
  · rw [code] at success
    cases success

/-! ### A row of fifteen -/

/-- A client that asks the server at once for what follows its address. -/
def sampleClient (origin : Origin) : Network := fun url =>
  match url.dropPrefix? sampleState.upstream with
  | some path => origin path
  | none => .error .http

/-- The sample proxy. -/
def sampleNode : Node Unit :=
  ⟨sampleState, (), sampleClient, sampleState_nameValid⟩

theorem sampleNode_sees (origin : Origin) :
    sampleNode.sees origin = origin := by
  funext path
  change (match (sampleState.upstream ++ path).dropPrefix?
    sampleState.upstream with
      | some path => origin path
      | none => _) = _
  rw [dropPrefix?_eq_some_iff.mpr rfl]

theorem sample_linked (path : Str) (origin : Origin) (count : Nat) :
    Linked Primitives.transparent sampleFramework (Node.Prompt path) origin
      (List.replicate count sampleNode) := by
  refine linked_of_forall _ _ (fun node member server sent replied => ?_) _
  rw [List.eq_of_mem_replicate member, sampleNode_sees]
  exact ⟨sent, replied, .refl sent⟩

theorem sample_plain (text : Str) (segment : isSegment text = true) :
    Plain sampleFramework text :=
  ⟨segment, rfl⟩

theorem sample_delivers :
    Delivers (sampleNetwork (crowded 0)) "x".toList (crowded 0).toText := by
  have fits : (asBytes (crowded 0).toText).length ≤ maxNarinfoBytes := by
    decide +kernel
  refine ⟨_, rfl, rfl, ?_⟩
  simp [readCapped, readLoop, Nat.not_lt.mpr fits]

theorem sample_holds :
    Holds (crowded 0) sampleFingerprint (crowded 0).toText :=
  ⟨crowded_parse 0, crowded_fingerprint 0⟩

theorem sample_vouched (count : Nat) :
    Vouched Primitives.transparent sampleFingerprint (crowded 0)
      (List.replicate count sampleNode) := by
  apply vouched_of_origin
  intro node member
  rw [List.eq_of_mem_replicate member]
  exact crowded_evidence 0

theorem sample_fits {count : Nat} (few : count ≤ 15) :
    Fits (crowded 0) (List.replicate count sampleNode) := by
  intro _
  have text : byteLength (crowded 0).toText ≤ 2032 := by decide +kernel
  have name : byteLength sampleNode.state.secret.name = 7 := by decide
  have limit : maxNarinfoBytes = 65536 := rfl
  rw [List.dropLast_replicate, List.map_replicate, List.sum_replicate,
    Nat.nsmul_eq_mul, Node.growth, pairLength, name]
  omega

/--
A narinfo comes through a row of proxies exactly if the first one receives it,
every one finds an entry of its upstream in it, and it is not yet too long
for the last one.  It comes with the pair of every proxy, in their order.
-/
theorem pipeline_narinfo {nodes : List (Node Rand)}
    (plain : Plain framework (hash ++ ".narinfo".toList))
    (prompt : Linked primitives framework (Node.Prompt (narinfoPath hash))
      origin (node :: nodes)) :
    Answered (pipeline primitives framework origin (node :: nodes)) hash
        served ↔
      ∃ text info fingerprint, Delivers (node.sees origin) hash text ∧
        NarInfo.parse text = .ok info ∧ info.fingerprint = .ok fingerprint ∧
          Vouched primitives fingerprint info (node :: nodes) ∧
            Fits info (node :: nodes) ∧
              served = (resigned primitives fingerprint info
                (node :: nodes)).toText := by
  constructor
  · intro answered
    rcases read_of_answered plain (prompt.faithful _ _) answered with
      ⟨text, info, fingerprint, delivers, holds, vouched, fits, rfl⟩
    exact ⟨text, info, fingerprint, delivers, holds.1, holds.2, vouched, fits,
      rfl⟩
  · rintro ⟨text, info, fingerprint, delivers, parsed, computed, vouched,
      fits, rfl⟩
    exact answered_of_read plain prompt delivers ⟨parsed, computed⟩ vouched
      fits

theorem pipeline_narinfo_sample :
    Answered (pipeline Primitives.transparent sampleFramework
      (sampleNetwork (crowded 0)) [sampleNode, sampleNode]) "x".toList
        (resigned Primitives.transparent sampleFingerprint (crowded 0)
          [sampleNode, sampleNode]).toText :=
  (pipeline_narinfo (sample_plain _ (by decide))
    (sample_linked _ _ 2)).mpr
      ⟨_, _, _, (sampleNode_sees _).symm ▸ sample_delivers, crowded_parse 0,
        crowded_fingerprint 0, sample_vouched 2, @sample_fits 2 (by decide),
        rfl⟩

/-! ### What the client is told -/

/-- A proxy behind another one has an answer of it, or finds nothing. -/
theorem answered_or_notFound
    (plain : Plain framework (hash ++ ".narinfo".toList))
    {before : List (Node Rand)} {last : Node Rand} (behind : before ≠ [])
    (prompt : last.Prompt (narinfoPath hash)
      (pipeline primitives framework origin before)) :
    (∃ text, Answered (pipeline primitives framework origin before) hash
        text) ∨
      ∃ reply, last.serve primitives framework
          (pipeline primitives framework origin before) (narinfoPath hash) =
            .ok reply ∧ reply.status.code = 404 := by
  rcases List.eq_nil_or_concat' before with rfl | ⟨earlier, previous, rfl⟩
  · exact (behind rfl).elim
  · rw [pipeline_concat] at prompt ⊢
    rcases prompt _ rfl with ⟨received, sees, carries⟩
    cases success : isSuccess received.status.code with
    | true =>
        exact Or.inl (answered_of_success plain rfl
          (carries.status ▸ success))
    | false => exact Or.inr (code_serve_of_failure plain sees success)

/--
The status that a row of proxies tells a client is 200, 404 or 502.  It is 502
if the last proxy gets no reply.  If it gets that of the proxy before it, 502
is its own failure, and whatever has failed further up is a 404: a client
cannot tell a bad signature there from a missing narinfo.
-/
theorem pipeline_status
    (plain : Plain framework (hash ++ ".narinfo".toList))
    (before : List (Node Rand)) (last : Node Rand) :
    ∃ reply, pipeline primitives framework origin (before ++ [last])
        (narinfoPath hash) = .ok reply ∧
      (reply.status.code = 200 ∧
          (∃ served, Answered (pipeline primitives framework origin
            (before ++ [last])) hash served) ∨
        reply.status.code = 404 ∨ reply.status.code = 502) ∧
      (∀ cause, last.sees (pipeline primitives framework origin before)
          (narinfoPath hash) = .error cause → reply.status.code = 502) ∧
      (before ≠ [] →
        last.Prompt (narinfoPath hash)
            (pipeline primitives framework origin before) →
          (reply.status.code = 502 → ∃ text, Answered
            (pipeline primitives framework origin before) hash text) ∧
            ((∀ text, ¬ Answered (pipeline primitives framework origin
              before) hash text) → reply.status.code = 404)) := by
  rw [pipeline_concat]
  refine ⟨_, rfl, ?_, ?_, ?_⟩
  · rcases code_serve plain rfl with
      ⟨response, handled, code, -⟩ | ⟨cause, failed, code⟩
    · rcases status_handleNarinfo handled with status | status
      · refine Or.inl ⟨code.trans status, answered_of_success plain rfl ?_⟩
        rw [code, status]
        decide
      · exact Or.inr (Or.inl (code.trans status))
    · exact Or.inr (Or.inr code)
  · intro cause sees
    rcases code_serve_of_error plain sees with ⟨reply, served, code⟩
    rcases Except.ok.inj served with rfl
    exact code
  · intro behind prompt
    rcases answered_or_notFound plain behind prompt with
      answered | ⟨reply, served, code⟩
    · exact ⟨fun _ => answered, fun none =>
        (none answered.choose answered.choose_spec).elim⟩
    · rcases Except.ok.inj served with rfl
      refine ⟨fun failed => ?_, fun _ => code⟩
      rw [code] at failed
      cases failed

/-- The narinfo is missing at the origin of two proxies. -/
theorem pipeline_status_sample :
    ∃ reply, pipeline Primitives.transparent sampleFramework
        (fun _ => .ok ⟨Status.notFound, none, .done⟩)
          ([sampleNode] ++ [sampleNode]) (narinfoPath "x".toList) =
            .ok reply ∧ reply.status.code = 404 := by
  have missing (text : Str) : ¬ Answered (pipeline Primitives.transparent
      sampleFramework (fun _ => .ok ⟨Status.notFound, none, .done⟩)
        [sampleNode]) "x".toList text := by
    rintro ⟨reply, replied, status, -⟩
    rcases @code_serve_of_failure _ Primitives.transparent sampleFramework _
      sampleNode "x".toList (sample_plain _ (by decide)) _
      (congrFun (sampleNode_sees fun _ =>
        .ok ⟨Status.notFound, none, .done⟩) _) rfl with
      ⟨other, served, code⟩
    rcases Except.ok.inj (served.symm.trans replied) with rfl
    rw [code] at status
    cases status
  rcases @pipeline_status _ Primitives.transparent sampleFramework _
    "x".toList (sample_plain _ (by decide)) [sampleNode] sampleNode with
    ⟨reply, replied, -, -, told⟩
  exact ⟨reply, replied, (told (List.cons_ne_nil _ _)
    (sample_linked _ _ 2).1).2 missing⟩

/-- No narinfo comes through sixteen proxies. -/
theorem pipeline_at_most_fifteen {nodes : List (Node Rand)}
    (plain : Plain framework (hash ++ ".narinfo".toList))
    (faithful : Linked primitives framework
      (Node.Faithful (narinfoPath hash)) origin nodes)
    (answered : Answered (pipeline primitives framework origin nodes) hash
      served) :
    nodes.length ≤ 15 := by
  cases nodes with
  | nil => exact Nat.zero_le 15
  | cons node nodes =>
      rcases read_of_answered plain faithful answered with
        ⟨text, info, fingerprint, -, -, -, fits, -⟩
      have growth : ∀ added ∈ (node :: nodes).dropLast.map Node.growth,
          4522 ≤ added := by
        rw [List.forall_mem_map]
        intro other _
        exact Nat.le_add_right 4522 _
      have total := List.card_nsmul_le_sum _ 4522 growth
      rw [List.length_map, List.length_dropLast, List.length_cons,
        Nat.nsmul_eq_mul] at total
      rw [List.length_cons]
      by_cases single : (node :: nodes).dropLast = []
      · have short := congrArg List.length single
        rw [List.length_dropLast, List.length_cons, List.length_nil] at short
        omega
      · have limit : maxNarinfoBytes = 65536 := rfl
        have short := fits single
        omega

/-- One comes through fifteen. -/
theorem answered_fifteen :
    ∃ served, Answered (pipeline Primitives.transparent sampleFramework
      (sampleNetwork (crowded 0)) (List.replicate 15 sampleNode)) "x".toList
        served :=
  ⟨_, answered_of_read (sample_plain _ (by decide)) (sample_linked _ _ 15)
    ((sampleNode_sees _).symm ▸ sample_delivers) sample_holds
      (sample_vouched 15) (sample_fits (Nat.le_refl 15))⟩

/-- None comes through sixteen of the same. -/
theorem pipeline_at_most_fifteen_sample :
    (∃ served, Answered (pipeline Primitives.transparent sampleFramework
      (sampleNetwork (crowded 0)) (List.replicate 15 sampleNode)) "x".toList
        served) ∧
      ∀ served, ¬ Answered (pipeline Primitives.transparent sampleFramework
        (sampleNetwork (crowded 0)) (List.replicate 16 sampleNode))
          "x".toList served := by
  refine ⟨answered_fifteen, fun served answered => ?_⟩
  have few := pipeline_at_most_fifteen (sample_plain _ (by decide))
    ((sample_linked _ _ 16).faithful _ _) answered
  rw [List.length_replicate] at few
  omega

/-! ## What is only passed on -/

/-- The reply with which a proxy passes on what it gets for a NAR. -/
def relayed (framework : Framework) : Result Reply → Reply
  | .ok reply =>
      ⟨reply.status, some (reply.contentType.getD octetStream), reply.body⟩
  | .error cause => framework.reply plainText (.error cause)

theorem serve_narPath (plain : Plain framework file) :
    node.serve primitives framework origin (narPath file) =
      .ok (relayed framework (node.sees origin (narPath file))) := by
  have url : node.state.upstream ++ "/nar/".toList ++ file =
      node.state.upstream ++ narPath file := by
    rw [narPath, List.append_assoc]
  rw [Node.serve, respond, route_narPath plain.1]
  simp only [plain.2]
  rw [handleNar, url, Node.sees]
  cases node.client origin (node.state.upstream ++ narPath file) with
  | error cause => rfl
  | ok reply =>
      change Except.ok (Reply.mk ((Status.fromU16 reply.status.code).getD _)
        _ _) = _
      rw [Status.fromU16_code]
      rfl

/-- A proxy passes a reply with a type on as it has come. -/
theorem Carries.relayed {sent received : Reply}
    (carries : Carries sent received) {type : Str}
    (typed : sent.contentType = some type) :
    Carries sent (relayed framework (.ok received)) where
  status := carries.status
  contentType := by
    rw [typed, Pipeline.relayed, carries.contentType, typed,
      Option.getD_some]
  normal := carries.normal
  arrived := carries.arrived
  whole := carries.whole

theorem exists_contentType_relayed (result : Result Reply) :
    ∃ type, (relayed framework result).contentType = some type := by
  cases result with
  | error cause => exact ⟨_, rfl⟩
  | ok reply => exact ⟨_, rfl⟩

theorem serve_cacheInfoPath :
    node.serve primitives framework origin cacheInfoPath =
      .ok (framework.reply octetStream (do
        let reply ← node.sees origin cacheInfoPath
        let bytes ← readCapped maxCacheInfoBytes reply.body
        .ok ⟨reply.status.code, none, bytes⟩)) := by
  have path : "/nix-cache-info".toList = cacheInfoPath := rfl
  have routed : route cacheInfoPath = some .cacheInfo := by decide
  rw [Node.serve, respond, routed]
  simp only [handleCacheInfo, path, Network.upstream, Node.sees]
  cases node.client origin (node.state.upstream ++ cacheInfoPath) with
  | error cause => rfl
  | ok reply => rfl

/-- A server serves bytes as its cache info, with a status. -/
def Informs (origin : Origin) (status : Status) (bytes : Bytes) : Prop :=
  ∃ reply, origin cacheInfoPath = .ok reply ∧ reply.status = status ∧
    readCapped maxCacheInfoBytes reply.body = .ok bytes

theorem serve_cacheInfoPath_of_informs {status : Status} {bytes : Bytes}
    (informs : Informs (node.sees origin) status bytes) :
    node.serve primitives framework origin cacheInfoPath =
      .ok ⟨status, some octetStream, framework.cut bytes⟩ := by
  rcases informs with ⟨reply, replied, rfl, read⟩
  rw [serve_cacheInfoPath, replied]
  change Except.ok (framework.reply octetStream
    (readCapped maxCacheInfoBytes reply.body >>= _)) = _
  rw [read]
  change Except.ok (Reply.mk ((Status.fromU16 reply.status.code).getD _)
    _ _) = _
  rw [Status.fromU16_code]
  rfl

/-- A proxy that informs is seen to do so by the next one. -/
theorem Node.Prompt.informs {status : Status} {bytes : Bytes}
    (prompt : node.Prompt cacheInfoPath origin)
    (informs : Informs origin status bytes) :
    Informs (node.sees origin) status bytes := by
  rcases informs with ⟨sent, replied, rfl, read⟩
  rcases prompt sent replied with ⟨received, sees, carries⟩
  exact ⟨received, sees, carries.status,
    carries.readCapped_eq_ok_iff.mpr read⟩

/-- The next proxy reads the same bytes. -/
theorem informs_serve {status : Status} {bytes : Bytes}
    (informs : Informs (node.sees origin) status bytes) :
    Informs (node.serve primitives framework origin) status bytes := by
  refine ⟨_, serve_cacheInfoPath_of_informs informs, rfl, ?_⟩
  rcases informs with ⟨reply, -, -, read⟩
  rcases readCapped_eq_ok_iff.mp read with ⟨-, fits, whole⟩
  rcases framework.cut_complete bytes with ⟨normal, cut⟩
  rw [← List.length_flatten, ← whole] at fits
  refine readCapped_eq_ok_iff.mpr ⟨normal, ?_, cut.symm⟩
  rw [← List.length_flatten, cut]
  exact fits

/-- What a proxy sees cannot be passed on as a success. -/
theorem serve_cacheInfoPath_of_uninformed
    (uninformed : ∀ status bytes, Informs (node.sees origin) status bytes →
      status = Status.badGateway) :
    ∃ reply, node.serve primitives framework origin cacheInfoPath =
        .ok reply ∧ reply.status = Status.badGateway := by
  by_cases informs : ∃ status bytes,
      Informs (node.sees origin) status bytes
  · rcases informs with ⟨status, bytes, informs⟩
    exact ⟨_, serve_cacheInfoPath_of_informs informs,
      uninformed status bytes informs⟩
  · refine ⟨_, serve_cacheInfoPath, ?_⟩
    cases replied : node.sees origin cacheInfoPath with
    | error cause => rfl
    | ok reply =>
        cases read : readCapped maxCacheInfoBytes reply.body with
        | error cause =>
            change (framework.reply octetStream
              (readCapped maxCacheInfoBytes reply.body >>= _)).status = _
            rw [read]
            rfl
        | ok bytes =>
            exact (informs ⟨_, bytes, reply, replied, rfl, read⟩).elim

/--
A row of proxies passes a NAR on as the first one does, whatever becomes of its
body.  It passes the cache info on with its status if the first proxy can read
it, and is a bad gateway otherwise.
-/
theorem pipeline_relays {nodes : List (Node Rand)}
    (plain : Plain framework file)
    (nar : Linked primitives framework (Node.Prompt (narPath file)) origin
      (node :: nodes))
    (info : Linked primitives framework (Node.Prompt cacheInfoPath) origin
      (node :: nodes)) :
    (∃ reply, pipeline primitives framework origin (node :: nodes)
        (narPath file) = .ok reply ∧
      Carries (relayed framework (node.sees origin (narPath file))) reply) ∧
      (∀ status bytes, Informs (node.sees origin) status bytes →
        pipeline primitives framework origin (node :: nodes) cacheInfoPath =
          .ok ⟨status, some octetStream, framework.cut bytes⟩) ∧
        ((∀ status bytes, ¬ Informs (node.sees origin) status bytes) →
          ∃ reply, pipeline primitives framework origin (node :: nodes)
            cacheInfoPath = .ok reply ∧
              reply.status = Status.badGateway) := by
  refine ⟨?_, ?_, fun silent => ?_⟩
  · rcases @exists_contentType_relayed framework
      (node.sees origin (narPath file)) with ⟨type, typed⟩
    refine @pipeline_invariant _ primitives framework origin node
      (fun server => ∃ reply, server (narPath file) = .ok reply ∧
        Carries (relayed framework (node.sees origin (narPath file))) reply)
      _ ?_ _ nar ⟨_, serve_narPath plain, .refl _⟩
    rintro server next prompt ⟨sent, replied, carries⟩
    rcases prompt sent replied with ⟨received, sees, onwards⟩
    exact ⟨_, (serve_narPath plain).trans (by rw [sees]),
      (carries.trans onwards).relayed typed⟩
  · intro status bytes informs
    refine (@pipeline_invariant _ primitives framework origin node
      (fun server => Informs server status bytes ∧
        server cacheInfoPath =
          .ok ⟨status, some octetStream, framework.cut bytes⟩)
      _ ?_ _ info ⟨informs_serve informs,
        serve_cacheInfoPath_of_informs informs⟩).2
    rintro server next prompt ⟨informed, -⟩
    have seen := prompt.informs informed
    exact ⟨informs_serve seen, serve_cacheInfoPath_of_informs seen⟩
  · refine @pipeline_invariant _ primitives framework origin node
      (fun server => ∃ reply, server cacheInfoPath = .ok reply ∧
        reply.status = Status.badGateway)
      _ ?_ _ info (serve_cacheInfoPath_of_uninformed
        fun status bytes informs => (silent status bytes informs).elim)
    rintro server next prompt ⟨sent, replied, bad⟩
    apply serve_cacheInfoPath_of_uninformed
    rintro status bytes ⟨received, sees, rfl, -⟩
    rcases prompt sent replied with ⟨other, same, carries⟩
    rcases Except.ok.inj (sees.symm.trans same) with rfl
    exact carries.status.trans bad

/-- Two proxies pass a NAR on. -/
theorem pipeline_relays_sample :
    ∃ reply, pipeline Primitives.transparent sampleFramework
        (sampleNetwork (crowded 0)) [sampleNode, sampleNode]
          (narPath "x".toList) = .ok reply ∧
      Carries (relayed sampleFramework
        (sampleNetwork (crowded 0) (narPath "x".toList))) reply := by
  have relays := (@pipeline_relays _ Primitives.transparent sampleFramework
    (sampleNetwork (crowded 0)) sampleNode "x".toList [sampleNode]
    (sample_plain _ (by decide)) (sample_linked _ _ 2)
    (sample_linked _ _ 2)).1
  rw [sampleNode_sees] at relays
  exact relays

end NixPqcCache.Pipeline
