import NixPqcCache.ProxyAnswers

/-!
# The server of the proxy

The rest of the crate's `proxy` module: the NAR handler, which passes a body on
as it comes, and the router of `serve` around the three handlers.

Of the web framework the model keeps what the crate relies on: a captured path
segment is percent-decoded, a body is cut into chunks that make it up again,
and a response without a type gets that of its Rust type.
-/

namespace NixPqcCache.Server

open NixPqcCache.CappedReader
open NixPqcCache.Commands
open NixPqcCache.Data
open NixPqcCache.Foundation
open NixPqcCache.Hybrid
open NixPqcCache.HybridCandidates
open NixPqcCache.KeyFiles
open NixPqcCache.Keys
open NixPqcCache.Narinfo
open NixPqcCache.Proxy
open NixPqcCache.ProxyAnswers

/-! ## Replies -/

/-- `http::StatusCode`. -/
structure Status where
  code : Nat
  valid : 100 ≤ code ∧ code < 1000
  deriving DecidableEq

/-- `StatusCode::from_u16`. -/
def Status.fromU16 (code : Nat) : Option Status :=
  if valid : 100 ≤ code ∧ code < 1000 then some ⟨code, valid⟩ else none

/-- `StatusCode::NOT_FOUND`. -/
def Status.notFound : Status := ⟨404, by decide⟩

/-- `StatusCode::BAD_GATEWAY`. -/
def Status.badGateway : Status := ⟨502, by decide⟩

@[simp]
theorem Status.fromU16_code (status : Status) :
    Status.fromU16 status.code = some status :=
  dif_pos status.valid

/-- A response on the wire, with its type if that header is readable. -/
structure Reply where
  status : Status
  contentType : Option Str
  body : BodyStream

/-- `client.get(url).send()`, with the type of what is received. -/
abbrev Network := Str → Result Reply

/-- The same without the type, which only `handle_nar` reads. -/
def Network.upstream (network : Network) : Upstream := fun url =>
  match network url with
  | .ok reply => .ok ⟨reply.status.code, reply.body⟩
  | .error cause => .error cause

/-- The type of a body that is a `Vec<u8>`, and the default of `handle_nar`. -/
def octetStream : Str := "application/octet-stream".toList

/-- The type of a body that is a string. -/
def plainText : Str := "text/plain; charset=utf-8".toList

/-! ## The framework -/

/-- What the crate uses of its web framework. -/
structure Framework where
  /-- A captured segment, percent-decoded; it may be no UTF-8 then. -/
  decode : Str → Option Str
  /-- The response to a request with such a segment. -/
  rejected : Reply
  /-- How a body is cut into chunks. -/
  cut : Bytes → BodyStream
  cut_complete : ∀ bytes, ending (cut bytes) = none ∧
    (chunks (cut bytes)).flatten = bytes
  /-- `{:?}` of a string. -/
  debug : Str → Str

theorem Framework.cut_injective (framework : Framework) :
    Function.Injective framework.cut := by
  intro bytes other same
  rw [← (framework.cut_complete bytes).2, same,
    (framework.cut_complete other).2]

/-- A handler's response, with the type that its body has by itself. -/
def Framework.reply (framework : Framework) (ownType : Str) :
    Result Response → Reply
  | .ok response =>
      ⟨(Status.fromU16 response.status).getD Status.badGateway,
        some (response.contentType.getD ownType),
        framework.cut response.body⟩
  | .error cause =>
      let response := intoResponse framework.debug cause
      ⟨(Status.fromU16 response.status).getD Status.badGateway,
        some (response.contentType.getD plainText),
        framework.cut response.body⟩

/-! ## Routes -/

/-- The three routes of `serve`, with the segments that they capture. -/
inductive Route where
  | cacheInfo
  | narinfo (filename : Str)
  | nar (file : Str)
  deriving DecidableEq

/-- A parameter of a route captures one segment that is not empty. -/
def isSegment (text : Str) : Bool :=
  !text.isEmpty && !text.contains '/'

/-- The route of a path; the fixed one goes before those with parameters. -/
def route : Str → Option Route
  | '/' :: rest =>
      if rest = "nix-cache-info".toList then
        some .cacheInfo
      else if isSegment rest then
        some (.narinfo rest)
      else
        match rest.dropPrefix? "nar/".toList with
        | some file => if isSegment file then some (.nar file) else none
        | none => none
  | _ => none

/-! ## The handlers -/

/-- `handle_nar`. -/
def handleNar (state : ProxyState) (network : Network) (file : Str) :
    Result Reply := do
  let resp ← network (state.upstream ++ "/nar/".toList ++ file)
  let status :=
    (Status.fromU16 resp.status.code).getD Status.badGateway
  let contentType := resp.contentType.getD octetStream
  .ok ⟨status, some contentType, resp.body⟩

variable {Rand : Type} (primitives : Primitives Rand)

/-- The response to a request for a path. -/
def respond (framework : Framework) (state : ProxyState) (network : Network)
    (rand : Rand) (path : Str) : Reply :=
  match route path with
  | none => ⟨Status.notFound, none, .done⟩
  | some .cacheInfo =>
      framework.reply octetStream (handleCacheInfo state network.upstream)
  | some (.narinfo segment) =>
      match framework.decode segment with
      | none => framework.rejected
      | some filename =>
          framework.reply plainText
            (handleNarinfo primitives state network.upstream rand filename)
  | some (.nar segment) =>
      match framework.decode segment with
      | none => framework.rejected
      | some file =>
          match handleNar state network file with
          | .ok reply => reply
          | .error cause => framework.reply plainText (.error cause)

/-- What the proxy answers with is the whole of its response. -/
theorem handled_of_answers {state : ProxyState} {upstream : Upstream}
    {rand : Rand} {filename served : Str}
    (answers : Answers primitives state upstream rand filename served) :
    handleNarinfo primitives state upstream rand filename =
      .ok ⟨200, some "text/x-nix-narinfo".toList, asBytes served⟩ := by
  rcases (answers_iff_serves primitives).mp answers with
    ⟨hash, text, fetches, serves⟩
  exact ((handleNarinfo_answers_iff primitives).mpr
    ⟨hash, text, served, fetches, serves, rfl⟩).1

/-! ## No signing oracle -/

section Oracle

variable {state : ProxyState} {upstream : Upstream} {rand other : Rand}
  {filename text : Str}

/-- A request receives a narinfo that the upstream has signed. -/
def ReceivesSigned (state : ProxyState) (upstream : Upstream)
    (filename : Str) : Prop :=
  ∃ text info fingerprint, Receives state upstream filename text ∧
    NarInfo.parse text = .ok info ∧ info.fingerprint = .ok fingerprint ∧
      UpstreamEvidence primitives state info fingerprint

/-- Without such a narinfo the secret is not used. -/
theorem serveText_congr
    (unsigned : ∀ info fingerprint, NarInfo.parse text = .ok info →
      info.fingerprint = .ok fingerprint →
        ¬ UpstreamEvidence primitives state info fingerprint)
    (secret : SecretKey) (hash : Str) :
    serveText primitives state rand hash text =
      serveText primitives { state with secret := secret } other hash
        text := by
  refine Runs.bind_congr_of_ok fun info parsed =>
    Runs.bind_congr_of_ok fun fingerprint computed => ?_
  have rejected :
      upstreamVerified primitives state info fingerprint = false := by
    rw [Bool.eq_false_iff, ne_eq, upstreamVerified_eq_true_iff]
    exact unsigned info fingerprint parsed computed
  have same : upstreamVerified primitives { state with secret := secret }
      info fingerprint = false := rejected
  simp only [rejected, same, Bool.false_eq_true, if_false]

theorem handleNarinfo_congr_secret
    (unsigned : ¬ ReceivesSigned primitives state upstream filename)
    (secret : SecretKey) :
    handleNarinfo primitives state upstream rand filename =
      handleNarinfo primitives { state with secret := secret } upstream
        other filename := by
  rw [handleNarinfo, handleNarinfo]
  cases suffix : filename.dropSuffix? ".narinfo".toList with
  | none => rfl
  | some hash =>
      refine Runs.bind_congr_of_ok fun resp fetched => ?_
      split
      next success =>
        refine Runs.bind_congr_of_ok fun bytes read =>
          Runs.bind_congr_of_ok fun text decoded => ?_
        have receives : Receives state upstream filename text :=
          ⟨hash, resp, bytes, suffix, fetched, success, read,
            okOr_eq_ok_iff.mp decoded⟩
        have same := @serveText_congr _ primitives state rand other text
          (fun info fingerprint parsed computed evidence =>
            unsigned ⟨text, info, fingerprint, receives, parsed, computed,
              evidence⟩) secret hash
        rw [same]
      next => rfl

end Oracle

/--
What the proxy says depends on its secret, or on what is drawn for a
signature, only where it has received a narinfo that its upstream has signed.
-/
theorem signs_only_verified {framework : Framework} {state : ProxyState}
    {network : Network} {secret : SecretKey} {rand other : Rand} {path : Str}
    (differs : respond primitives framework state network rand path ≠
      respond primitives framework { state with secret := secret } network
        other path) :
    ∃ segment filename, route path = some (.narinfo segment) ∧
      framework.decode segment = some filename ∧
        ReceivesSigned primitives state network.upstream filename := by
  simp only [respond] at differs
  cases routed : route path with
  | none => simp [routed] at differs
  | some found =>
      simp only [routed] at differs
      cases found with
      | cacheInfo => exact (differs rfl).elim
      | nar segment =>
          cases decoded : framework.decode segment with
          | none => simp [decoded] at differs
          | some file => exact (differs rfl).elim
      | narinfo segment =>
          cases decoded : framework.decode segment with
          | none => simp [decoded] at differs
          | some filename =>
              refine ⟨segment, filename, rfl, decoded, ?_⟩
              by_contra unsigned
              simp only [decoded] at differs
              exact differs (congrArg _
                (handleNarinfo_congr_secret primitives unsigned secret))

/-- A framework that sends a body in one piece. -/
def sampleFramework : Framework where
  decode := some
  rejected := ⟨⟨400, by decide⟩, none, .done⟩
  cut bytes := .chunk bytes .done
  cut_complete bytes := ⟨rfl, List.append_nil bytes⟩
  debug := id

/-- A network that answers every request with a narinfo. -/
def sampleNetwork (info : NarInfo) : Network := fun _ =>
  .ok ⟨⟨200, by decide⟩, none, .chunk (asBytes info.toText) .done⟩

/-- What the sample proxy replies with another secret. -/
theorem sample_respond (secret : SecretKey) :
    respond Primitives.transparent sampleFramework
        { sampleState with secret := secret } (sampleNetwork (crowded 0)) ()
          "/x.narinfo".toList =
      sampleFramework.reply plainText (.ok ⟨200,
        some "text/x-nix-narinfo".toList,
        asBytes (reSign Primitives.transparent secret () (crowded 0)
          sampleFingerprint).toText⟩) := by
  have fits : (asBytes (crowded 0).toText).length ≤ maxNarinfoBytes := by
    decide +kernel
  rcases (answers_iff _).mp (crowded_answers fits) with
    ⟨text, info, fingerprint, receives, parsed, computed, evidence, -⟩
  rcases receives.unique (crowded_receives fits) with rfl
  rcases Except.ok.inj ((crowded_parse 0).symm.trans parsed) with rfl
  rcases Except.ok.inj ((crowded_fingerprint 0).symm.trans computed) with rfl
  have routed : route "/x.narinfo".toList =
      some (.narinfo "x.narinfo".toList) := by decide
  rw [respond, routed]
  exact congrArg (sampleFramework.reply plainText)
    (handled_of_answers Primitives.transparent ((answers_iff _).mpr
      ⟨_, crowded 0, sampleFingerprint, crowded_receives fits,
        crowded_parse 0, crowded_fingerprint 0, evidence, rfl⟩))

theorem signs_only_verified_sample :
    ∃ segment filename,
      route "/x.narinfo".toList = some (.narinfo segment) ∧
        sampleFramework.decode segment = some filename ∧
          ReceivesSigned Primitives.transparent sampleState
            (sampleNetwork (crowded 0)).upstream filename := by
  let renamed : SecretKey := { sampleSecret with name := "p".toList }
  refine @signs_only_verified _ Primitives.transparent sampleFramework
    sampleState (sampleNetwork (crowded 0)) renamed () () _ ?_
  intro same
  have bodies : asBytes (reSign Primitives.transparent sampleSecret ()
      (crowded 0) sampleFingerprint).toText =
        asBytes (reSign Primitives.transparent renamed () (crowded 0)
          sampleFingerprint).toText := by
    have replies := (sample_respond sampleSecret).symm.trans
      (same.trans (sample_respond renamed))
    have cuts := congrArg Reply.body replies
    simp only [Framework.reply] at cuts
    exact sampleFramework.cut_injective cuts
  have parsed := @parse_reSign _ Primitives.transparent sampleSecret () _ _
    sampleFingerprint (by decide) (crowded_parse 0)
  rw [asBytes_injective bodies, @parse_reSign _ Primitives.transparent renamed
    () _ _ sampleFingerprint (by decide) (crowded_parse 0)] at parsed
  have entries := congrArg NarInfo.sigs (Except.ok.inj parsed)
  have starts := congrArg (List.map (List.take 2)) entries
  revert starts
  decide +kernel

end NixPqcCache.Server
