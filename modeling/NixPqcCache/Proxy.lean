import NixPqcCache.Commands

/-!
# The re-signing proxy

The crate's `proxy` module.  A request for a narinfo fetches it from the
upstream cache, checks the upstream's classical signature, and serves the
narinfo with the proxy's own pair of signatures appended.

The network is a function from URLs to responses.  A response body is a stream
of chunks that ends normally or with an error.
-/

namespace NixPqcCache.Proxy

open NixPqcCache.Commands
open NixPqcCache.Data
open NixPqcCache.Hybrid
open NixPqcCache.Keys
open NixPqcCache.Narinfo

/-- `MAX_NARINFO_BYTES`. -/
abbrev maxNarinfoBytes : Nat := 64 * 1024

/-- `MAX_CACHE_INFO_BYTES`. -/
abbrev maxCacheInfoBytes : Nat := 4 * 1024

/-- The chunks of a response body. -/
inductive BodyStream where
  | done
  | failed (cause : Error)
  | chunk (bytes : Bytes) (rest : BodyStream)

/-- The loop of `read_capped`, with the bytes read so far. -/
def readLoop (cap : Nat) (buf : Bytes) : BodyStream → Result Bytes
  | .done => .ok buf
  | .failed cause => .error cause
  | .chunk bytes rest =>
      let buf := buf ++ bytes
      if cap < buf.length then
        .error (.bodyTooLong cap)
      else
        readLoop cap buf rest

/-- `read_capped`. -/
def readCapped (cap : Nat) (body : BodyStream) : Result Bytes :=
  readLoop cap [] body

/-- A response of the upstream cache. -/
structure UpstreamResponse where
  status : Nat
  body : BodyStream

/-- `client.get(url).send()`. -/
abbrev Upstream := Str → Result UpstreamResponse

/-- `StatusCode::is_success`. -/
def isSuccess (status : Nat) : Bool :=
  200 ≤ status && status < 300

/-- A response of the proxy; without a type the framework's default. -/
structure Response where
  status : Nat
  contentType : Option Str
  body : Bytes
  deriving DecidableEq

/-- `ProxyState`, without the HTTP client. -/
structure ProxyState where
  upstream : Str
  upstreamPubkey : Str
  upstreamKeyName : Option Str
  secret : SecretKey

/-- The state `serve` builds from its arguments. -/
def ProxyState.serve (upstream upstreamPubkey : Str) (secret : SecretKey) :
    ProxyState where
  upstream := upstream
  upstreamPubkey := (parseNamedPubkey upstreamPubkey).2
  upstreamKeyName := (parseNamedPubkey upstreamPubkey).1
  secret := secret

/-- `AppError::into_response`. -/
def intoResponse (debug : Str → Str) (cause : Error) : Response where
  status := 502
  contentType := none
  body := asBytes ("proxy error: ".toList ++ cause.message debug)

/-- `handle_cache_info`. -/
def handleCacheInfo (state : ProxyState) (upstream : Upstream) :
    Result Response := do
  let resp ← upstream (state.upstream ++ "/nix-cache-info".toList)
  let bytes ← readCapped maxCacheInfoBytes resp.body
  .ok ⟨resp.status, none, bytes⟩

variable {Rand : Type} (primitives : Primitives Rand)

/-- Some `Sig:` entry verifies under the configured upstream key. -/
def upstreamVerified (state : ProxyState) (info : NarInfo)
    (fingerprint : Str) : Bool :=
  info.sigs.any fun s =>
    (verifyEd25519Sig primitives fingerprint s state.upstreamKeyName
      state.upstreamPubkey).isOk

/-- Append the proxy's own pair of signatures. -/
def reSign (secret : SecretKey) (rand : Rand) (info : NarInfo)
    (fingerprint : Str) : NarInfo :=
  let sig := secret.signer.sign primitives rand (asBytes fingerprint)
  { info with
    sigs := info.sigs ++ [sigEntry secret.name sig]
    sigPqc := info.sigPqc ++ [encodeSigPqc secret.name sig.mlDsa] }

/-- The narinfo the proxy serves for an upstream body. -/
def serveText (state : ProxyState) (rand : Rand) (hash text : Str) :
    Result Str := do
  let info ← NarInfo.parse text
  let fingerprint ← info.fingerprint
  if upstreamVerified primitives state info fingerprint then
    .ok (reSign primitives state.secret rand info fingerprint).toText
  else
    .error (.upstreamRejected hash)

/-- `handle_narinfo`. -/
def handleNarinfo (state : ProxyState) (upstream : Upstream) (rand : Rand)
    (filename : Str) : Result Response :=
  match filename.dropSuffix? ".narinfo".toList with
  | none => .ok ⟨404, none, asBytes "not a narinfo request".toList⟩
  | some hash => do
      let url := state.upstream ++ ['/'] ++ hash ++ ".narinfo".toList
      let resp ← upstream url
      if isSuccess resp.status then
        let bytes ← readCapped maxNarinfoBytes resp.body
        let text ← okOr (.upstreamNotUtf8 (utf8Error bytes))
          (fromUtf8 bytes)
        let served ← serveText primitives state rand hash text
        .ok ⟨200, some "text/x-nix-narinfo".toList, asBytes served⟩
      else
        .ok ⟨404, none, asBytes "upstream narinfo not found".toList⟩

end NixPqcCache.Proxy
