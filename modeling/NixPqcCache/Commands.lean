import NixPqcCache.Keys

/-!
# The command line

The `sign` and `verify` commands of the crate's binary.  `sign` rewrites every
narinfo of a directory; `signText` is what it does to one of them.  `verify`
checks one narinfo under a policy given by its three options.
-/

namespace NixPqcCache.Commands

open NixPqcCache.Data
open NixPqcCache.Filesystem
open NixPqcCache.Foundation
open NixPqcCache.Hybrid
open NixPqcCache.Keys
open NixPqcCache.Narinfo

variable {Rand : Type} (primitives : Primitives Rand)

/-! ## `sign` -/

/-- The `Sig:` entry of a signature. -/
def sigEntry (name : Str) (sig : HybridSignature) : Str :=
  name ++ [':'] ++ Base64.encode sig.ed25519.toList

/-- The entries of `entries` that are not `name`'s own. -/
def dropOwn (name : Str) (entries : List Str) : List Str :=
  entries.filter fun s => !(name ++ [':']).isPrefixOf s

/-- Replace the entries of the secret key by one fresh pair. -/
def signInfo (secret : SecretKey) (rand : Rand) (info : NarInfo)
    (fingerprint : Str) : NarInfo :=
  let sig := secret.signer.sign primitives rand (asBytes fingerprint)
  { info with
    sigs := dropOwn secret.name info.sigs ++ [sigEntry secret.name sig]
    sigPqc := dropOwn secret.name info.sigPqc ++
      [encodeSigPqc secret.name sig.mlDsa] }

/-- The text `cmd_sign` writes in place of a narinfo. -/
def signText (secret : SecretKey) (rand : Rand) (text : Str) :
    Result Str := do
  let info ← NarInfo.parse text
  let fingerprint ← info.fingerprint
  .ok (signInfo primitives secret rand info fingerprint).toText

/-! ## `verify` -/

/-- Some `Sig:` entry verifies under a `--pubkey` argument. -/
def classicalOk (info : NarInfo) (fingerprint pubkeyArg : Str) : Bool :=
  let (expectedName, pubkeyB64) := parseNamedPubkey pubkeyArg
  info.sigs.any fun s =>
    (verifyEd25519Sig primitives fingerprint s expectedName pubkeyB64).isOk

/-- The `--pubkey` check. -/
def checkClassical (info : NarInfo) (fingerprint : Str) :
    Option Str → Result Unit
  | some pubkeyArg =>
      if classicalOk primitives info fingerprint pubkeyArg then
        .ok ()
      else
        .error .classicalRejected
  | none => .ok ()

/-- The `--pqc-pubkey` check: whether a hybrid signature verified. -/
def checkHybrid (files : FileSystem) (info : NarInfo) (fingerprint : Str)
    (requirePqc : Bool) : Option Str → Result Bool
  | some pqcPubkeyPath => do
      let pk ← PublicKey.load files pqcPubkeyPath
      let pqcOk :=
        (verifyHybrid primitives info fingerprint pk.name pk.keys).isOk
      if pqcOk then
        .ok true
      else if requirePqc || !info.sigPqc.isEmpty then
        .error (.hybridRejected pk.name)
      else
        .ok false
  | none => .ok false

/-- `cmd_verify`. -/
def cmdVerify (files : FileSystem) (narinfoPath : Str)
    (pubkeyB64 pqcPubkeyPath : Option Str) (requirePqc : Bool) :
    Result Unit :=
  if pubkeyB64.isNone && pqcPubkeyPath.isNone then
    .error .noVerificationRequested
  else do
    let text ← okOr (.io narinfoPath) (files.readToString narinfoPath)
    let info ← NarInfo.parse text
    let fingerprint ← info.fingerprint
    checkClassical primitives info fingerprint pubkeyB64
    let pqcOk ←
      checkHybrid primitives files info fingerprint requirePqc pqcPubkeyPath
    if requirePqc && !pqcOk then
      .error .requirePqcUnmet
    else
      .ok ()

end NixPqcCache.Commands
