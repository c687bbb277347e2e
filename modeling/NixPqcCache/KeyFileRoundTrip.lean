import NixPqcCache.Foundation.Formats
import NixPqcCache.KeygenRuns

/-!
# Saving and loading keys

Both key files are formats: a key with a validated name and material of the
exact lengths is read back from its file, and nothing else is read from any
file.  A pair of files that was saved for one signer therefore loads as a pair
that agrees, and so does what `keygen` leaves.
-/

namespace NixPqcCache.KeyFileRoundTrip

open NixPqcCache.Data
open NixPqcCache.DiskCommands
open NixPqcCache.Filesystem
open NixPqcCache.Foundation
open NixPqcCache.Foundation.Formats
open NixPqcCache.Hybrid
open NixPqcCache.KeyFiles
open NixPqcCache.KeygenRuns
open NixPqcCache.Keys
open NixPqcCache.Paths
open NixPqcCache.Writes

/-! ## The two formats -/

/-- The file of a secret key. -/
def secretKeyFormat : Format Str SecretKey Error where
  print := SecretKey.body
  read := SecretKey.loadText
  Valid secret := validateKeyName secret.name = .ok ()
  read_print _ := loadText_secretBody
  valid_of_read _ _ := valid_of_loadSecretText

/-- The file of a public key. -/
def publicKeyFormat : Format Str PublicKey Error where
  print := PublicKey.body
  read := PublicKey.loadText
  Valid pk := validateKeyName pk.name = .ok () ∧
    pk.keys.mlDsa.length = mlDsa65PublicKeyLen
  read_print _ valid := loadText_body valid.1 valid.2
  valid_of_read _ _ := valid_of_loadText

/-! ## What a key file holds -/

/-- A line is a tag and the base64 text of bytes of this length. -/
def Encodes (line tag : Str) (length : Nat) (bytes : Bytes) : Prop :=
  ∃ b64, line = tag ++ b64 ∧ Base64.decode b64 = some bytes ∧
    bytes.length = length

/-- The lines of a file that is loaded as this secret key. -/
structure HoldsSecret (text : Str) (secret : SecretKey) : Prop where
  name : (Text.lines text)[0]? = some secret.name
  valid : validateKeyName secret.name = .ok ()
  material : ∃ line, (Text.lines text)[1]? = some line ∧
    Encodes line [] hybridSecretKeyLen secret.signer.toBytes

/-- The lines of a file that is loaded as this public key. -/
structure HoldsPublic (text : Str) (pk : PublicKey) : Prop where
  name : (Text.lines text)[0]? = some pk.name
  valid : validateKeyName pk.name = .ok ()
  ed25519 : ∃ line, (Text.lines text)[1]? = some line ∧
    Encodes line "ed25519:".toList ed25519PublicKeyLen
      pk.keys.ed25519.toList
  mlDsa : ∃ line, (Text.lines text)[2]? = some line ∧
    Encodes line "ml-dsa-65:".toList mlDsa65PublicKeyLen pk.keys.mlDsa

/-- A text is loaded as a secret key exactly when it holds that key. -/
theorem loadSecretText_iff_holds {text : Str} {secret : SecretKey} :
    SecretKey.loadText text = .ok secret ↔ HoldsSecret text secret := by
  rw [loadSecretText_eq_ok_iff]
  constructor
  · rintro ⟨b64, name, valid, line, decoded⟩
    exact ⟨name, valid, b64, line, b64, rfl, decoded, length_toBytes _⟩
  · rintro ⟨name, valid, line, found, b64, rfl, decoded, -⟩
    exact ⟨_, name, valid, found, decoded⟩

/-- A text is loaded as a public key exactly when it holds that key. -/
theorem loadText_iff_holds {text : Str} {pk : PublicKey} :
    PublicKey.loadText text = .ok pk ↔ HoldsPublic text pk := by
  rw [loadText_eq_ok_iff]
  constructor
  · rintro ⟨edB64, mlB64, name, valid, second, third, edDecoded, mlDecoded,
      length⟩
    exact ⟨name, valid,
      ⟨_, second, edB64, rfl, edDecoded, pk.keys.ed25519.toList_length⟩,
      ⟨_, third, mlB64, rfl, mlDecoded, length⟩⟩
  · rintro ⟨name, valid, ⟨_, second, edB64, rfl, edDecoded, -⟩,
      ⟨_, third, mlB64, rfl, mlDecoded, length⟩⟩
    exact ⟨edB64, mlB64, name, valid, second, third, edDecoded, mlDecoded,
      length⟩

/-! ## Files on a disk -/

/-- The files of a disk, for a way to spell its paths. -/
def files (spell : Str → Path) (disk : Disk) : FileSystem := fun path =>
  match disk (spell path) with
  | some (.file contents) => some contents
  | _ => none

/-- `SecretKey::save`. -/
def saveSecret (pid : Nat) (faults : Faults) (path : Path)
    (secret : SecretKey) (disk : Disk) :
    EStateM.Result WriteError Disk Unit :=
  writeNewAtomic pid faults path secret.body disk

/-- `PublicKey::save`. -/
def savePublic (pid : Nat) (faults : Faults) (path : Path)
    (pk : PublicKey) (disk : Disk) : EStateM.Result WriteError Disk Unit :=
  writeNewAtomic pid faults path pk.body disk

variable {spell : Str → Path} {disk after : Disk} {path : Str} {pid : Nat}
  {faults : Faults}

theorem files_eq_some {contents : Bytes}
    (stands : disk (spell path) = some (.file contents)) :
    files spell disk path = some contents := by
  rw [files, stands]

/-- Of two files that were written one after the other both stand. -/
theorem both_stand {first second : Path} {contents others : Str}
    {middle : Disk} {nextPid : Nat} {nextFaults : Faults}
    (written : writeNewAtomic pid faults first contents disk =
      .ok () middle)
    (writtenNext : writeNewAtomic nextPid nextFaults second others middle =
      .ok () after) :
    after first = some (.file (asBytes contents)) ∧
      after second = some (.file (asBytes others)) := by
  rcases eq_of_writeNewAtomic_ok written with ⟨-, rfl⟩
  rcases eq_of_writeNewAtomic_ok writtenNext with ⟨free, rfl⟩
  have apart : first ≠ second := by
    rintro rfl
    rw [Function.update_self] at free
    cases free
  constructor
  · rw [Function.update_of_ne apart, Function.update_self]
  · rw [Function.update_self]

theorem loadSecret_of_contents {files : FileSystem} {text : Str}
    {secret : SecretKey} (contents : files path = some (asBytes text))
    (loaded : SecretKey.loadText text = .ok secret) :
    SecretKey.load files path = .ok secret := by
  rw [SecretKey.load, FileSystem.readToString_eq_some contents]
  exact loaded

/-- Writing a secret key and loading it gives the key back. -/
def SecretReturns (spell : Str → Path) (secret : SecretKey) : Prop :=
  SecretKey.loadText secret.body = .ok secret ∧
    ∀ pid faults path disk after,
      saveSecret pid faults (spell path) secret disk = .ok () after →
        SecretKey.load (files spell after) path = .ok secret

/-- Writing a public key and loading it gives the key back. -/
def PublicReturns (spell : Str → Path) (pk : PublicKey) : Prop :=
  PublicKey.loadText pk.body = .ok pk ∧
    ∀ pid faults path disk after,
      savePublic pid faults (spell path) pk disk = .ok () after →
        PublicKey.load (files spell after) path = .ok pk

theorem secretReturns_of_read {secret : SecretKey}
    (read : SecretKey.loadText secret.body = .ok secret) :
    SecretReturns spell secret := by
  refine ⟨read, fun pid faults path disk after saved => ?_⟩
  rcases eq_of_writeNewAtomic_ok saved with ⟨-, rfl⟩
  exact loadSecret_of_contents
    (files_eq_some (Function.update_self _ _ _)) read

theorem publicReturns_of_read {pk : PublicKey}
    (read : PublicKey.loadText pk.body = .ok pk) :
    PublicReturns spell pk := by
  refine ⟨read, fun pid faults path disk after saved => ?_⟩
  rcases eq_of_writeNewAtomic_ok saved with ⟨-, rfl⟩
  exact load_of_contents (files_eq_some (Function.update_self _ _ _)) read

/-! ## Pairs -/

variable {Rand : Type} (primitives : Primitives Rand)

/--
After a secret key and its public half have been saved, both files load, and
the public half of the secret that was loaded is the public key that was.
-/
def PairAgrees (spell : Str → Path) (secret : SecretKey) : Prop :=
  ∀ pid pubPid faults pubFaults path pubPath disk middle after,
    saveSecret pid faults (spell path) secret disk = .ok () middle →
      savePublic pubPid pubFaults (spell pubPath)
          (secret.publicKey primitives) middle = .ok () after →
        ∃ loaded pk, SecretKey.load (files spell after) path = .ok loaded ∧
          PublicKey.load (files spell after) pubPath = .ok pk ∧
            loaded = secret ∧ loaded.publicKey primitives = pk

/-- A pair of files loads as a key and its public half. -/
theorem load_pair {secret : SecretKey} {pubPath : Str}
    (valid : validateKeyName secret.name = .ok ())
    (stands : disk (spell path) = secretFile secret)
    (pubStands : disk (spell pubPath) = pubFile primitives secret) :
    SecretKey.load (files spell disk) path = .ok secret ∧
      PublicKey.load (files spell disk) pubPath =
        .ok (secret.publicKey primitives) := by
  constructor
  · exact loadSecret_of_contents (files_eq_some stands)
      (loadText_secretBody valid)
  · exact load_of_contents (files_eq_some pubStands)
      (loadText_publicKey_body primitives valid)

/-- The files that a `keygen` has written load as its key pair. -/
theorem load_of_cmdKeygen {outDir : Path} {name pathText pubText : Str}
    {keygenFaults : KeygenFaults} {signer : HybridSigner}
    (spelled : spell pathText = secretPath outDir name)
    (pubSpelled : spell pubText = pubPath outDir name)
    (ran : (cmdKeygen primitives pid keygenFaults name signer outDir).run
      disk = .ok () after) :
    SecretKey.load (files spell after) pathText = .ok ⟨name, signer⟩ ∧
      PublicKey.load (files spell after) pubText =
        .ok (SecretKey.publicKey primitives ⟨name, signer⟩) := by
  have effect := @cmdKeygen_effect outDir _ primitives pid keygenFaults name
    signer disk
  rw [ran] at effect
  cases effect with
  | both valid free pubFree same =>
      apply load_pair primitives valid
      · rw [spelled, same _ isKeyFile_secretPath,
          Function.update_of_ne secretPath_ne_pubPath, Function.update_self]
      · rw [pubSpelled, same _ isKeyFile_pubPath, Function.update_self]

theorem pairAgrees {secret : SecretKey}
    (valid : validateKeyName secret.name = .ok ()) :
    PairAgrees primitives spell secret := by
  intro pid pubPid faults pubFaults path pubPath disk middle after saved
    pubSaved
  rw [saveSecret] at saved
  rw [savePublic] at pubSaved
  rcases both_stand saved pubSaved with ⟨stands, pubStands⟩
  rcases load_pair primitives valid stands pubStands with ⟨read, pubRead⟩
  exact ⟨secret, secret.publicKey primitives, read, pubRead, rfl, rfl⟩

/--
Every signer and its public keys come back from their files under every
validated name, and whatever is loaded had been held by the file and comes back
from a file of its own.
-/
theorem key_files_round_trip (spell : Str → Path) :
    (∀ secret : SecretKey, validateKeyName secret.name = .ok () →
      SecretReturns spell secret ∧
        PublicReturns spell (secret.publicKey primitives) ∧
          PairAgrees primitives spell secret) ∧
      (∀ text secret, SecretKey.loadText text = .ok secret →
        HoldsSecret text secret ∧ SecretReturns spell secret) ∧
      ∀ text pk, PublicKey.loadText text = .ok pk →
        HoldsPublic text pk ∧ PublicReturns spell pk := by
  constructor
  · intro secret valid
    exact ⟨secretReturns_of_read (loadText_secretBody valid),
      publicReturns_of_read (loadText_publicKey_body primitives valid),
      pairAgrees primitives valid⟩
  constructor
  · intro text secret loaded
    exact ⟨loadSecretText_iff_holds.mp loaded,
      secretReturns_of_read (secretKeyFormat.read_print_of_read loaded)⟩
  · intro text pk loaded
    exact ⟨loadText_iff_holds.mp loaded,
      publicReturns_of_read (publicKeyFormat.read_print_of_read loaded)⟩

/-- A name in the current directory. -/
def spellHere (text : Str) : Path :=
  Path.currentDir.join (asBytes text)

/-- A key of the transparent scheme. -/
def smallSecret : SecretKey where
  name := "k".toList
  signer := ⟨fit ed25519SecretKeyLen [1], fit mlDsa65SecretSeedLen [2]⟩

/-- A pair is saved in an empty directory and loaded. -/
theorem key_files_round_trip_sample :
    (∃ middle after loaded pk,
      saveSecret 7 {} (spellHere "k.secret".toList) smallSecret
          emptyDirectory = .ok () middle ∧
        savePublic 7 {} (spellHere "k.pub".toList)
          (smallSecret.publicKey Primitives.transparent) middle =
            .ok () after ∧
        SecretKey.load (files spellHere after) "k.secret".toList =
          .ok loaded ∧
        PublicKey.load (files spellHere after) "k.pub".toList = .ok pk ∧
        loaded = smallSecret ∧
        loaded.publicKey Primitives.transparent = pk) ∧
      HoldsSecret smallSecret.body smallSecret ∧
      HoldsPublic (smallSecret.publicKey Primitives.transparent).body
        (smallSecret.publicKey Primitives.transparent) := by
  have valid : validateKeyName smallSecret.name = .ok () := rfl
  rcases key_files_round_trip Primitives.transparent spellHere with
    ⟨saved, secretLoaded, pubLoaded⟩
  rcases saved smallSecret valid with ⟨secretReturns, pubReturns, agrees⟩
  refine ⟨?_, (secretLoaded _ _ secretReturns.1).1,
    (pubLoaded _ _ pubReturns.1).1⟩
  have written : ∃ middle,
      saveSecret 7 {} (spellHere "k.secret".toList) smallSecret
          emptyDirectory = .ok () middle ∧
        ∃ after, savePublic 7 {} (spellHere "k.pub".toList)
          (smallSecret.publicKey Primitives.transparent) middle =
            .ok () after :=
    ⟨_, rfl, _, rfl⟩
  rcases written with ⟨middle, secretSaved, after, pubSaved⟩
  rcases agrees _ _ _ _ _ _ _ _ _ secretSaved pubSaved with
    ⟨loaded, pk, secretRead, pubRead, same, agree⟩
  exact ⟨middle, after, loaded, pk, secretSaved, pubSaved, secretRead,
    pubRead, same, agree⟩

end NixPqcCache.KeyFileRoundTrip
