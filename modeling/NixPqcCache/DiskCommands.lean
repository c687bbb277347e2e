import NixPqcCache.Commands
import NixPqcCache.Writes

/-!
# Commands that write

`keygen` and `sign` as computations on a disk.  A command that fails keeps
what it had written by then, and every call of the operating system can be
made to fail.  What the commands print is not part of the model.
-/

namespace NixPqcCache.DiskCommands

open NixPqcCache.Commands
open NixPqcCache.Data
open NixPqcCache.Hybrid
open NixPqcCache.Keys
open NixPqcCache.Narinfo
open NixPqcCache.Paths
open NixPqcCache.Writes

/-! ## Errors -/

/-- What stops a command. -/
inductive CommandError where
  | crate (cause : Error)
  | write (cause : WriteError)
  | creatingDirectory (path : Path)
  | readingSecretKey (path : Path)
  | readingCacheDir (cacheDir : Path)
  | readingEntry
  | readingFile (path : Path)
  | parsing (path : Path) (cause : Error)
  deriving DecidableEq

/-- The message, with `debug` and `debugPath` for `{:?}`. -/
def CommandError.message (debug : Str → Str) (debugPath : Path → Str) :
    CommandError → Str
  | crate cause => cause.message debug
  | write cause => cause.message debugPath
  | readingSecretKey path => "reading secret key ".toList ++ debugPath path
  | readingCacheDir cacheDir =>
      "reading cache dir ".toList ++ debugPath cacheDir
  | parsing path cause =>
      "parsing ".toList ++ debugPath path ++ ": ".toList ++
        cause.message debug
  -- errors of the operating system without a context
  | creatingDirectory _ => []
  | readingEntry => []
  | readingFile _ => []

/-- A computation on a disk. -/
abbrev Command (α : Type) := EStateM CommandError Disk α

/-- The `?` of a result that does not touch the disk. -/
def check {α : Type} (context : Error → CommandError) (result : Result α) :
    Command α := fun disk =>
  match result with
  | .ok value => .ok value disk
  | .error cause => .error (context cause) disk

@[simp]
theorem run_check_ok {α : Type} (context : Error → CommandError) (value : α)
    (disk : Disk) : (check context (.ok value)).run disk = .ok value disk :=
  rfl

@[simp]
theorem run_check_error {α : Type} (context : Error → CommandError)
    (cause : Error) (disk : Disk) :
    (check context (.error cause : Result α)).run disk =
      .error (context cause) disk :=
  rfl

/-- The `?` of a write. -/
def save (write : Disk → EStateM.Result WriteError Disk Unit) :
    Command Unit := fun disk =>
  match write disk with
  | .ok value disk => .ok value disk
  | .error cause disk => .error (.write cause) disk

theorem eq_of_save_ok {pid : Nat} {faults : Faults} {path : Path}
    {contents : Str} {disk after : Disk}
    (ran : (save (writeAtomicOverwrite pid faults path contents)).run disk =
      .ok () after) :
    after = Function.update disk path (some (.file (asBytes contents))) := by
  simp only [save, EStateM.run, writeAtomicOverwrite] at ran
  split at ran
  next value stored written =>
    cases ran
    exact eq_of_writeViaTempRename_ok written
  next => cases ran

theorem eq_of_save_error {pid : Nat} {faults : Faults} {path : Path}
    {contents : Str} {disk after : Disk} {cause : CommandError}
    (failed : (save (writeAtomicOverwrite pid faults path contents)).run
      disk = .error cause after) {other : Path}
    (elsewhere : other ≠ tmpPath path pid) : after other = disk other := by
  simp only [save, EStateM.run, writeAtomicOverwrite] at failed
  split at failed
  next => cases failed
  next reason left written =>
    cases failed
    exact (writeViaTempRename_error written).1 other elsewhere

/-- `fs::read_to_string`, which may be made to fail. -/
def readFile (context : CommandError) (fails : Bool) (path : Path) :
    Command Str := fun disk =>
  match if fails then none else disk.readToString path with
  | some text => .ok text disk
  | none => .error context disk

/-- A file is read, or the computation stops; the disk stays. -/
theorem run_readFile_cases (context : CommandError) (fails : Bool)
    (path : Path) (disk : Disk) :
    (readFile context fails path).run disk = .error context disk ∨
      ∃ text, disk.readToString path = some text ∧
        (readFile context fails path).run disk = .ok text disk := by
  simp only [readFile, EStateM.run]
  cases fails with
  | true => exact Or.inl rfl
  | false =>
      cases read : disk.readToString path with
      | none => exact Or.inl rfl
      | some text => exact Or.inr ⟨text, rfl, rfl⟩

/-- A file whose text is known holds that text. -/
theorem eq_file_of_readToString {disk : Disk} {path : Path} {text : Str}
    (read : disk.readToString path = some text) :
    disk path = some (.file (asBytes text)) := by
  rw [Disk.readToString] at read
  split at read
  next contents found => rw [found, asBytes_of_fromUtf8 read]
  next => cases read

theorem readToString_file {disk : Disk} {path : Path} {text : Str}
    (contents : disk path = some (.file (asBytes text))) :
    disk.readToString path = some text := by
  rw [Disk.readToString, contents]
  exact fromUtf8_asBytes text

/-! ## `keygen` -/

/-- The missing directories on the way to a path, down to some depth. -/
def createDirs (disk : Disk) (path : Path) (depth : Nat) : Disk :=
  fun other =>
    if other.absolute = path.absolute ∧ other.names <+: path.names ∧
        other.names.length ≤ depth ∧ disk other = none then
      some .directory
    else
      disk other

/-- Some directory on the way to a path is a file. -/
def fileOnTheWay (disk : Disk) (path : Path) : Bool :=
  path.names.inits.any fun names =>
    match disk ⟨path.absolute, names⟩ with
    | some (.file _) => true
    | _ => false

/-- `fs::create_dir_all`, which may be made to stop at some depth. -/
def createDirAll (stops : Option Nat) (path : Path) : Command Unit :=
  fun disk =>
    match stops with
    | some depth =>
        .error (.creatingDirectory path) (createDirs disk path depth)
    | none =>
        if fileOnTheWay disk path then
          .error (.creatingDirectory path) disk
        else
          .ok () (createDirs disk path path.names.length)

/-- Which calls of a `keygen` fail. -/
structure KeygenFaults where
  directories : Option Nat := none
  secretFile : Faults := {}
  pubFile : Faults := {}

/-- `out_dir.join(format!("{name}.secret"))`. -/
def secretPath (outDir : Path) (name : Str) : Path :=
  outDir.join (asBytes (name ++ ".secret".toList))

/-- `out_dir.join(format!("{name}.pub"))`. -/
def pubPath (outDir : Path) (name : Str) : Path :=
  outDir.join (asBytes (name ++ ".pub".toList))

variable {Rand : Type} (primitives : Primitives Rand)

/-- `cmd_keygen`; `SecretKey::generate` draws the signer. -/
def cmdKeygen (pid : Nat) (faults : KeygenFaults) (name : Str)
    (signer : HybridSigner) (outDir : Path) : Command Unit := do
  check .crate (validateKeyName name)
  createDirAll faults.directories outDir
  let secret : SecretKey := ⟨name, signer⟩
  save (writeNewAtomic pid faults.secretFile (secretPath outDir name)
    secret.body)
  save (writeNewAtomic pid faults.pubFile (pubPath outDir name)
    (secret.publicKey primitives).body)

/-! ## `sign` -/

/-- What the iterator over a directory yields, and what fails there. -/
structure DirEntry where
  /-- The name of the entry, or an error of the iterator. -/
  name : Option OsStr
  read : Bool := false
  write : Faults := {}

/-- `path.extension().and_then(|e| e.to_str()) == Some("narinfo")`. -/
def isNarinfo (path : Path) : Bool :=
  path.extension.bind fromUtf8 == some "narinfo".toList

/-- The name of a directory entry. -/
def entryName (entry : DirEntry) : Command OsStr := fun disk =>
  match entry.name with
  | some name => .ok name disk
  | none => .error .readingEntry disk

/-- The body of the loop of `cmd_sign`. -/
def signEntry (pid : Nat) (secret : SecretKey) (rand : Rand)
    (cacheDir : Path) (entry : DirEntry) : Command Unit := do
  let name ← entryName entry
  let path := cacheDir.join name
  if isNarinfo path then do
    let text ← readFile (.readingFile path) entry.read path
    let info ← check (.parsing path) (NarInfo.parse text)
    let fingerprint ← check .crate info.fingerprint
    save (writeAtomicOverwrite pid entry.write path
      (signInfo primitives secret rand info fingerprint).toText)
  else
    pure ()

/-- `SecretKey::load`. -/
def loadSecret (fails : Bool) (keyPath : Path) : Command SecretKey := do
  let text ← readFile (.readingSecretKey keyPath) fails keyPath
  check .crate (SecretKey.loadText text)

/-- `fs::read_dir`: the entries in the order they are met. -/
def readDir (cacheDir : Path) (entries : Option (List DirEntry)) :
    Command (List DirEntry) := fun disk =>
  match entries with
  | some entries => .ok entries disk
  | none => .error (.readingCacheDir cacheDir) disk

/-- `cmd_sign`. -/
def cmdSign (pid : Nat) (keyRead : Bool) (entries : Option (List DirEntry))
    (rand : Rand) (cacheDir keyPath : Path) : Command Unit := do
  let secret ← loadSecret keyRead keyPath
  let entries ← readDir cacheDir entries
  entries.forM (signEntry primitives pid secret rand cacheDir)

end NixPqcCache.DiskCommands
