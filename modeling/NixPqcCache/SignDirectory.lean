import NixPqcCache.DiskCommands
import NixPqcCache.SignAgain

/-!
# Signing a directory

`cmd_sign` rewrites the narinfo files of a directory while it iterates over
it.  It may meet a file again that it has already written, and it may stop at
any file.  A narinfo file is then either as it was or signed, because a signed
text is its own signed text and because a temporary file is never taken for a
narinfo; nothing else that was there has changed.
-/

namespace NixPqcCache.SignDirectory

open NixPqcCache.Commands
open NixPqcCache.Data
open NixPqcCache.DiskCommands
open NixPqcCache.Foundation
open NixPqcCache.Hybrid
open NixPqcCache.HybridCandidates
open NixPqcCache.KeyFiles
open NixPqcCache.Keys
open NixPqcCache.Narinfo
open NixPqcCache.NarinfoRoundTrip
open NixPqcCache.Paths
open NixPqcCache.SignAgain
open NixPqcCache.SignRuns
open NixPqcCache.VerifyPolicy
open NixPqcCache.Writes

/-! ## Narinfo files -/

/-- A path of the directory that `cmd_sign` rewrites. -/
def IsTarget (cacheDir path : Path) : Prop :=
  isNarinfo path = true ∧ ∃ name, path = cacheDir.join name

/-- A temporary file is not taken for a narinfo. -/
theorem isNarinfo_tmpPath (path : Path) (pid : Nat) :
    isNarinfo (tmpPath path pid) = false := by
  rw [Bool.eq_false_iff]
  intro narinfo
  have extension : (tmpPath path pid).extension.bind fromUtf8 =
      some "narinfo".toList := by
    simpa [isNarinfo] using narinfo
  rcases Option.bind_eq_some_iff.mp extension with ⟨suffix, found, decoded⟩
  rw [Path.extension, tmpPath,
    Path.fileName_join (tmpName_ne_parentDir path pid), Option.bind_some]
    at found
  rcases Path.eq_append_of_extensionOf found with ⟨before, split⟩
  rw [← asBytes_of_fromUtf8 decoded, List.append_cons] at split
  exact @tmpName_ne_append path pid (before ++ [dot]) "narinfo".toList 111
    (by decide) (by decide) split

theorem tmpPath_ne_of_isNarinfo {path other : Path} {pid : Nat}
    (narinfo : isNarinfo other = true) : tmpPath path pid ≠ other := by
  rintro rfl
  rw [isNarinfo_tmpPath] at narinfo
  cases narinfo

theorem fileName_ne_none_of_isNarinfo {path : Path}
    (narinfo : isNarinfo path = true) : path.fileName ≠ none := by
  intro nameless
  rw [isNarinfo, Path.extension, nameless] at narinfo
  cases narinfo

variable {Rand : Type} (primitives : Primitives Rand)

/-- A path holds the signed text of what it held at the start. -/
def SignedFrom (signing : Signing Rand) (start disk : Disk) (path : Path) :
    Prop :=
  ∃ text signed, start path = some (.file (asBytes text)) ∧
    Signing.rewrite primitives text signing = .ok signed ∧
      disk path = some (.file (asBytes signed))

/-- What each path holds while a run goes on. -/
def Progress (signing : Signing Rand) (cacheDir : Path)
    (start disk : Disk) : Prop :=
  ∀ path, disk path = start path ∨
    IsTarget cacheDir path ∧ SignedFrom primitives signing start disk path

variable {signing : Signing Rand} {cacheDir path : Path}
  {start disk : Disk} {pid : Nat}

theorem SignedFrom.of_eq {after : Disk}
    (signed : SignedFrom primitives signing start disk path)
    (kept : after path = disk path) :
    SignedFrom primitives signing start after path := by
  rcases signed with ⟨text, written, original, rewritten, holds⟩
  exact ⟨text, written, original, rewritten, kept.trans holds⟩

theorem SignedFrom.update {other : Path} {node : Option Node}
    (signed : SignedFrom primitives signing start disk other)
    (now : SignedFrom primitives signing start
      (Function.update disk path node) path) :
    SignedFrom primitives signing start
      (Function.update disk path node) other := by
  by_cases same : other = path
  · rw [same]
    exact now
  · exact signed.of_eq primitives (Function.update_of_ne same _ _)

/-! ## Writing one signed text -/

/-- Signing what a path holds by now signs what it held at the start. -/
theorem Progress.signedFrom_update
    (progress : Progress primitives signing cacheDir start disk)
    {text signed : Str} (read : disk.readToString path = some text)
    (written : Signing.rewrite primitives text signing = .ok signed) :
    SignedFrom primitives signing start
      (Function.update disk path (some (.file (asBytes signed)))) path := by
  have holds := eq_file_of_readToString read
  rcases progress path with same | ⟨-, original, earlier, found, rewritten,
    now⟩
  · exact ⟨text, signed, same.symm.trans holds, written,
      Function.update_self _ _ _⟩
  · -- the file is met again: its text is signed already
    rw [holds, Option.some.injEq, Node.file.injEq] at now
    rcases asBytes_injective now with rfl
    rw [Signing.rewrite_signed primitives rewritten, Except.ok.injEq]
      at written
    rcases written with rfl
    exact ⟨original, text, found, rewritten, Function.update_self _ _ _⟩

theorem Progress.update {node : Option Node}
    (progress : Progress primitives signing cacheDir start disk)
    (target : IsTarget cacheDir path)
    (now : SignedFrom primitives signing start
      (Function.update disk path node) path) :
    Progress primitives signing cacheDir start
      (Function.update disk path node) := by
  intro other
  by_cases same : other = path
  · rw [same]
    exact Or.inr ⟨target, now⟩
  · rcases progress other with old | ⟨otherTarget, old⟩
    · exact Or.inl ((Function.update_of_ne same _ _).trans old)
    · exact Or.inr ⟨otherTarget, old.update primitives now⟩

/-! ## One entry -/

/-- An entry stops the run, is passed over, or is signed. -/
theorem signEntry_cases (pid : Nat) (signing : Signing Rand)
    (cacheDir : Path) (entry : DirEntry) (disk : Disk) :
    (∃ cause, (signEntry primitives pid signing.secret signing.rand cacheDir
      entry).run disk = .error cause disk) ∨
      (∃ name, entry.name = some name ∧
        isNarinfo (cacheDir.join name) = false ∧
          (signEntry primitives pid signing.secret signing.rand cacheDir
            entry).run disk = .ok () disk) ∨
      ∃ name text signed, entry.name = some name ∧
        isNarinfo (cacheDir.join name) = true ∧
          disk.readToString (cacheDir.join name) = some text ∧
            Signing.rewrite primitives text signing = .ok signed ∧
              (signEntry primitives pid signing.secret signing.rand cacheDir
                entry).run disk =
                (save (writeAtomicOverwrite pid entry.write
                  (cacheDir.join name) signed)).run disk := by
  rw [signEntry]
  cases named : entry.name with
  | none =>
      have stops : (entryName entry).run disk = .error .readingEntry disk := by
        simp only [entryName, EStateM.run, named]
      exact Or.inl ⟨_, Stateful.run_bind_of_error stops⟩
  | some name =>
      have found : (entryName entry).run disk = .ok name disk := by
        simp only [entryName, EStateM.run, named]
      rw [Stateful.run_bind_of_ok found]
      cases narinfo : isNarinfo (cacheDir.join name) with
      | false =>
          right
          left
          refine ⟨name, rfl, narinfo, ?_⟩
          simp [narinfo]
      | true =>
          simp only [narinfo, if_true]
          rcases run_readFile_cases (.readingFile (cacheDir.join name))
            entry.read (cacheDir.join name) disk with
            stops | ⟨text, read, ran⟩
          · exact Or.inl ⟨_, Stateful.run_bind_of_error stops⟩
          · rw [Stateful.run_bind_of_ok ran]
            cases parsed : NarInfo.parse text with
            | error cause =>
                exact Or.inl ⟨_, Stateful.run_bind_of_error
                  (run_check_error _ _ _)⟩
            | ok info =>
                rw [Stateful.run_bind_of_ok (run_check_ok _ _ _)]
                cases computed : info.fingerprint with
                | error cause =>
                    exact Or.inl ⟨_, Stateful.run_bind_of_error
                      (run_check_error _ _ _)⟩
                | ok fingerprint =>
                    rw [Stateful.run_bind_of_ok (run_check_ok _ _ _)]
                    right
                    right
                    exact ⟨name, text, _, rfl, narinfo, read,
                      signing.rewrite_eq primitives ⟨parsed, computed⟩, rfl⟩

/-- A narinfo that can be signed comes down to the write of its text. -/
theorem run_signEntry_eq_save {entry : DirEntry} {name : OsStr}
    {text signed : Str} (named : entry.name = some name)
    (narinfo : isNarinfo (cacheDir.join name) = true)
    (reads : entry.read = false)
    (read : disk.readToString (cacheDir.join name) = some text)
    (written : Signing.rewrite primitives text signing = .ok signed) :
    (signEntry primitives pid signing.secret signing.rand cacheDir
      entry).run disk =
      (save (writeAtomicOverwrite pid entry.write (cacheDir.join name)
        signed)).run disk := by
  rcases Signing.holds_of_rewrite primitives written with
    ⟨info, fingerprint, ⟨parsed, computed⟩, rfl, -⟩
  have found : (entryName entry).run disk = .ok name disk := by
    simp only [entryName, EStateM.run, named]
  have ran : (readFile (.readingFile (cacheDir.join name)) entry.read
      (cacheDir.join name)).run disk = .ok text disk := by
    simp only [readFile, EStateM.run, reads, read, Bool.false_eq_true,
      if_false]
  rw [signEntry, Stateful.run_bind_of_ok found]
  simp only [narinfo, if_true]
  rw [Stateful.run_bind_of_ok ran, parsed,
    Stateful.run_bind_of_ok (run_check_ok _ _ _), computed,
    Stateful.run_bind_of_ok (run_check_ok _ _ _)]
  rfl

/-- A narinfo whose calls all work is signed. -/
theorem run_signEntry {entry : DirEntry} {name : OsStr} {text signed : Str}
    (named : entry.name = some name)
    (narinfo : isNarinfo (cacheDir.join name) = true)
    (reads : entry.read = false)
    (read : disk.readToString (cacheDir.join name) = some text)
    (written : Signing.rewrite primitives text signing = .ok signed)
    (creates : CanCreate pid entry.write (cacheDir.join name) disk)
    (whole : entry.write.write = none)
    (renames : CanRename entry.write (cacheDir.join name) disk) :
    (signEntry primitives pid signing.secret signing.rand cacheDir
      entry).run disk =
      .ok () (Function.update disk (cacheDir.join name)
        (some (.file (asBytes signed)))) := by
  rw [run_signEntry_eq_save primitives named narinfo reads read written]
  simp only [save, EStateM.run, writeAtomicOverwrite]
  rw [writeViaTempRename_of_canRename creates whole renames]

/-- An entry that is no narinfo is passed over. -/
theorem run_signEntry_of_other {name : OsStr}
    (other : isNarinfo (cacheDir.join name) = false) :
    (signEntry primitives pid signing.secret signing.rand cacheDir
      { name := some name }).run disk = .ok () disk := by
  have found : (entryName { name := some name }).run disk =
    .ok name disk := rfl
  rw [signEntry, Stateful.run_bind_of_ok found]
  simp [other]

/-- A narinfo is signed if nothing fails and the temporary name is free. -/
theorem run_signEntry_of_free {name : OsStr} {text signed : Str}
    (narinfo : isNarinfo (cacheDir.join name) = true)
    (directory : disk cacheDir = some .directory)
    (free : disk (tmpPath (cacheDir.join name) pid) = none)
    (holds : disk (cacheDir.join name) = some (.file (asBytes text)))
    (written : Signing.rewrite primitives text signing = .ok signed) :
    (signEntry primitives pid signing.secret signing.rand cacheDir
      { name := some name }).run disk =
      .ok () (Function.update disk (cacheDir.join name)
        (some (.file (asBytes signed)))) := by
  have creates : CanCreate pid {} (cacheDir.join name) disk := by
    refine ⟨rfl, free, ?_⟩
    rw [Path.parent_join, Option.getD_some]
    exact directory
  have replaceable : disk.Replaceable (cacheDir.join name) :=
    ⟨fileName_ne_none_of_isNarinfo narinfo, by rw [holds]; simp⟩
  exact run_signEntry primitives rfl narinfo rfl (readToString_file holds)
    written creates rfl ⟨rfl, replaceable⟩

/-- The state of a run after some entries. -/
structure SignedSoFar (signing : Signing Rand) (cacheDir : Path)
    (start : Disk) (done : List DirEntry) (disk : Disk) : Prop where
  progress : Progress primitives signing cacheDir start disk
  signed : ∀ entry ∈ done, ∀ name, entry.name = some name →
    isNarinfo (cacheDir.join name) = true →
      SignedFrom primitives signing start disk (cacheDir.join name)

/-- No file bears the temporary name of a narinfo file of the directory. -/
def TmpNamesFree (pid : Nat) (cacheDir : Path) (start : Disk) : Prop :=
  ∀ path, IsTarget cacheDir path → start path ≠ none →
    start (tmpPath path pid) = none

/-- What was there at the start is as it was, or signed. -/
def AllOrNothing (signing : Signing Rand) (cacheDir : Path)
    (start disk : Disk) : Prop :=
  ∀ path, start path ≠ none → disk path = start path ∨
    IsTarget cacheDir path ∧ SignedFrom primitives signing start disk path

theorem SignedSoFar.completed {done : List DirEntry} {entry : DirEntry}
    {after : Disk}
    (soFar : SignedSoFar primitives signing cacheDir start done disk)
    (ran : (signEntry primitives pid signing.secret signing.rand cacheDir
      entry).run disk = .ok () after) :
    SignedSoFar primitives signing cacheDir start (done ++ [entry]) after := by
  rcases signEntry_cases primitives pid signing cacheDir entry disk with
    ⟨cause, stopped⟩ | ⟨name, named, other, passed⟩ |
      ⟨name, text, signed, named, narinfo, read, rewritten, written⟩
  · rw [stopped] at ran
    cases ran
  · rw [passed] at ran
    cases ran
    refine ⟨soFar.progress, ?_⟩
    intro met member metName metNamed metNarinfo
    rcases List.mem_append.mp member with old | new
    · exact soFar.signed met old metName metNamed metNarinfo
    · rw [List.mem_singleton.mp new, named, Option.some.injEq] at metNamed
      rw [← metNamed, other] at metNarinfo
      cases metNarinfo
  · have target : IsTarget cacheDir (cacheDir.join name) :=
      ⟨narinfo, name, rfl⟩
    have now := soFar.progress.signedFrom_update primitives read rewritten
    have stored : after = Function.update disk (cacheDir.join name)
        (some (.file (asBytes signed))) := by
      rw [written] at ran
      exact eq_of_save_ok ran
    rw [stored]
    refine ⟨soFar.progress.update primitives target now, ?_⟩
    intro met member metName metNamed metNarinfo
    rcases List.mem_append.mp member with old | new
    · exact (soFar.signed met old metName metNamed metNarinfo).update
        primitives now
    · rw [List.mem_singleton.mp new, named, Option.some.injEq] at metNamed
      rw [← metNamed]
      exact now

theorem SignedSoFar.stopped {done : List DirEntry} {entry : DirEntry}
    {cause : CommandError} {after : Disk}
    (tmpNames : TmpNamesFree pid cacheDir start)
    (soFar : SignedSoFar primitives signing cacheDir start done disk)
    (ran : (signEntry primitives pid signing.secret signing.rand cacheDir
      entry).run disk = .error cause after) :
    AllOrNothing primitives signing cacheDir start after := by
  rcases signEntry_cases primitives pid signing cacheDir entry disk with
    ⟨reason, stopped⟩ | ⟨name, named, other, passed⟩ |
      ⟨name, text, signed, named, narinfo, read, rewritten, written⟩
  · rw [stopped] at ran
    cases ran
    exact fun path _ => soFar.progress path
  · rw [passed] at ran
    cases ran
  · have target : IsTarget cacheDir (cacheDir.join name) :=
      ⟨narinfo, name, rfl⟩
    have present : start (cacheDir.join name) ≠ none := by
      rcases soFar.progress.signedFrom_update primitives read rewritten with
        ⟨original, -, found, -⟩
      simp [found]
    rw [written] at ran
    intro path exists_
    have elsewhere : path ≠ tmpPath (cacheDir.join name) pid := by
      rintro rfl
      exact exists_ (tmpNames _ target present)
    have kept := eq_of_save_error ran elsewhere
    rcases soFar.progress path with old | ⟨pathTarget, old⟩
    · exact Or.inl (kept.trans old)
    · exact Or.inr ⟨pathTarget, old.of_eq primitives kept⟩

/-! ## Runs in which nothing fails -/

/-- An entry whose calls work: a narinfo file is there, and can be signed. -/
def Signable (signing : Signing Rand) (pid : Nat) (cacheDir : Path)
    (disk : Disk) (entry : DirEntry) : Prop :=
  ∃ name, entry = { name := some name } ∧
    (isNarinfo (cacheDir.join name) = true →
      disk cacheDir = some .directory ∧
        disk (tmpPath (cacheDir.join name) pid) = none ∧
          ∃ text signed,
            disk (cacheDir.join name) = some (.file (asBytes text)) ∧
              Signing.rewrite primitives text signing = .ok signed)

/-- A file that has been signed can be signed again. -/
theorem Signable.update {entry : DirEntry} {signed : Str}
    (signable : Signable primitives signing pid cacheDir disk entry)
    (narinfo : isNarinfo path = true) (apart : cacheDir ≠ path)
    (again : Signing.rewrite primitives signed signing = .ok signed) :
    Signable primitives signing pid cacheDir
      (Function.update disk path (some (.file (asBytes signed)))) entry := by
  rcases signable with ⟨name, rfl, works⟩
  refine ⟨name, rfl, fun target => ?_⟩
  rcases works target with ⟨directory, free, text, other, holds, written⟩
  refine ⟨by rw [Function.update_of_ne apart, directory], ?_, ?_⟩
  · rw [Function.update_of_ne (tmpPath_ne_of_isNarinfo narinfo)]
    exact free
  · by_cases same : cacheDir.join name = path
    · exact ⟨signed, signed, by rw [same, Function.update_self], again⟩
    · exact ⟨text, other, by rw [Function.update_of_ne same, holds], written⟩

/-- Such an entry is dealt with, and the others stay such. -/
theorem Signable.run {entry : DirEntry}
    (signable : Signable primitives signing pid cacheDir disk entry) :
    ∃ after, (signEntry primitives pid signing.secret signing.rand cacheDir
        entry).run disk = .ok () after ∧
      ∀ other, Signable primitives signing pid cacheDir disk other →
        Signable primitives signing pid cacheDir after other := by
  rcases signable with ⟨name, rfl, works⟩
  cases narinfo : isNarinfo (cacheDir.join name) with
  | false =>
      exact ⟨disk, run_signEntry_of_other primitives narinfo,
        fun _ signable => signable⟩
  | true =>
      rcases works narinfo with
        ⟨directory, free, text, signed, holds, written⟩
      refine ⟨_, run_signEntry_of_free primitives narinfo directory free holds
        written, ?_⟩
      have apart : cacheDir ≠ cacheDir.join name := by
        intro equal
        rw [← equal, directory] at holds
        cases holds
      exact fun other signable => signable.update primitives narinfo apart
        (Signing.rewrite_signed primitives written)

/-- A listing of such entries is signed to its end. -/
theorem forM_signable {listed : List DirEntry}
    (signable : ∀ entry ∈ listed,
      Signable primitives signing pid cacheDir disk entry) :
    ∃ final, (listed.forM (signEntry primitives pid signing.secret
      signing.rand cacheDir)).run disk = .ok () final := by
  induction listed generalizing disk with
  | nil => exact ⟨disk, rfl⟩
  | cons entry listed induction =>
      rw [List.forall_mem_cons] at signable
      rcases signable.1.run primitives with ⟨middle, ran, kept⟩
      rcases induction (fun other member =>
        kept other (signable.2 other member)) with ⟨final, rest⟩
      refine ⟨final, ?_⟩
      rw [List.forM_eq_forM, List.forM_cons, Stateful.run_bind_of_ok ran]
      exact rest

/-! ## A whole run -/

/-- The loop ends with every entry signed, or between two entries. -/
theorem forM_signEntry_endsIn (tmpNames : TmpNamesFree pid cacheDir start)
    (entries : List DirEntry) :
    Stateful.EndsIn
      (SignedSoFar primitives signing cacheDir start entries)
      (AllOrNothing primitives signing cacheDir start)
      ((entries.forM (signEntry primitives pid signing.secret signing.rand
        cacheDir)).run start) := by
  have holds : SignedSoFar primitives signing cacheDir start [] start :=
    ⟨fun _ => Or.inl rfl, by simp⟩
  have ended := @Stateful.forM_endsIn _ _ _
    (signEntry primitives pid signing.secret signing.rand cacheDir)
    (SignedSoFar primitives signing cacheDir start)
    (AllOrNothing primitives signing cacheDir start)
    (fun _ _ _ _ soFar ran => soFar.completed primitives ran)
    (fun _ _ _ _ _ soFar ran => soFar.stopped primitives tmpNames ran)
    entries [] start holds
  rwa [List.nil_append] at ended

/-- The secret key that a key file holds. -/
def KeyAt (start : Disk) (keyPath : Path) (secret : SecretKey) : Prop :=
  ∃ keyText, start.readToString keyPath = some keyText ∧
    SecretKey.loadText keyText = .ok secret

theorem KeyAt.unique {keyPath : Path} {left right : SecretKey}
    (found : KeyAt start keyPath left) (other : KeyAt start keyPath right) :
    left = right := by
  rcases found with ⟨keyText, read, loaded⟩
  rcases other with ⟨otherText, otherRead, otherLoaded⟩
  rw [read, Option.some.injEq] at otherRead
  rw [← otherRead, loaded, Except.ok.injEq] at otherLoaded
  exact otherLoaded

/-- With a key and a listing a run is its loop. -/
theorem run_cmdSign {keyRead : Bool} {keyPath : Path} {keyText : Str}
    (ran : (readFile (.readingSecretKey keyPath) keyRead keyPath).run start =
      .ok keyText start)
    (loaded : SecretKey.loadText keyText = .ok signing.secret)
    (listed : List DirEntry) :
    (cmdSign primitives pid keyRead (some listed) signing.rand cacheDir
      keyPath).run start =
      (listed.forM (signEntry primitives pid signing.secret signing.rand
        cacheDir)).run start := by
  rw [cmdSign, loadSecret, bind_assoc, Stateful.run_bind_of_ok ran, loaded,
    Stateful.run_bind_of_ok (run_check_ok _ _ _)]
  exact Stateful.run_bind_of_ok rfl

/-- A run stops before its loop, or is its loop under a validated key. -/
theorem cmdSign_cases (pid : Nat) (keyRead : Bool)
    (entries : Option (List DirEntry)) (rand : Rand)
    (cacheDir keyPath : Path) (start : Disk) :
    (∃ cause, (cmdSign primitives pid keyRead entries rand cacheDir
      keyPath).run start = .error cause start) ∨
      ∃ signing : Signing Rand, ∃ listed, signing.rand = rand ∧
        KeyAt start keyPath signing.secret ∧ entries = some listed ∧
          (cmdSign primitives pid keyRead entries rand cacheDir
            keyPath).run start =
            (listed.forM (signEntry primitives pid signing.secret
              signing.rand cacheDir)).run start := by
  rcases run_readFile_cases (.readingSecretKey keyPath) keyRead keyPath
    start with stops | ⟨keyText, read, ran⟩
  · rw [cmdSign, loadSecret, bind_assoc]
    exact Or.inl ⟨_, Stateful.run_bind_of_error stops⟩
  · cases loaded : SecretKey.loadText keyText with
    | error cause =>
        rw [cmdSign, loadSecret, bind_assoc, Stateful.run_bind_of_ok ran,
          loaded]
        exact Or.inl ⟨_, Stateful.run_bind_of_error (run_check_error _ _ _)⟩
    | ok secret =>
        cases entries with
        | none =>
            rw [cmdSign, loadSecret, bind_assoc, Stateful.run_bind_of_ok ran,
              loaded, Stateful.run_bind_of_ok (run_check_ok _ _ _)]
            exact Or.inl ⟨_, Stateful.run_bind_of_error rfl⟩
        | some listed =>
            have valid := valid_of_loadSecretText loaded
            exact Or.inr ⟨⟨secret, rand, valid⟩, listed, rfl,
              ⟨keyText, read, loaded⟩, rfl,
              @run_cmdSign _ primitives ⟨secret, rand, valid⟩ cacheDir start
                pid _ _ _ ran loaded listed⟩

/-! ## Every order and every stop -/

/--
The signed text of a text: the record it holds, with the entries of the key
replaced by one pair and everything else in place.
-/
def SignedText (secret : SecretKey) (rand : Rand) (text signed : Str) :
    Prop :=
  ∃ info fingerprint, NarInfo.parse text = .ok info ∧
    info.fingerprint = .ok fingerprint ∧
      let sig := secret.signer.sign primitives rand (asBytes fingerprint)
      let result : NarInfo :=
        { info with
          sigs := dropOwn secret.name info.sigs ++ [sigEntry secret.name sig]
          sigPqc := dropOwn secret.name info.sigPqc ++
            [encodeSigPqc secret.name sig.mlDsa] }
      signed = result.toText ∧ NarInfo.parse signed = .ok result

/-- A path holds the signed text of what it held at the start. -/
def SignedBy (rand : Rand) (keyPath : Path) (start disk : Disk)
    (path : Path) : Prop :=
  ∃ secret text signed, KeyAt start keyPath secret ∧
    start path = some (.file (asBytes text)) ∧
      disk path = some (.file (asBytes signed)) ∧
        SignedText primitives secret rand text signed

/-- A listing names every narinfo file of the directory. -/
def Complete (cacheDir : Path) (start : Disk)
    (entries : Option (List DirEntry)) : Prop :=
  ∀ listed, entries = some listed → ∀ name,
    isNarinfo (cacheDir.join name) = true →
      start (cacheDir.join name) ≠ none →
        ∃ entry ∈ listed, entry.name = some name

theorem SignedFrom.signedBy {keyPath : Path}
    (found : KeyAt start keyPath signing.secret)
    (from_ : SignedFrom primitives signing start disk path) :
    SignedBy primitives signing.rand keyPath start disk path := by
  rcases from_ with ⟨text, signed, original, written, holds⟩
  rcases Signing.holds_of_rewrite primitives written with
    ⟨info, fingerprint, textHolds, equal, signedHolds⟩
  exact ⟨signing.secret, text, signed, found, original, holds, info,
    fingerprint, textHolds.1, textHolds.2, equal, signedHolds.1⟩

/-- A complete run determines what every path holds. -/
theorem SignedSoFar.unique {left right : List DirEntry}
    {leftDisk rightDisk : Disk}
    (leftDone : SignedSoFar primitives signing cacheDir start left leftDisk)
    (rightDone :
      SignedSoFar primitives signing cacheDir start right rightDisk)
    (leftComplete : Complete cacheDir start (some left))
    (rightComplete : Complete cacheDir start (some right)) :
    leftDisk = rightDisk := by
  funext path
  by_cases target : IsTarget cacheDir path ∧ start path ≠ none
  · rcases target with ⟨⟨narinfo, name, rfl⟩, present⟩
    rcases leftComplete left rfl name narinfo present with
      ⟨leftEntry, leftMember, leftNamed⟩
    rcases rightComplete right rfl name narinfo present with
      ⟨rightEntry, rightMember, rightNamed⟩
    rcases leftDone.signed leftEntry leftMember name leftNamed narinfo with
      ⟨text, signed, original, written, holds⟩
    rcases rightDone.signed rightEntry rightMember name rightNamed narinfo
      with ⟨otherText, otherSigned, otherOriginal, otherWritten, otherHolds⟩
    rw [original, Option.some.injEq, Node.file.injEq] at otherOriginal
    rw [← asBytes_injective otherOriginal, written, Except.ok.injEq]
      at otherWritten
    rw [holds, otherHolds, otherWritten]
  · have kept {entries : List DirEntry} {disk : Disk}
        (done : SignedSoFar primitives signing cacheDir start entries disk) :
        disk path = start path := by
      rcases done.progress path with same | ⟨isTarget, _, _, original, -⟩
      · exact same
      · exact (target ⟨isTarget, by simp [original]⟩).elim
    rw [kept leftDone, kept rightDone]

/-- A run that succeeds has signed every entry of its listing. -/
theorem signedSoFar_of_cmdSign {keyRead : Bool}
    {entries : Option (List DirEntry)} {rand : Rand} {keyPath : Path}
    {after : Disk} (tmpNames : TmpNamesFree pid cacheDir start)
    (ran : (cmdSign primitives pid keyRead entries rand cacheDir
      keyPath).run start = .ok () after) :
    ∃ signing : Signing Rand, ∃ listed, signing.rand = rand ∧
      KeyAt start keyPath signing.secret ∧ entries = some listed ∧
        SignedSoFar primitives signing cacheDir start listed after := by
  rcases cmdSign_cases primitives pid keyRead entries rand cacheDir keyPath
    start with ⟨cause, stopped⟩ | ⟨signing, listed, sameRand, found, given,
      loop⟩
  · rw [stopped] at ran
    cases ran
  · have ended := @forM_signEntry_endsIn _ primitives signing cacheDir start
      pid tmpNames listed
    rw [← loop, ran] at ended
    exact ⟨signing, listed, sameRand, found, given, ended⟩

/-- However a run ends, what was there is as it was or signed. -/
theorem allOrNothing_of_cmdSign {keyRead : Bool}
    {entries : Option (List DirEntry)} {rand : Rand} {keyPath : Path}
    (tmpNames : TmpNamesFree pid cacheDir start) (present : start path ≠ none) :
    let final := Stateful.finalState ((cmdSign primitives pid keyRead entries
      rand cacheDir keyPath).run start)
    final path = start path ∨
      IsTarget cacheDir path ∧
        SignedBy primitives rand keyPath start final path := by
  intro final
  rcases cmdSign_cases primitives pid keyRead entries rand cacheDir keyPath
    start with ⟨cause, stopped⟩ | ⟨signing, listed, rfl, found, -, loop⟩
  · left
    simp only [final, stopped, Stateful.finalState_error]
  · have ended := @forM_signEntry_endsIn _ primitives signing cacheDir start
      pid tmpNames listed
    have whole : AllOrNothing primitives signing cacheDir start final := by
      rw [← loop] at ended
      exact ended.finalState (fun _ done path _ => done.progress path)
        (fun _ stopped => stopped)
    rcases whole path present with same | ⟨target, signed⟩
    · exact Or.inl same
    · exact Or.inr ⟨target, signed.signedBy primitives found⟩

/--
However `cmd_sign` ends, and in whatever order it meets the entries of a
directory, every file that is not a narinfo of the directory is as it was, and
every narinfo is as it was or signed.  If it succeeds on a complete listing
every narinfo is signed, and all such runs leave the same disk.
-/
theorem cmdSign_all_or_nothing {keyRead : Bool}
    {entries : Option (List DirEntry)} {rand : Rand} {keyPath : Path}
    (tmpNames : TmpNamesFree pid cacheDir start) :
    let result := (cmdSign primitives pid keyRead entries rand cacheDir
      keyPath).run start
    let final := Stateful.finalState result
    (∀ path, start path ≠ none → ¬ IsTarget cacheDir path →
      final path = start path) ∧
      (∀ path, start path ≠ none → IsTarget cacheDir path →
        final path = start path ∨
          SignedBy primitives rand keyPath start final path) ∧
      (result = .ok () final → Complete cacheDir start entries →
        (∀ path, start path ≠ none → IsTarget cacheDir path →
          SignedBy primitives rand keyPath start final path) ∧
          ∀ otherRead otherEntries otherFinal,
            Complete cacheDir start otherEntries →
              (cmdSign primitives pid otherRead otherEntries rand cacheDir
                keyPath).run start = .ok () otherFinal →
                otherFinal = final) := by
  intro result final
  refine ⟨?_, ?_, ?_⟩
  · intro path present notTarget
    rcases allOrNothing_of_cmdSign primitives tmpNames present with
      same | ⟨target, -⟩
    · exact same
    · exact (notTarget target).elim
  · intro path present target
    rcases allOrNothing_of_cmdSign primitives tmpNames present with
      same | ⟨-, signed⟩
    · exact Or.inl same
    · exact Or.inr signed
  · intro ran complete
    rcases signedSoFar_of_cmdSign primitives tmpNames ran with
      ⟨signing, listed, rfl, found, rfl, done⟩
    constructor
    · rintro path present ⟨narinfo, name, rfl⟩
      rcases complete listed rfl name narinfo present with
        ⟨entry, member, named⟩
      exact (done.signed entry member name named narinfo).signedBy
        primitives found
    · intro otherRead otherEntries otherFinal otherComplete otherRan
      rcases signedSoFar_of_cmdSign primitives tmpNames otherRan with
        ⟨other, otherListed, sameRand, otherFound, rfl, otherDone⟩
      have same : other = signing := by
        cases signing
        cases other
        simp only at sameRand found otherFound
        rcases sameRand with rfl
        rcases found.unique otherFound with rfl
        rfl
      rw [same] at otherDone
      exact otherDone.unique primitives done otherComplete complete

/-- The secret key file of the sample key. -/
def sampleKeyPath : Path :=
  Path.currentDir.join (asBytes "k.secret".toList)

/-- A narinfo in the current directory. -/
def samplePath : Path :=
  Path.currentDir.join (asBytes "a.narinfo".toList)

/-- A current directory with these two files. -/
def sampleCache : Disk :=
  Function.update (Function.update emptyDirectory sampleKeyPath
    (some (.file (asBytes sampleSecret.body)))) samplePath
      (some (.file (asBytes sampleInfo.toText)))

theorem sampleCache_of_ne {name : OsStr}
    (notKey : Path.currentDir.join name ≠ sampleKeyPath)
    (notNarinfo : Path.currentDir.join name ≠ samplePath) :
    sampleCache (Path.currentDir.join name) = none := by
  rw [sampleCache, Function.update_of_ne notNarinfo,
    Function.update_of_ne notKey, emptyDirectory_join]

theorem sampleCache_tmpPath (name : OsStr) :
    sampleCache (tmpPath (Path.currentDir.join name) 7) = none := by
  have notKey : tmpPath (Path.currentDir.join name) 7 ≠ sampleKeyPath :=
    @tmpPath_ne_join _ _ _ (asBytes "k".toList) ".secret".toList 116
      (by decide) (by decide)
  have notNarinfo := @tmpPath_ne_of_isNarinfo (Path.currentDir.join name)
    samplePath 7 (by decide)
  rw [tmpPath, Path.parent_join] at notKey notNarinfo ⊢
  exact sampleCache_of_ne notKey notNarinfo

theorem sampleCache_tmpNamesFree :
    TmpNamesFree 7 Path.currentDir sampleCache := by
  rintro _ ⟨-, name, rfl⟩ -
  exact sampleCache_tmpPath name

/-- The only narinfo of the directory is met. -/
theorem sampleCache_complete :
    Complete Path.currentDir sampleCache
      (some [{ name := some (asBytes "a.narinfo".toList) }]) := by
  intro listed given name narinfo present
  rcases Option.some.inj given with rfl
  have notKey : Path.currentDir.join name ≠ sampleKeyPath := by
    intro equal
    have other : isNarinfo sampleKeyPath = false := by decide
    rw [equal, other] at narinfo
    cases narinfo
  have same : Path.currentDir.join name = samplePath := by
    by_contra different
    exact present (sampleCache_of_ne notKey different)
  exact ⟨_, List.mem_singleton.mpr rfl,
    congrArg some (Path.join_eq_join_iff.mp same).2.symm⟩

/-- A second narinfo, and a file that is none. -/
def sampleMixedPath : Path :=
  Path.currentDir.join (asBytes "b.narinfo".toList)

def sampleNotePath : Path :=
  Path.currentDir.join (asBytes "c.txt".toList)

/-- A directory with these two files as well. -/
def sampleDirectory : Disk :=
  Function.update (Function.update sampleCache sampleMixedPath
    (some (.file (asBytes sampleMixed.toText)))) sampleNotePath
      (some (.file []))

/-- A listing that meets the first narinfo twice. -/
def sampleListing : List DirEntry :=
  ["a.narinfo", "c.txt", "b.narinfo", "a.narinfo"].map fun name =>
    { name := some (asBytes name.toList) }

theorem sampleDirectory_tmpPath (name : OsStr) :
    sampleDirectory (tmpPath (Path.currentDir.join name) 7) = none := by
  have notMixed := @tmpPath_ne_of_isNarinfo (Path.currentDir.join name)
    sampleMixedPath 7 (by decide)
  have notNote : tmpPath (Path.currentDir.join name) 7 ≠ sampleNotePath :=
    @tmpPath_ne_join _ _ _ (asBytes "c".toList) ".txt".toList 116
      (by decide) (by decide)
  rw [sampleDirectory, Function.update_of_ne notNote,
    Function.update_of_ne notMixed, sampleCache_tmpPath]

theorem sampleDirectory_samplePath :
    sampleDirectory samplePath =
      some (.file (asBytes sampleInfo.toText)) := by
  rw [sampleDirectory, Function.update_of_ne (by decide),
    Function.update_of_ne (by decide), sampleCache, Function.update_self]

theorem sampleDirectory_sampleMixedPath :
    sampleDirectory sampleMixedPath =
      some (.file (asBytes sampleMixed.toText)) := by
  rw [sampleDirectory, Function.update_of_ne (by decide),
    Function.update_self]

/-- Both narinfos of the directory are met. -/
theorem sampleDirectory_complete :
    Complete Path.currentDir sampleDirectory (some sampleListing) := by
  intro listed given name narinfo present
  rcases Option.some.inj given with rfl
  have notKey : Path.currentDir.join name ≠ sampleKeyPath := by
    intro equal
    have other : isNarinfo sampleKeyPath = false := by decide
    rw [equal, other] at narinfo
    cases narinfo
  have notNote : Path.currentDir.join name ≠ sampleNotePath := by
    intro equal
    have other : isNarinfo sampleNotePath = false := by decide
    rw [equal, other] at narinfo
    cases narinfo
  by_cases first : Path.currentDir.join name = samplePath
  · exact ⟨_, List.mem_cons_self,
      congrArg some (Path.join_eq_join_iff.mp first).2.symm⟩
  · have second : Path.currentDir.join name = sampleMixedPath := by
      by_contra different
      rw [sampleDirectory, Function.update_of_ne notNote,
        Function.update_of_ne different] at present
      exact present (sampleCache_of_ne notKey first)
    exact ⟨{ name := some (asBytes "b.narinfo".toList) },
      by simp [sampleListing],
      congrArg some (Path.join_eq_join_iff.mp second).2.symm⟩

/-- Both narinfos can be signed. -/
theorem sampleDirectory_signable :
    ∀ entry ∈ sampleListing, Signable Primitives.transparent sampleSigning 7
      Path.currentDir sampleDirectory entry := by
  have here : sampleDirectory Path.currentDir = some .directory := by decide
  have first : Signable Primitives.transparent sampleSigning 7
      Path.currentDir sampleDirectory
        { name := some (asBytes "a.narinfo".toList) } :=
    ⟨_, rfl, fun _ => ⟨here, sampleDirectory_tmpPath _, _, _,
      sampleDirectory_samplePath, sampleSigning.rewrite_eq _
        ⟨parse_toText sampleInfo_representable, sampleInfo_fingerprint⟩⟩⟩
  have note : Signable Primitives.transparent sampleSigning 7
      Path.currentDir sampleDirectory
        { name := some (asBytes "c.txt".toList) } := by
    refine ⟨_, rfl, fun narinfo => ?_⟩
    have other : isNarinfo sampleNotePath = false := by decide
    rw [sampleNotePath, narinfo] at other
    cases other
  have second : Signable Primitives.transparent sampleSigning 7
      Path.currentDir sampleDirectory
        { name := some (asBytes "b.narinfo".toList) } :=
    ⟨_, rfl, fun _ => ⟨here, sampleDirectory_tmpPath _, _, _,
      sampleDirectory_sampleMixedPath,
      sampleSigning.rewrite_eq _ sampleMixed_holds⟩⟩
  intro entry member
  simp only [sampleListing, List.map_cons, List.map_nil, List.mem_cons,
    List.not_mem_nil, or_false] at member
  rcases member with rfl | rfl | rfl | rfl
  · exact first
  · exact note
  · exact second
  · exact first

/-- Both narinfos are signed, and the other file is left alone. -/
theorem cmdSign_all_or_nothing_sample :
    ∃ final, (cmdSign Primitives.transparent 7 false (some sampleListing) ()
        Path.currentDir sampleKeyPath).run sampleDirectory = .ok () final ∧
      SignedBy Primitives.transparent () sampleKeyPath sampleDirectory final
        samplePath ∧
      SignedBy Primitives.transparent () sampleKeyPath sampleDirectory final
        sampleMixedPath ∧
      final sampleNotePath = some (.file []) := by
  have keyRead : sampleDirectory.readToString sampleKeyPath =
      some sampleSecret.body := by
    apply readToString_file
    rw [sampleDirectory, Function.update_of_ne (by decide),
      Function.update_of_ne (by decide), sampleCache,
      Function.update_of_ne (by decide), Function.update_self]
  have keyRan : (readFile (.readingSecretKey sampleKeyPath) false
      sampleKeyPath).run sampleDirectory =
        .ok sampleSecret.body sampleDirectory := by
    simp only [readFile, EStateM.run, keyRead, Bool.false_eq_true, if_false]
  have ran := @run_cmdSign _ Primitives.transparent sampleSigning
    Path.currentDir sampleDirectory 7 false sampleKeyPath _ keyRan
    (loadText_secretBody sampleSigning.nameValid) sampleListing
  rcases forM_signable _ sampleDirectory_signable with ⟨final, signed⟩
  rw [signed] at ran
  have free : TmpNamesFree 7 Path.currentDir sampleDirectory := by
    rintro _ ⟨-, name, rfl⟩ -
    exact sampleDirectory_tmpPath name
  have whole := @cmdSign_all_or_nothing _ Primitives.transparent
    Path.currentDir sampleDirectory 7 false (some sampleListing)
    sampleSigning.rand sampleKeyPath free
  simp only [ran, Stateful.finalState_ok, forall_const] at whole
  have note : sampleDirectory sampleNotePath = some (.file []) :=
    Function.update_self _ _ _
  have all := (whole.2.2 sampleDirectory_complete).1
  refine ⟨final, ran, all samplePath ?_ ⟨by decide, _, rfl⟩,
    all sampleMixedPath ?_ ⟨by decide, _, rfl⟩, ?_⟩
  · rw [sampleDirectory_samplePath]
    exact Option.some_ne_none _
  · rw [sampleDirectory_sampleMixedPath]
    exact Option.some_ne_none _
  · rw [← note]
    refine whole.1 sampleNotePath ?_ ?_
    · rw [note]
      exact Option.some_ne_none _
    · rintro ⟨narinfo, -⟩
      exact absurd narinfo (by decide)

end NixPqcCache.SignDirectory
