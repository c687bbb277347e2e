import NixPqcCache.ConcurrentSigning
import NixPqcCache.Foundation.Attempts
import Mathlib.Data.Set.Card

/-!
# Signing after a crash

A process that ends while it writes leaves its temporary file behind.  A later
process with the same number cannot create that file again: its run of
`cmd_sign` fails there, and removes the file.  Each of these failures uses up
one leftover, so trying again brings the directory to its end.
-/

namespace NixPqcCache.SignRecovery

open NixPqcCache.Commands
open NixPqcCache.ConcurrentCommands
open NixPqcCache.ConcurrentJobs
open NixPqcCache.ConcurrentSigning
open NixPqcCache.ConcurrentWrites
open NixPqcCache.Data
open NixPqcCache.DiskCommands
open NixPqcCache.Foundation
open NixPqcCache.Foundation.Attempts
open NixPqcCache.Hybrid
open NixPqcCache.HybridCandidates
open NixPqcCache.KeyFiles
open NixPqcCache.KeygenRuns
open NixPqcCache.Keys
open NixPqcCache.NarinfoRoundTrip
open NixPqcCache.Paths
open NixPqcCache.SignAgain
open NixPqcCache.SignDirectory
open NixPqcCache.SignRuns
open NixPqcCache.VerifyPolicy
open NixPqcCache.Writes

variable {Rand : Type} (primitives : Primitives Rand)

/-! ## Directories that can be signed -/

/-- The temporary files that stand in the way of some processes. -/
def leftovers (pids : Set Nat) (cacheDir : Path) (disk : Disk) : Set Path :=
  {path | ∃ name, ∃ pid ∈ pids, isNarinfo (cacheDir.join name) = true ∧
    path = tmpPath (cacheDir.join name) pid ∧ disk path ≠ none}

theorem isTmp_of_mem_leftovers {pids : Set Nat} {cacheDir path : Path}
    {disk : Disk} (member : path ∈ leftovers pids cacheDir disk) :
    IsTmp path := by
  rcases member with ⟨name, pid, -, -, rfl, -⟩
  exact isTmp_tmpPath _ _

/-- A directory of narinfos that a key can sign. -/
structure Ready (cacheDir keyPath : Path) (secret : SecretKey)
    (disk : Disk) : Prop where
  key : KeyAt disk keyPath secret
  keyApart : isNarinfo keyPath = false ∧ ¬ IsTmp keyPath
  directory : disk cacheDir = some .directory
  signable : ∀ name, isNarinfo (cacheDir.join name) = true →
    disk (cacheDir.join name) ≠ none → ∃ text info fingerprint,
      disk (cacheDir.join name) = some (.file (asBytes text)) ∧
        SignRuns.Holds info fingerprint text
  files : TmpFiles disk

/-- A narinfo of the directory is signed. -/
inductive Signs (cacheDir : Path) (secret : SecretKey) (disk : Disk) :
    Disk → Prop where
  | signed {name : OsStr} {text written : Str} {signing : Signing Rand}
      (narinfo : isNarinfo (cacheDir.join name) = true)
      (own : signing.secret = secret)
      (found : disk (cacheDir.join name) = some (.file (asBytes text)))
      (rewritten : Signing.rewrite primitives text signing = .ok written) :
      Signs cacheDir secret disk (Function.update disk (cacheDir.join name)
        (some (.file (asBytes written))))

section Steps

variable {primitives} {cacheDir keyPath path : Path} {secret : SecretKey}
  {pids : Set Nat} {disk after : Disk}

theorem Signs.of_ne (signs : Signs primitives cacheDir secret disk after)
    (other : ¬ IsTarget cacheDir path) : after path = disk path := by
  cases signs with
  | signed narinfo _ _ _ =>
      apply Function.update_of_ne
      rintro rfl
      exact other ⟨narinfo, _, rfl⟩

/-- Nothing appears or disappears. -/
theorem Signs.eq_none_iff
    (signs : Signs primitives cacheDir secret disk after) (path : Path) :
    after path = none ↔ disk path = none := by
  cases signs with
  | @signed name text written _ _ _ found _ =>
      by_cases same : path = cacheDir.join name
      · rw [same, Function.update_self, found]
        simp
      · rw [Function.update_of_ne same]

theorem Ready.signs (ready : Ready cacheDir keyPath secret disk)
    (signs : Signs primitives cacheDir secret disk after) :
    Ready cacheDir keyPath secret after := by
  have keyKept : after keyPath = disk keyPath := by
    apply signs.of_ne
    rintro ⟨narinfo, -⟩
    rw [ready.keyApart.1] at narinfo
    cases narinfo
  refine ⟨?_, ready.keyApart, ?_, ?_, ?_⟩
  · rcases ready.key with ⟨keyText, read, loaded⟩
    refine ⟨keyText, ?_, loaded⟩
    rw [← read, Disk.readToString, keyKept, Disk.readToString]
  · cases signs with
    | @signed name _ _ _ _ _ found _ =>
        rw [Function.update_of_ne _ _ _]
        · exact ready.directory
        · intro same
          rw [← same, ready.directory] at found
          cases found
  · intro name narinfo present
    cases signs with
    | @signed other text written _ _ _ found rewritten =>
        by_cases same : cacheDir.join name = cacheDir.join other
        · rcases Signing.holds_of_rewrite primitives rewritten with
            ⟨info, fingerprint, -, -, holds⟩
          exact ⟨written, _, fingerprint,
            by rw [same, Function.update_self], holds⟩
        · rw [Function.update_of_ne same] at present ⊢
          exact ready.signable name narinfo present
  · intro path isTmp present
    have kept : after path = disk path := by
      apply signs.of_ne
      rintro ⟨narinfo, -⟩
      exact not_isTmp_of_isNarinfo narinfo isTmp
    rw [kept] at present ⊢
    exact ready.files path isTmp present

/-- A leftover is removed. -/
theorem Ready.removed (ready : Ready cacheDir keyPath secret disk)
    {tmp : Path} (member : tmp ∈ leftovers pids cacheDir disk) :
    Ready cacheDir keyPath secret (Function.update disk tmp none) := by
  have isTmp := isTmp_of_mem_leftovers member
  rcases ready.files tmp isTmp member.choose_spec.choose_spec.2.2.2 with
    ⟨contents, file⟩
  refine ⟨?_, ready.keyApart, ?_, ?_, ?_⟩
  · rcases ready.key with ⟨keyText, read, loaded⟩
    refine ⟨keyText, ?_, loaded⟩
    have notKey : keyPath ≠ tmp := by
      rintro rfl
      exact ready.keyApart.2 isTmp
    rw [← read, Disk.readToString, Function.update_of_ne notKey,
      Disk.readToString]
  · rw [Function.update_of_ne]
    · exact ready.directory
    · rintro rfl
      rw [ready.directory] at file
      cases file
  · intro name narinfo present
    have notTmp : cacheDir.join name ≠ tmp := by
      rintro rfl
      exact not_isTmp_of_isNarinfo narinfo isTmp
    rw [Function.update_of_ne notTmp] at present ⊢
    exact ready.signable name narinfo present
  · intro path pathIsTmp present
    by_cases same : path = tmp
    · rw [same, Function.update_self] at present
      exact (present rfl).elim
    · rw [Function.update_of_ne same] at present ⊢
      exact ready.files path pathIsTmp present

theorem leftovers_removed (tmp : Path) :
    leftovers pids cacheDir (Function.update disk tmp none) =
      leftovers pids cacheDir disk \ {tmp} := by
  ext1 path
  by_cases same : path = tmp
  · rw [same]
    simp [leftovers]
  · simp [leftovers, same]

/-! ## One entry -/

/-- An entry without trouble of its own, and what it names is there. -/
def Plain (cacheDir : Path) (disk : Disk) (entry : DirEntry) : Prop :=
  ∃ name, entry = { name := some name } ∧
    (isNarinfo (cacheDir.join name) = true →
      disk (cacheDir.join name) ≠ none)

/-- A file that bears the temporary name is removed, and the write fails. -/
theorem run_save_of_leftover {pid : Nat} {tmp : Path} {contents : Bytes}
    (named : tmp = tmpPath path pid)
    (file : disk tmp = some (.file contents)) (signed : Str) :
    (save (writeAtomicOverwrite pid {} path signed)).run disk =
      .error (.write (.creatingTmp tmp)) (Function.update disk tmp none) := by
  rcases named with rfl
  have blocked : ¬ CanCreate pid {} path disk := by
    rintro ⟨-, free, -⟩
    rw [file] at free
    cases free
  have removed : uncreated pid {} path disk =
      Function.update disk (tmpPath path pid) none := by
    simp only [uncreated, attempt, Disk.removeFile, file,
      Bool.false_eq_true, if_false, Option.getD_some]
  simp only [save, EStateM.run, writeAtomicOverwrite]
  rw [writeViaTempRename_of_not_canCreate blocked, removed]

/-- An entry is dealt with, or its write meets a leftover. -/
theorem Ready.signEntry (ready : Ready cacheDir keyPath secret disk)
    {pid : Nat} (known : pid ∈ pids) {signing : Signing Rand}
    (own : signing.secret = secret) {entry : DirEntry}
    (plain : Plain cacheDir disk entry) :
    (∃ after, (DiskCommands.signEntry primitives pid signing.secret
        signing.rand cacheDir entry).run disk = .ok () after ∧
      Relation.ReflTransGen (Signs primitives cacheDir secret) disk after) ∨
      ∃ tmp ∈ leftovers pids cacheDir disk,
        (DiskCommands.signEntry primitives pid signing.secret signing.rand
          cacheDir entry).run disk =
          .error (.write (.creatingTmp tmp))
            (Function.update disk tmp none) := by
  rcases plain with ⟨name, rfl, present⟩
  cases narinfo : isNarinfo (cacheDir.join name) with
  | false =>
      exact Or.inl ⟨disk, run_signEntry_of_other primitives narinfo, .refl⟩
  | true =>
      rcases ready.signable name narinfo (present narinfo) with
        ⟨text, info, fingerprint, file, holds⟩
      have rewritten := signing.rewrite_eq primitives holds
      have ran := @run_signEntry_eq_save _ primitives signing cacheDir disk
        pid { name := some name } name _ _ rfl narinfo rfl
        (readToString_file file) rewritten
      by_cases free : disk (tmpPath (cacheDir.join name) pid) = none
      · exact Or.inl ⟨_, run_signEntry_of_free primitives narinfo
          ready.directory free file rewritten,
          .single (.signed narinfo own file rewritten)⟩
      · have isTmp := isTmp_tmpPath (cacheDir.join name) pid
        rcases ready.files _ isTmp free with ⟨contents, left⟩
        refine Or.inr ⟨_, ⟨name, pid, known, narinfo, rfl, free⟩, ?_⟩
        rw [ran, run_save_of_leftover rfl left]

/-! ## One run -/

theorem Ready.reached (ready : Ready cacheDir keyPath secret disk)
    (reached : Relation.ReflTransGen (Signs primitives cacheDir secret) disk
      after) : Ready cacheDir keyPath secret after :=
  Stateful.invariant_of_reached (fun _ _ holds step => holds.signs step)
    ready reached

theorem eq_none_iff_of_reached
    (reached : Relation.ReflTransGen (Signs primitives cacheDir secret) disk
      after) (path : Path) : after path = none ↔ disk path = none := by
  induction reached with
  | refl => exact Iff.rfl
  | tail _ last induction => exact (last.eq_none_iff path).trans induction

theorem leftovers_eq_of_reached
    (reached : Relation.ReflTransGen (Signs primitives cacheDir secret) disk
      after) :
    leftovers pids cacheDir after = leftovers pids cacheDir disk := by
  ext1 path
  simp only [leftovers, Set.mem_ofPred_eq, ne_eq,
    eq_none_iff_of_reached reached]

theorem Plain.reached {entry : DirEntry} (plain : Plain cacheDir disk entry)
    (reached : Relation.ReflTransGen (Signs primitives cacheDir secret) disk
      after) : Plain cacheDir after entry := by
  rcases plain with ⟨name, rfl, present⟩
  exact ⟨name, rfl, fun narinfo absent =>
    present narinfo ((eq_none_iff_of_reached reached _).mp absent)⟩

/-- The loop is done, or stops at a leftover, which is gone then. -/
theorem Ready.forM_signEntry (ready : Ready cacheDir keyPath secret disk)
    {pid : Nat} (known : pid ∈ pids) {signing : Signing Rand}
    (own : signing.secret = secret) {entries : List DirEntry}
    (plain : ∀ entry ∈ entries, Plain cacheDir disk entry) :
    let result := (entries.forM (DiskCommands.signEntry primitives pid
      signing.secret signing.rand cacheDir)).run disk
    (∃ after, result = .ok () after ∧
      Relation.ReflTransGen (Signs primitives cacheDir secret) disk after) ∨
      ∃ middle, Relation.ReflTransGen (Signs primitives cacheDir secret) disk
          middle ∧
        ∃ tmp ∈ leftovers pids cacheDir middle,
          result = .error (.write (.creatingTmp tmp))
            (Function.update middle tmp none) := by
  intro result
  induction entries generalizing disk with
  | nil => exact Or.inl ⟨disk, rfl, .refl⟩
  | cons entry entries induction =>
      rw [List.forall_mem_cons] at plain
      simp only [result, List.forM_eq_forM, List.forM_cons]
      rcases @Ready.signEntry _ primitives cacheDir keyPath secret pids disk
        ready pid known signing own entry plain.1 with
        ⟨middle, ran, signed⟩ | ⟨tmp, member, stopped⟩
      · rw [Stateful.run_bind_of_ok ran]
        rcases @induction middle (ready.reached signed)
          (fun other inside => (plain.2 other inside).reached signed) with
          ⟨after, rest, more⟩ | ⟨last, more, tmp, member, rest⟩
        · exact Or.inl ⟨after, rest, signed.trans more⟩
        · exact Or.inr ⟨last, signed.trans more, tmp, member, rest⟩
      · rw [Stateful.run_bind_of_error stopped]
        exact Or.inr ⟨disk, .refl, tmp, member, rfl⟩

end Steps

/-- A run of `cmd_sign`. -/
structure Attempt (Rand : Type) where
  pid : Nat
  listed : List DirEntry
  rand : Rand

def Attempt.run (attempt : Attempt Rand) (cacheDir keyPath : Path) :
    Command Unit :=
  cmdSign primitives attempt.pid false (some attempt.listed) attempt.rand
    cacheDir keyPath

/-- The process has one of the numbers, and the system does its part. -/
structure Attempt.Fair (pids : Set Nat) (cacheDir : Path) (disk : Disk)
    (attempt : Attempt Rand) : Prop where
  known : attempt.pid ∈ pids
  plain : ∀ entry ∈ attempt.listed, Plain cacheDir disk entry
  complete : Complete cacheDir disk (some attempt.listed)

/-- A fair run that succeeds. -/
def Works (pids : Set Nat) (cacheDir keyPath : Path) (before after : Disk) :
    Prop :=
  ∃ attempt : Attempt Rand, attempt.Fair pids cacheDir before ∧
    (attempt.run primitives cacheDir keyPath).run before = .ok () after

/-- A fair run that fails. -/
def Fails (pids : Set Nat) (cacheDir keyPath : Path) (before after : Disk) :
    Prop :=
  ∃ (attempt : Attempt Rand) (cause : CommandError),
    attempt.Fair pids cacheDir before ∧
      (attempt.run primitives cacheDir keyPath).run before =
        .error cause after

section Attempts

variable {primitives} {cacheDir keyPath path : Path} {secret : SecretKey}
  {pids : Set Nat} {disk after : Disk}

/-- A fair run signs what it lists, or stops at a leftover. -/
theorem Ready.attempt (ready : Ready cacheDir keyPath secret disk)
    {attempt : Attempt Rand} (fair : attempt.Fair pids cacheDir disk) :
    let result := (attempt.run primitives cacheDir keyPath).run disk
    (∃ after, result = .ok () after ∧
      Relation.ReflTransGen (Signs primitives cacheDir secret) disk after) ∨
      ∃ middle, Relation.ReflTransGen (Signs primitives cacheDir secret) disk
          middle ∧
        ∃ tmp ∈ leftovers pids cacheDir middle,
          result = .error (.write (.creatingTmp tmp))
            (Function.update middle tmp none) := by
  intro result
  rcases ready.key with ⟨keyText, read, loaded⟩
  have keyRan : (readFile (.readingSecretKey keyPath) false keyPath).run
      disk = .ok keyText disk := by
    simp only [readFile, EStateM.run, read, Bool.false_eq_true, if_false]
  have ran := @run_cmdSign _ primitives
    ⟨secret, attempt.rand, valid_of_loadSecretText loaded⟩ cacheDir disk
    attempt.pid false keyPath keyText keyRan loaded attempt.listed
  simp only [result, Attempt.run, ran]
  exact @Ready.forM_signEntry _ primitives cacheDir keyPath secret pids disk
    ready attempt.pid fair.known
    ⟨secret, attempt.rand, valid_of_loadSecretText loaded⟩ rfl _ fair.plain

/-- A narinfo is as it was at some time, or signed once since. -/
def OnceFrom (primitives : Primitives Rand) (cacheDir : Path)
    (secret : SecretKey) (origin disk : Disk) : Prop :=
  ∀ path, IsTarget cacheDir path → disk path = origin path ∨
    SignedOnce primitives secret origin path (disk path)

theorem OnceFrom.signs {origin : Disk}
    (once : OnceFrom primitives cacheDir secret origin disk)
    (signs : Signs primitives cacheDir secret disk after) :
    OnceFrom primitives cacheDir secret origin after := by
  intro path target
  cases signs with
  | @signed name _ _ _ _ own found rewritten =>
      by_cases same : path = cacheDir.join name
      · rcases own with rfl
        rw [same, Function.update_self]
        exact Or.inr (SignedOnce.again (once _ (same ▸ target)) found
          rewritten)
      · rw [Function.update_of_ne same]
        exact once path target

theorem OnceFrom.removed {origin : Disk}
    (once : OnceFrom primitives cacheDir secret origin disk) {tmp : Path}
    (isTmp : IsTmp tmp) :
    OnceFrom primitives cacheDir secret origin
      (Function.update disk tmp none) := by
  intro path target
  rw [Function.update_of_ne]
  · exact once path target
  · rintro rfl
    exact not_isTmp_of_isNarinfo target.1 isTmp

/-- What holds between two runs. -/
structure Between (primitives : Primitives Rand) (cacheDir keyPath : Path)
    (secret : SecretKey) (origin disk : Disk) : Prop where
  ready : Ready cacheDir keyPath secret disk
  once : OnceFrom primitives cacheDir secret origin disk

theorem Between.reached {origin : Disk}
    (between : Between primitives cacheDir keyPath secret origin disk)
    (reached : Relation.ReflTransGen (Signs primitives cacheDir secret) disk
      after) : Between primitives cacheDir keyPath secret origin after where
  ready := between.ready.reached reached
  once := by
    refine Stateful.invariant_of_reached ?_ between.once reached
    exact fun _ _ once step => once.signs step

theorem Between.works {origin : Disk}
    (between : Between primitives cacheDir keyPath secret origin disk)
    (works : Works primitives pids cacheDir keyPath disk after) :
    Between primitives cacheDir keyPath secret origin after ∧
      (leftovers pids cacheDir after).encard ≤
        (leftovers pids cacheDir disk).encard := by
  rcases works with ⟨attempt, fair, ran⟩
  rcases @Ready.attempt _ primitives cacheDir keyPath secret pids disk
    between.ready attempt fair with
    ⟨other, otherRan, signed⟩ | ⟨middle, -, tmp, -, stopped⟩
  · rw [otherRan] at ran
    cases ran
    exact ⟨between.reached signed, by rw [leftovers_eq_of_reached signed]⟩
  · rw [stopped] at ran
    cases ran

/-- A run that fails has removed a leftover. -/
theorem Between.fails {origin : Disk}
    (between : Between primitives cacheDir keyPath secret origin disk)
    (fails : Fails primitives pids cacheDir keyPath disk after) :
    Between primitives cacheDir keyPath secret origin after ∧
      (leftovers pids cacheDir after).encard + 1 ≤
        (leftovers pids cacheDir disk).encard := by
  rcases fails with ⟨attempt, cause, fair, ran⟩
  rcases @Ready.attempt _ primitives cacheDir keyPath secret pids disk
    between.ready attempt fair with
    ⟨other, otherRan, -⟩ | ⟨middle, signed, tmp, member, stopped⟩
  · rw [otherRan] at ran
    cases ran
  · rw [stopped] at ran
    cases ran
    have there := between.reached signed
    refine ⟨⟨there.ready.removed member,
      there.once.removed (isTmp_of_mem_leftovers member)⟩, ?_⟩
    rw [leftovers_removed, Set.encard_sdiff_singleton_add_one member,
      leftovers_eq_of_reached signed]

/-- After a run that succeeds every narinfo is signed. -/
theorem Between.signed {origin : Disk}
    (between : Between primitives cacheDir keyPath secret origin disk)
    {attempt : Attempt Rand} (fair : attempt.Fair pids cacheDir disk)
    (ran : (attempt.run primitives cacheDir keyPath).run disk =
      .ok () after) (target : IsTarget cacheDir path)
    (present : origin path ≠ none) :
    SignedOnce primitives secret origin path (after path) := by
  have now : disk path ≠ none := by
    rcases between.once path target with
      same | ⟨_, _, _, -, -, -, written⟩
    · rwa [same]
    · rw [written]
      exact Option.some_ne_none _
  rcases target with ⟨narinfo, name, rfl⟩
  rcases signedSoFar_of_run between.ready.key ran with ⟨signing, own, soFar⟩
  rcases fair.complete _ rfl name narinfo now with ⟨entry, member, named⟩
  rcases soFar.signed entry member name named narinfo with
    ⟨text, written, found, rewritten, result⟩
  rcases own with rfl
  rw [result]
  exact SignedOnce.again (between.once _ ⟨narinfo, name, rfl⟩) found
    rewritten

/-- What trying again does. -/
theorem Between.recovers {origin : Disk} {failures : Nat} {final : Disk}
    (between : Between primitives cacheDir keyPath secret origin disk)
    (tried : Tried (Works primitives pids cacheDir keyPath)
      (Fails primitives pids cacheDir keyPath) disk failures final) :
    failures + (leftovers pids cacheDir final).encard ≤
        (leftovers pids cacheDir disk).encard ∧
      ∀ attempt : Attempt Rand, attempt.Fair pids cacheDir final →
        (∃ after, (attempt.run primitives cacheDir keyPath).run final =
            .ok () after ∧
          ∀ path, IsTarget cacheDir path → origin path ≠ none →
            SignedOnce primitives secret origin path (after path)) ∨
          ∃ after, ∃ tmp ∈ leftovers pids cacheDir final,
            (attempt.run primitives cacheDir keyPath).run final =
                .error (.write (.creatingTmp tmp)) after ∧
              leftovers pids cacheDir after =
                leftovers pids cacheDir final \ {tmp} := by
  refine ⟨@Tried.failures_add_le _ _ _ _ _ _ _
    (fun disk => (leftovers pids cacheDir disk).encard)
    (fun _ _ between works => Between.works between works)
    (fun _ _ between fails => Between.fails between fails) between tried, ?_⟩
  intro attempt fair
  have last : Between primitives cacheDir keyPath secret origin final := by
    refine Tried.invariant ?_ ?_ between tried
    · exact fun _ _ between works => (between.works works).1
    · exact fun _ _ between fails => (between.fails fails).1
  rcases @Ready.attempt _ primitives cacheDir keyPath secret pids final
    last.ready attempt fair with
    ⟨after, ran, -⟩ | ⟨middle, signed, tmp, member, stopped⟩
  · exact Or.inl ⟨after, ran, fun path target present =>
      last.signed fair ran target present⟩
  · rw [leftovers_eq_of_reached signed] at member
    refine Or.inr ⟨_, tmp, member, stopped, ?_⟩
    rw [leftovers_removed, leftovers_eq_of_reached signed]

end Attempts

/-! ## After a crash -/

section Crash

variable {primitives} {processes : Processes Rand} {umask : Mode}
  {start system : System} {cacheDir keyPath : Path} {secret : SecretKey}

theorem Ready.not_isTmp {disk : Disk}
    (ready : Ready cacheDir keyPath secret disk) : ¬ IsTmp cacheDir := by
  intro isTmp
  have present : disk cacheDir ≠ none :=
    ready.directory ▸ Option.some_ne_none _
  rcases ready.files cacheDir isTmp present with ⟨contents, file⟩
  rw [ready.directory] at file
  cases file

/-- Whatever processes have left behind, the directory can be signed. -/
theorem Ready.of_planned {origin disk : Disk}
    (ready : Ready cacheDir keyPath secret origin)
    (planned : Planned (Outcome primitives processes origin) origin disk)
    (files : TmpFiles disk) :
    Ready cacheDir keyPath secret disk := by
  -- neither a narinfo that is signed nor where a new key file goes
  have kept {path : Path} (notTmp : ¬ IsTmp path)
      (notNarinfo : ∀ text, origin path =
        some (.file (asBytes text)) → isNarinfo path = false)
      (present : origin path ≠ none) : disk path = origin path := by
    rcases planned path notTmp with same | ⟨job, outcome, rfl, -⟩
    · exact same
    · cases outcome with
      | signed narinfo original _ _ _ =>
          have other := notNarinfo _ original
          rw [signedJob, narinfo] at other
          cases other
      | saved _ _ _ free => exact (present free).elim
  rcases ready.key with ⟨keyText, read, loaded⟩
  have keyFile := eq_file_of_readToString read
  refine ⟨⟨keyText, ?_, loaded⟩, ready.keyApart, ?_, ?_, files⟩
  · apply readToString_file
    rw [kept ready.keyApart.2 (fun _ _ => ready.keyApart.1)
      (keyFile ▸ Option.some_ne_none _), keyFile]
  · rw [kept ready.not_isTmp _ (ready.directory ▸ Option.some_ne_none _),
      ready.directory]
    intro text file
    rw [ready.directory] at file
    cases file
  · intro name narinfo present
    rcases planned _ (not_isTmp_of_isNarinfo narinfo) with
      same | ⟨job, outcome, target, now⟩
    · rw [same] at present ⊢
      exact ready.signable name narinfo present
    · cases outcome with
      | @signed otherDir otherName original final history _ before _ _
          rewritten =>
          rcases Path.join_eq_join_iff.mp target with ⟨rfl, rfl⟩
          rcases ready.signable otherName narinfo
            (before ▸ Option.some_ne_none _) with
            ⟨text, info, fingerprint, found, holds⟩
          rw [before, Option.some.injEq, Node.file.injEq] at found
          rcases asBytes_injective found with rfl
          rcases @rewriteAll_holds _ primitives history _ _ _ holds with
            ⟨written, ran, finalHolds⟩
          rw [rewritten, Except.ok.injEq] at ran
          rcases ran with rfl
          exact ⟨final, _, fingerprint, now, finalHolds⟩
      | saved _ _ saves _ =>
          have other := not_isNarinfo_of_isKeyFile saves.isKeyFile
          rw [target, narinfo] at other
          cases other

/-- Where the processes of a key have worked, trying again is enough. -/
theorem Between.of_planned {origin disk : Disk}
    (ready : Ready cacheDir keyPath secret origin)
    (own : ∀ pid signing, processes.signs pid cacheDir signing →
      signing.secret = secret)
    (planned : Planned (Outcome primitives processes origin) origin disk)
    (files : TmpFiles disk) :
    Between primitives cacheDir keyPath secret origin disk := by
  refine ⟨ready.of_planned planned files, ?_⟩
  rintro _ ⟨narinfo, name, rfl⟩
  rcases planned _ (not_isTmp_of_isNarinfo narinfo) with
    same | ⟨job, outcome, target, now⟩
  · exact Or.inl same
  · rw [now]
    exact Or.inr (signedOnce_of_outcome own narinfo outcome target)

/--
However the processes of a key were interrupted, no more runs fail after that
than temporary files are left, and a run that fails has removed one of them.
A run that succeeds has signed every narinfo, as if nothing had happened.
-/
theorem sign_recovers {pids : Set Nat} {failures : Nat} {final : Disk}
    (idle : ∀ pid, start.job pid = none)
    (ready : Ready cacheDir keyPath secret start.world.view)
    (own : ∀ pid signing, processes.signs pid cacheDir signing →
      signing.secret = secret)
    (reached : Relation.ReflTransGen
      (ConcurrentJobs.Step umask (Asks primitives processes)) start system)
    (tried : Tried (Works primitives pids cacheDir keyPath)
      (Fails primitives pids cacheDir keyPath) system.world.view failures
        final) :
    failures + (leftovers pids cacheDir final).encard ≤
        (leftovers pids cacheDir system.world.view).encard ∧
      ∀ attempt : Attempt Rand, attempt.Fair pids cacheDir final →
        (∃ after, (attempt.run primitives cacheDir keyPath).run final =
            .ok () after ∧
          ∀ path, IsTarget cacheDir path →
            start.world.view path ≠ none →
              SignedOnce primitives secret start.world.view path
                (after path)) ∨
          ∃ after, ∃ tmp ∈ leftovers pids cacheDir final,
            (attempt.run primitives cacheDir keyPath).run final =
                .error (.write (.creatingTmp tmp)) after ∧
              leftovers pids cacheDir after =
                leftovers pids cacheDir final \ {tmp} := by
  have planned := (outcome_of_reached idle reached).2.planned
  exact (Between.of_planned ready own planned (tmpFiles_of_reached idle
    (asks_sound start.world.view) reached ready.files)).recovers tried

end Crash

theorem sampleCache_clean (path : Path) (isTmp : IsTmp path) :
    sampleCache path = none := by
  have notNarinfo : path ≠ samplePath := by
    rintro rfl
    exact not_isTmp_of_isNarinfo (by decide) isTmp
  have notKey : path ≠ sampleKeyPath := by
    rintro rfl
    exact not_isTmp_of_isKeyFile
      (@isKeyFile_secretPath Path.currentDir "k".toList) isTmp
  rcases isTmp with ⟨target, pid, rfl⟩
  rw [sampleCache, Function.update_of_ne notNarinfo,
    Function.update_of_ne notKey, emptyDirectory, Function.update_of_ne]
  simp [tmpPath, Path.join, Path.currentDir]

theorem sampleCache_ready :
    Ready Path.currentDir sampleKeyPath sampleSecret sampleCache where
  key := by
    refine ⟨sampleSecret.body, readToString_file ?_,
      loadText_secretBody (by decide)⟩
    rw [sampleCache, Function.update_of_ne (by decide),
      Function.update_self]
  keyApart := ⟨by decide, not_isTmp_of_isKeyFile
    (@isKeyFile_secretPath Path.currentDir "k".toList)⟩
  directory := rfl
  signable := by
    intro name narinfo present
    rcases sampleCache_complete _ rfl name narinfo present with
      ⟨entry, member, named⟩
    rw [List.mem_singleton.mp member, Option.some.injEq] at named
    rcases named with rfl
    exact ⟨_, sampleInfo, sampleFingerprint, Function.update_self _ _ _,
      parse_toText sampleInfo_representable, sampleInfo_fingerprint⟩
  files := fun path isTmp present =>
    (present (sampleCache_clean path isTmp)).elim

/-- What a process leaves that crashes after it has made its file. -/
def sampleLeft : Disk :=
  Function.update sampleCache (tmpPath samplePath 7) (some (.file []))

/-- A process crashes right after it has made its temporary file. -/
theorem sample_crashed :
    ∃ system, Relation.ReflTransGen (ConcurrentJobs.Step 0o022
        (Asks Primitives.transparent sampleProcesses)) sampleSystem system ∧
      system.world.view = sampleLeft := by
  let signing : Signing Unit := ⟨sampleSecret, (), by decide⟩
  have narinfo : isNarinfo samplePath = true := by decide
  have asked := @Asks.sign _ Primitives.transparent sampleProcesses 7
    sampleSystem.world.view Path.currentDir (asBytes "a.narinfo".toList)
    signing _ _ rfl narinfo
    (readToString_file sampleSystem_samplePath)
    (signing.rewrite_eq Primitives.transparent
      ⟨parse_toText sampleInfo_representable, sampleInfo_fingerprint⟩)
  have taken := Relation.ReflTransGen.refl.tail
    (@ConcurrentJobs.Step.take 0o022 _ sampleSystem 7 _ rfl asked)
  have created := taken.tail (ConcurrentJobs.Step.call
    System.job_take_self ((ConcurrentWrites.Step.create (alone_self _ _)
      (World.phase_setPhase_self _ _ _) rfl).of_pid rfl))
  have crashed := created.tail (ConcurrentJobs.Step.call
    System.job_take_self (ConcurrentWrites.Step.of_pid
      (ConcurrentWrites.Step.crash _ 7) rfl))
  refine ⟨_, crashed, ?_⟩
  rw [sampleLeft, ← sampleSystem_view]
  exact World.view_create

/-- Another process with the number 7 tries again. -/
def sampleAttempt : Attempt Unit :=
  ⟨7, [{ name := some (asBytes "a.narinfo".toList) }], ()⟩

theorem sampleAttempt_fair :
    sampleAttempt.Fair {7} Path.currentDir sampleLeft := by
  have narinfoKept {path : Path} (narinfo : isNarinfo path = true) :
      sampleLeft path = sampleCache path := by
    rw [sampleLeft,
      Function.update_of_ne (tmpPath_ne_of_isNarinfo narinfo).symm]
  refine ⟨rfl, ?_, ?_⟩
  · intro entry member
    refine ⟨_, List.mem_singleton.mp member, fun narinfo => ?_⟩
    rw [narinfoKept narinfo]
    exact sampleCache_samplePath ▸ Option.some_ne_none _
  · intro listed given name narinfo present
    rw [narinfoKept narinfo] at present
    exact sampleCache_complete listed given name narinfo present

theorem sign_recovers_sample :
    ∃ disk : Disk, disk (tmpPath samplePath 7) = some (.file []) ∧
      ((∃ after, (sampleAttempt.run Primitives.transparent Path.currentDir
            sampleKeyPath).run disk = .ok () after ∧
          SignedOnce Primitives.transparent sampleSecret sampleCache
            samplePath (after samplePath)) ∨
        ∃ after, ∃ tmp ∈ leftovers {7} Path.currentDir disk,
          (sampleAttempt.run Primitives.transparent Path.currentDir
              sampleKeyPath).run disk =
              .error (.write (.creatingTmp tmp)) after ∧
            leftovers {7} Path.currentDir after =
              leftovers {7} Path.currentDir disk \ {tmp}) := by
  have target : IsTarget Path.currentDir samplePath := ⟨by decide, _, rfl⟩
  rcases sample_crashed with ⟨system, reached, view⟩
  have recovers := (@sign_recovers _ Primitives.transparent sampleProcesses
    0o022 sampleSystem system Path.currentDir sampleKeyPath sampleSecret {7}
    0 system.world.view (fun _ => rfl) (sampleSystem_view ▸ sampleCache_ready)
    (fun _ _ signs => signs) reached .nothing).2 sampleAttempt
      (view ▸ sampleAttempt_fair)
  rw [sampleSystem_view, view] at recovers
  refine ⟨sampleLeft, Function.update_self _ _ _, ?_⟩
  rcases recovers with ⟨after, ran, signed⟩ | stopped
  · exact Or.inl ⟨after, ran, signed samplePath target
      (sampleCache_samplePath ▸ Option.some_ne_none _)⟩
  · exact Or.inr stopped

end NixPqcCache.SignRecovery
