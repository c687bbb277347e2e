import NixPqcCache.Writes

/-!
# Writing at the same time

Several processes run `write_via_temp_rename` against one target.  Here the
function is taken apart into the calls it makes, so that the calls of
different processes can come in any order, and a directory entry is kept apart
from the file it leads to, because a process fills the file it has opened
while a rename moves the entry.

Each process has a temporary name of its own.  A file that was made during the
run is therefore led to by one entry only, and the entry that a rename moves
leads to a file that nobody is filling any more.
-/

namespace NixPqcCache.ConcurrentWrites

open NixPqcCache.Data
open NixPqcCache.Foundation
open NixPqcCache.Paths
open NixPqcCache.Writes

/-! ## Worlds -/

/-- Where a process is in `write_via_temp_rename`. -/
inductive Phase where
  | waiting
  /-- It has opened a file and written so many bytes. -/
  | filling (inode written : Nat)
  /-- The closure has failed. -/
  | cleaning
  /-- The closure has succeeded. -/
  | moving
  | finished
  | crashed
  deriving DecidableEq

/-- Every entry leads to a file whose number has been given out. -/
def Bounded (entry : Path → Option Nat) (next : Nat) : Prop :=
  ∀ path inode, entry path = some inode → inode < next

theorem Bounded.update {entry : Path → Option Nat} {next : Nat}
    (bounded : Bounded entry next) (path : Path) {value : Option Nat}
    (known : ∀ inode, value = some inode → inode < next) :
    Bounded (Function.update entry path value) next := by
  intro other inode leads
  by_cases same : other = path
  · rw [same, Function.update_self] at leads
    exact known inode leads
  · rw [Function.update_of_ne same] at leads
    exact bounded other inode leads

theorem Bounded.succ {entry : Path → Option Nat} {next : Nat}
    (bounded : Bounded entry next) : Bounded entry (next + 1) :=
  fun path inode leads => Nat.lt_succ_of_lt (bounded path inode leads)

theorem Bounded.unlinked {entry : Path → Option Nat} {next : Nat}
    (bounded : Bounded entry next) (path : Path) :
    Bounded (Function.update entry path none) next := by
  apply bounded.update
  intro inode absent
  cases absent

/-- Directory entries, the files they lead to, and the processes. -/
structure World where
  entry : Path → Option Nat
  data : Nat → Node
  /-- A number that no file has yet. -/
  next : Nat
  bounded : Bounded entry next
  phase : Nat → Phase

namespace World

/-- What stands at each path. -/
def view (world : World) : Disk :=
  fun path => (world.entry path).map world.data

def setPhase (world : World) (pid : Nat) (phase : Phase) : World :=
  { world with phase := Function.update world.phase pid phase }

@[simp]
theorem phase_setPhase_self (world : World) (pid : Nat) (phase : Phase) :
    (world.setPhase pid phase).phase pid = phase :=
  Function.update_self _ _ _

theorem phase_setPhase_of_ne {world : World} {pid other : Nat}
    (different : other ≠ pid) (phase : Phase) :
    (world.setPhase pid phase).phase other = world.phase other :=
  Function.update_of_ne different _ _

/-- An entry for a new, empty file. -/
def create (world : World) (path : Path) : World :=
  { world with
    entry := Function.update world.entry path (some world.next)
    data := Function.update world.data world.next (.file [])
    next := world.next + 1
    bounded := by
      apply world.bounded.succ.update
      intro inode fresh
      rw [Option.some.injEq] at fresh
      exact fresh ▸ Nat.lt_succ_self _ }

/-- Bytes at the end of a file. -/
def append (world : World) (inode : Nat) (bytes : Bytes) : World :=
  { world with
    data := Function.update world.data inode
      (match world.data inode with
        | .file contents => .file (contents ++ bytes)
        | .directory => .directory) }

def unlink (world : World) (path : Path) : World :=
  { world with
    entry := Function.update world.entry path none
    bounded := world.bounded.unlinked path }

/-- An entry under another name. -/
def move (world : World) (source target : Path) : World :=
  { world with
    entry := Function.update (Function.update world.entry source none) target
      (world.entry source)
    bounded := (world.bounded.unlinked source).update target
      (world.bounded source) }

section Calls

variable {world : World} {path other target : Path} {inode : Nat}

@[simp]
theorem entry_create_self :
    (world.create path).entry path = some world.next :=
  Function.update_self _ _ _

theorem entry_create_of_ne (different : other ≠ path) :
    (world.create path).entry other = world.entry other :=
  Function.update_of_ne different _ _

@[simp]
theorem data_create_self :
    (world.create path).data world.next = .file [] :=
  Function.update_self _ _ _

theorem data_create_of_ne (different : inode ≠ world.next) :
    (world.create path).data inode = world.data inode :=
  Function.update_of_ne different _ _

theorem data_append_self {contents : Bytes}
    (holds : world.data inode = .file contents) (bytes : Bytes) :
    (world.append inode bytes).data inode = .file (contents ++ bytes) := by
  change Function.update _ _ _ inode = _
  rw [Function.update_self, holds]

theorem data_append_of_ne {another : Nat} (different : another ≠ inode)
    (bytes : Bytes) :
    (world.append inode bytes).data another = world.data another :=
  Function.update_of_ne different _ _

@[simp]
theorem entry_unlink_self : (world.unlink path).entry path = none :=
  Function.update_self _ _ _

theorem entry_unlink_of_ne (different : other ≠ path) :
    (world.unlink path).entry other = world.entry other :=
  Function.update_of_ne different _ _

@[simp]
theorem entry_move_self :
    (world.move path target).entry target = world.entry path :=
  Function.update_self _ _ _

theorem entry_move_of_ne (different : other ≠ target) :
    (world.move path target).entry other = (world.unlink path).entry other :=
  Function.update_of_ne different _ _

/-! Where the entries of the changed world come from. -/

theorem entry_create_cases
    (leads : (world.create path).entry other = some inode) :
    (other = path ∧ inode = world.next) ∨
      (inode < world.next ∧ world.entry other = some inode) := by
  by_cases own : other = path
  · rw [own, entry_create_self, Option.some.injEq] at leads
    exact Or.inl ⟨own, leads.symm⟩
  · rw [entry_create_of_ne own] at leads
    exact Or.inr ⟨world.bounded other inode leads, leads⟩

theorem entry_unlink_eq_some
    (leads : (world.unlink path).entry other = some inode) :
    other ≠ path ∧ world.entry other = some inode := by
  by_cases gone : other = path
  · rw [gone, entry_unlink_self] at leads
    cases leads
  · rw [entry_unlink_of_ne gone] at leads
    exact ⟨gone, leads⟩

theorem entry_move_cases
    (leads : (world.move path target).entry other = some inode) :
    (other = target ∧ world.entry path = some inode) ∨
      (other ≠ path ∧ world.entry other = some inode) := by
  by_cases moved : other = target
  · rw [moved, entry_move_self] at leads
    exact Or.inl ⟨moved, leads⟩
  · rw [entry_move_of_ne moved] at leads
    exact Or.inr (entry_unlink_eq_some leads)

/-! The same calls, as they are seen. -/

@[simp]
theorem view_setPhase (pid : Nat) (phase : Phase) :
    (world.setPhase pid phase).view = world.view := rfl

theorem view_eq_none_iff :
    world.view path = none ↔ world.entry path = none :=
  Option.map_eq_none_iff

/-- A new entry changes one path, since no entry leads to its file yet. -/
theorem view_create : (world.create path).view =
    Function.update world.view path (some (.file [])) := by
  ext1 other
  by_cases same : other = path
  · rw [same, Function.update_self, view, entry_create_self,
      Option.map_some, data_create_self]
  · rw [Function.update_of_ne same, view, entry_create_of_ne same]
    apply Option.map_congr
    intro inode leads
    exact data_create_of_ne (Nat.ne_of_lt (world.bounded _ _ leads))

/-- Bytes in a file with one entry change one path. -/
theorem view_append {contents : Bytes}
    (leads : world.entry path = some inode)
    (unshared : ∀ other, world.entry other = some inode → other = path)
    (holds : world.data inode = .file contents) (bytes : Bytes) :
    (world.append inode bytes).view =
      Function.update world.view path (some (.file (contents ++ bytes))) := by
  ext1 other
  change (world.entry other).map _ = _
  by_cases same : other = path
  · rw [same, Function.update_self, leads, Option.map_some,
      data_append_self holds]
  · rw [Function.update_of_ne same]
    apply Option.map_congr
    intro another otherLeads
    apply data_append_of_ne
    rintro rfl
    exact same (unshared other otherLeads)

theorem view_unlink : (world.unlink path).view =
    Function.update world.view path none := by
  ext1 other
  by_cases same : other = path
  · rw [same, Function.update_self, view_eq_none_iff, entry_unlink_self]
  · rw [Function.update_of_ne same, view, entry_unlink_of_ne same]
    rfl

theorem view_move : (world.move path target).view =
    Function.update (Function.update world.view path none) target
      (world.view path) := by
  ext1 other
  by_cases same : other = target
  · rw [same, Function.update_self, view, entry_move_self]
    rfl
  · rw [Function.update_of_ne same, ← view_unlink, view,
      entry_move_of_ne same]
    rfl

end Calls

end World

/-! ## Steps -/

/--
One call of one process, which succeeds or fails, or the end of a process.
`writers` says which processes there are and what they write.
-/
inductive Step (target : Path) (writers : Nat → Option Bytes) :
    World → World → Prop where
  | create {world : World} {pid : Nat} {contents : Bytes}
      (runs : writers pid = some contents)
      (waiting : world.phase pid = .waiting)
      (free : world.entry (tmpPath target pid) = none) :
      Step target writers world
        ((world.create (tmpPath target pid)).setPhase pid
          (.filling world.next 0))
  | createFails {world : World} {pid : Nat} {contents : Bytes}
      (runs : writers pid = some contents)
      (waiting : world.phase pid = .waiting) :
      Step target writers world (world.setPhase pid .cleaning)
  | append {world : World} {pid inode written : Nat} {contents : Bytes}
      (runs : writers pid = some contents)
      (filling : world.phase pid = .filling inode written) (count : Nat) :
      Step target writers world
        ((world.append inode ((contents.drop written).take count)).setPhase
          pid (.filling inode (written + count)))
  | appendFails {world : World} {pid inode written : Nat}
      (filling : world.phase pid = .filling inode written) :
      Step target writers world (world.setPhase pid .cleaning)
  -- everything is written; whether `sync_all` works does not matter
  | sync {world : World} {pid inode written : Nat} {contents : Bytes}
      (runs : writers pid = some contents)
      (filling : world.phase pid = .filling inode written)
      (whole : contents.length ≤ written) :
      Step target writers world (world.setPhase pid .moving)
  | remove {world : World} {pid : Nat} {contents : Bytes}
      (cleaning : world.phase pid = .cleaning)
      (found : world.view (tmpPath target pid) = some (.file contents)) :
      Step target writers world
        ((world.unlink (tmpPath target pid)).setPhase pid .finished)
  | removeFails {world : World} {pid : Nat}
      (cleaning : world.phase pid = .cleaning) :
      Step target writers world (world.setPhase pid .finished)
  | rename {world : World} {pid : Nat} {contents : Bytes}
      (moving : world.phase pid = .moving)
      (found : world.view (tmpPath target pid) = some (.file contents))
      (replaceable : world.view.Replaceable target) :
      Step target writers world
        ((world.move (tmpPath target pid) target).setPhase pid .finished)
  | renameFails {world : World} {pid : Nat}
      (moving : world.phase pid = .moving) :
      Step target writers world (world.setPhase pid .finished)
  | crash (world : World) (pid : Nat) :
      Step target writers world (world.setPhase pid .crashed)

/-! ## One process alone -/

/-- A step that leaves the phases of the other processes. -/
def StepOf (pid : Nat) (target : Path) (writers : Nat → Option Bytes)
    (world after : World) : Prop :=
  Step target writers world after ∧
    ∀ other, other ≠ pid → after.phase other = world.phase other

section Alone

variable {target : Path} {writers : Nat → Option Bytes} {start world : World}
  {pid : Nat}

/-- The calls of a process change no phase but its own. -/
theorem Step.of_pid {changed : World} {phase : Phase}
    (step : Step target writers world (changed.setPhase pid phase))
    (phases : changed.phase = world.phase) :
    StepOf pid target writers world (changed.setPhase pid phase) := by
  refine ⟨step, fun other different => ?_⟩
  rw [World.phase_setPhase_of_ne different, phases]

/-- The removal of the temporary file, whose outcome is dropped. -/
theorem finish_cleaning (cleaning : world.phase pid = .cleaning)
    (faults : Faults) :
    ∃ after, StepOf pid target writers world after ∧
      after.phase pid = .finished ∧
      after.view = (attempt faults.remove
        (world.view.removeFile (tmpPath target pid))).getD world.view := by
  cases outcome : attempt faults.remove
      (world.view.removeFile (tmpPath target pid)) with
  | none =>
      exact ⟨_, (Step.removeFails cleaning).of_pid rfl,
        World.phase_setPhase_self _ _ _, rfl⟩
  | some disk =>
      rcases Disk.eq_of_removeFile (eq_some_of_attempt outcome) with
        ⟨⟨contents, found⟩, rfl⟩
      exact ⟨_, (Step.remove cleaning found).of_pid rfl,
        World.phase_setPhase_self _ _ _, World.view_unlink⟩

/-- The rename, after which nothing is done. -/
theorem finish_moving (moving : world.phase pid = .moving)
    (faults : Faults) :
    ∃ after, StepOf pid target writers world after ∧
      after.phase pid = .finished ∧
      after.view = (attempt faults.rename
        (world.view.rename (tmpPath target pid) target)).getD
          world.view := by
  cases outcome : attempt faults.rename
      (world.view.rename (tmpPath target pid) target) with
  | none =>
      exact ⟨_, (Step.renameFails moving).of_pid rfl,
        World.phase_setPhase_self _ _ _, rfl⟩
  | some disk =>
      rcases Disk.eq_of_rename (eq_some_of_attempt outcome) with
        ⟨⟨contents, found⟩, replaceable, rfl⟩
      exact ⟨_, (Step.rename moving found replaceable).of_pid rfl,
        World.phase_setPhase_self _ _ _, World.view_move⟩

/-- A new temporary file, with a beginning of the contents. -/
theorem fill {contents : Bytes} (runs : writers pid = some contents)
    (waiting : start.phase pid = .waiting)
    (free : start.view (tmpPath target pid) = none) (count : Nat) :
    ∃ filled,
      Relation.ReflTransGen (StepOf pid target writers) start filled ∧
      filled.phase pid = .filling start.next count ∧
      filled.view = Function.update start.view (tmpPath target pid)
        (some (.file (contents.take count))) := by
  have create : StepOf pid target writers start _ :=
    (Step.create runs waiting (World.view_eq_none_iff.mp free)).of_pid rfl
  have append : StepOf pid target writers _ _ :=
    (Step.append runs (World.phase_setPhase_self
      (start.create (tmpPath target pid)) pid (.filling start.next 0))
        count).of_pid rfl
  have unshared (other : Path)
      (leads : (start.create (tmpPath target pid)).entry other =
        some start.next) :
      other = tmpPath target pid := by
    rcases World.entry_create_cases leads with ⟨own, -⟩ | ⟨old, -⟩
    · exact own
    · exact absurd old (Nat.lt_irrefl _)
  refine ⟨_, (Relation.ReflTransGen.single create).tail append, ?_, ?_⟩
  · rw [World.phase_setPhase_self, Nat.zero_add]
  · rw [World.view_setPhase]
    apply (World.view_append World.entry_create_self unshared
      World.data_create_self _).trans
    rw [World.view_create, Function.update_idem, List.nil_append,
      List.drop_zero]

/-- The function, as the steps that one process takes. -/
theorem writeViaTempRename_runs_alone {contents : Str}
    (runs : writers pid = some (asBytes contents))
    (waiting : start.phase pid = .waiting) (faults : Faults) :
    ∃ after,
      Relation.ReflTransGen (StepOf pid target writers) start after ∧
      after.phase pid = .finished ∧
      after.view = Stateful.finalState
        (writeViaTempRename pid faults target contents start.view) := by
  rw [writeViaTempRename, fillTmp]
  cases created : attempt faults.create
      (start.view.createNew (tmpPath target pid)) with
  | none =>
      have fails : StepOf pid target writers start _ :=
        (Step.createFails runs waiting).of_pid rfl
      rcases finish_cleaning (World.phase_setPhase_self start pid _)
        faults with ⟨after, removes, finished, seen⟩
      exact ⟨after, (Relation.ReflTransGen.single fails).tail removes,
        finished, seen⟩
  | some disk =>
      rcases Disk.eq_of_createNew (eq_some_of_attempt created) with
        ⟨free, rfl⟩
      simp only [Function.update_idem]
      cases faults.write with
      | some count =>
          rcases fill runs waiting free count with
            ⟨filled, fills, filling, filledView⟩
          have fails : StepOf pid target writers filled _ :=
            (Step.appendFails filling).of_pid rfl
          rcases finish_cleaning (World.phase_setPhase_self filled pid _)
            faults with ⟨after, removes, finished, seen⟩
          rw [World.view_setPhase, filledView] at seen
          exact ⟨after, (fills.tail fails).tail removes, finished, seen⟩
      | none =>
          rcases fill runs waiting free (asBytes contents).length with
            ⟨filled, fills, filling, filledView⟩
          rw [List.take_length] at filledView
          have syncs : StepOf pid target writers filled _ :=
            (Step.sync runs filling (Nat.le_refl _)).of_pid rfl
          rcases finish_moving (World.phase_setPhase_self filled pid _)
            faults with ⟨after, renames, finished, seen⟩
          rw [World.view_setPhase, filledView] at seen
          refine ⟨after, (fills.tail syncs).tail renames, finished, ?_⟩
          rw [seen]
          dsimp only
          generalize attempt faults.rename _ = outcome
          cases outcome with
          | none => rfl
          | some disk => rfl

/--
The steps include the function: a process that takes them alone leaves what
`write_via_temp_rename` leaves, whatever fails.
-/
theorem writeViaTempRename_runs {contents : Str}
    (runs : writers pid = some (asBytes contents))
    (waiting : start.phase pid = .waiting) (faults : Faults) :
    ∃ after, Relation.ReflTransGen (Step target writers) start after ∧
      after.phase pid = .finished ∧
      after.view = Stateful.finalState
        (writeViaTempRename pid faults target contents start.view) := by
  rcases @writeViaTempRename_runs_alone target writers start pid contents
    runs waiting faults with ⟨after, ran, ended⟩
  exact ⟨after, ran.lift id fun _ _ step => step.1, ended⟩

end Alone

/-! ## What holds between the steps -/

section Invariant

variable {target : Path} {writers : Nat → Option Bytes} {start world : World}

/-- An entry leads to a file made since the start, with these contents. -/
def LeadsTo (start world : World) (path : Path) (inode : Nat)
    (contents : Bytes) : Prop :=
  world.entry path = some inode ∧ start.next ≤ inode ∧
    world.data inode = .file contents

/-- What the temporary entry of a process leads to in a phase. -/
def Fits (target : Path) (writers : Nat → Option Bytes)
    (start world : World) (pid : Nat) : Phase → Prop
  | .filling inode written => ∃ contents, writers pid = some contents ∧
      LeadsTo start world (tmpPath target pid) inode (contents.take written)
  | .moving => ∃ contents inode, writers pid = some contents ∧
      LeadsTo start world (tmpPath target pid) inode contents
  | _ => True

/-- The target is the initial one, or the complete contents of a writer. -/
def TargetWhole (target : Path) (writers : Nat → Option Bytes)
    (start world : World) : Prop :=
  world.entry target = start.entry target ∨
    ∃ pid contents inode, writers pid = some contents ∧
      LeadsTo start world target inode contents

/-- The invariant of the system. -/
structure Invariant (target : Path) (writers : Nat → Option Bytes)
    (start world : World) : Prop where
  grows : start.next ≤ world.next
  unshared : ∀ left right inode, start.next ≤ inode →
    world.entry left = some inode → world.entry right = some inode →
      left = right
  kept : ∀ inode, inode < start.next → world.data inode = start.data inode
  fits : ∀ pid, Fits target writers start world pid (world.phase pid)
  whole : TargetWhole target writers start world

/-! ## What a step leaves alone -/

variable {after : World} {path : Path} {pid : Nat} {phase : Phase}

/-- A path leads to the same file, which holds what it held. -/
def SameAt (start world after : World) (path : Path) : Prop :=
  after.entry path = world.entry path ∧
    ∀ inode, world.entry path = some inode → start.next ≤ inode →
      after.data inode = world.data inode

theorem LeadsTo.of_sameAt {inode : Nat} {contents : Bytes}
    (leads : LeadsTo start world path inode contents)
    (same : SameAt start world after path) :
    LeadsTo start after path inode contents :=
  ⟨same.1.trans leads.1, leads.2.1,
    (same.2 inode leads.1 leads.2.1).trans leads.2.2⟩

theorem Fits.of_sameAt (fits : Fits target writers start world pid phase)
    (same : SameAt start world after (tmpPath target pid)) :
    Fits target writers start after pid phase := by
  cases phase with
  | filling inode written =>
      rcases fits with ⟨contents, runs, leads⟩
      exact ⟨contents, runs, leads.of_sameAt same⟩
  | moving =>
      rcases fits with ⟨contents, inode, runs, leads⟩
      exact ⟨contents, inode, runs, leads.of_sameAt same⟩
  | _ => trivial

theorem TargetWhole.of_sameAt
    (whole : TargetWhole target writers start world)
    (same : SameAt start world after target) :
    TargetWhole target writers start after := by
  rcases whole with initial | ⟨pid, contents, inode, runs, leads⟩
  · exact Or.inl (same.1.trans initial)
  · exact Or.inr ⟨pid, contents, inode, runs, leads.of_sameAt same⟩

theorem tmpPath_ne_tmpPath {other : Nat} (different : other ≠ pid) :
    tmpPath target other ≠ tmpPath target pid :=
  fun equal => different (tmpPath_injective equal)

theorem sameAt_create {tmp : Path} (elsewhere : path ≠ tmp) :
    SameAt start world (world.create tmp) path := by
  constructor
  · exact World.entry_create_of_ne elsewhere
  · intro inode leads _
    have old := world.bounded path inode leads
    exact World.data_create_of_ne (Nat.ne_of_lt old)

theorem Invariant.sameAt_append
    (invariant : Invariant target writers start world) {tmp : Path}
    {inode : Nat} {contents : Bytes}
    (leads : LeadsTo start world tmp inode contents)
    (elsewhere : path ≠ tmp) (bytes : Bytes) :
    SameAt start world (world.append inode bytes) path := by
  constructor
  · rfl
  · intro other otherLeads recent
    apply World.data_append_of_ne
    rintro rfl
    exact elsewhere
      (invariant.unshared path tmp other recent otherLeads leads.1)

theorem sameAt_unlink {tmp : Path} (elsewhere : path ≠ tmp) :
    SameAt start world (world.unlink tmp) path :=
  ⟨World.entry_unlink_of_ne elsewhere, fun _ _ _ => rfl⟩

theorem sameAt_move {tmp : Path} (elsewhere : path ≠ tmp)
    (notTarget : path ≠ target) :
    SameAt start world (world.move tmp target) path := by
  constructor
  · rw [World.entry_move_of_ne notTarget, World.entry_unlink_of_ne elsewhere]
  · intro _ _ _
    rfl

/-! ## One step -/

/-- A process changes its phase, and its files as the phase asks. -/
theorem Invariant.of_files (invariant : Invariant target writers start world)
    (phases : after.phase = world.phase)
    (grows : start.next ≤ after.next)
    (unshared : ∀ left right inode, start.next ≤ inode →
      after.entry left = some inode → after.entry right = some inode →
        left = right)
    (kept : ∀ inode, inode < start.next →
      after.data inode = start.data inode)
    (others : ∀ other, other ≠ pid →
      SameAt start world after (tmpPath target other))
    (own : Fits target writers start after pid phase)
    (whole : TargetWhole target writers start after) :
    Invariant target writers start (after.setPhase pid phase) := by
  refine ⟨grows, unshared, kept, ?_, whole⟩
  intro other
  by_cases same : other = pid
  · rw [same, World.phase_setPhase_self]
    exact own
  · rw [World.phase_setPhase_of_ne same, phases]
    exact (invariant.fits other).of_sameAt (others other same)

/-- A change of the phase alone. -/
theorem Invariant.setPhase (invariant : Invariant target writers start world)
    (own : Fits target writers start world pid phase) :
    Invariant target writers start (world.setPhase pid phase) :=
  invariant.of_files rfl invariant.grows invariant.unshared invariant.kept
    (fun _ _ => ⟨rfl, fun _ _ _ => rfl⟩) own invariant.whole

theorem Invariant.create (invariant : Invariant target writers start world)
    {contents : Bytes} (runs : writers pid = some contents) :
    Invariant target writers start
      ((world.create (tmpPath target pid)).setPhase pid
        (.filling world.next 0)) := by
  refine invariant.of_files rfl (Nat.le_succ_of_le invariant.grows) ?_ ?_ ?_
    ?_ ?_
  · intro left right inode recent leftLeads rightLeads
    rcases World.entry_create_cases leftLeads with
      ⟨leftOwn, rfl⟩ | ⟨leftOld, leftWas⟩
    · rcases World.entry_create_cases rightLeads with
        ⟨rightOwn, -⟩ | ⟨rightOld, -⟩
      · exact leftOwn.trans rightOwn.symm
      · exact absurd rightOld (Nat.lt_irrefl _)
    · rcases World.entry_create_cases rightLeads with
        ⟨-, rfl⟩ | ⟨-, rightWas⟩
      · exact absurd leftOld (Nat.lt_irrefl _)
      · exact invariant.unshared left right inode recent leftWas rightWas
  · intro inode old
    have known := Nat.lt_of_lt_of_le old invariant.grows
    exact (World.data_create_of_ne (Nat.ne_of_lt known)).trans
      (invariant.kept inode old)
  · intro other different
    exact sameAt_create (tmpPath_ne_tmpPath different)
  · exact ⟨contents, runs, World.entry_create_self, invariant.grows,
      World.data_create_self⟩
  · exact invariant.whole.of_sameAt
      (sameAt_create (tmpPath_ne target pid).symm)

/-- The file that a process fills begins like its contents. -/
theorem Invariant.leadsTo_of_filling
    (invariant : Invariant target writers start world) {inode written : Nat}
    {contents : Bytes} (runs : writers pid = some contents)
    (filling : world.phase pid = .filling inode written) :
    LeadsTo start world (tmpPath target pid) inode
      (contents.take written) := by
  have fits := invariant.fits pid
  rw [filling] at fits
  rcases fits with ⟨others, othersRun, leads⟩
  rw [runs, Option.some.injEq] at othersRun
  rw [othersRun]
  exact leads

theorem Invariant.append (invariant : Invariant target writers start world)
    {inode written : Nat} {contents : Bytes}
    (runs : writers pid = some contents)
    (filling : world.phase pid = .filling inode written) (count : Nat) :
    Invariant target writers start
      ((world.append inode ((contents.drop written).take count)).setPhase
        pid (.filling inode (written + count))) := by
  have leads := invariant.leadsTo_of_filling runs filling
  refine invariant.of_files rfl invariant.grows invariant.unshared ?_ ?_ ?_
    ?_
  · intro other old
    have different : other ≠ inode := by
      rintro rfl
      exact absurd old (Nat.not_lt.mpr leads.2.1)
    exact (World.data_append_of_ne different _).trans
      (invariant.kept other old)
  · intro other different
    exact invariant.sameAt_append leads (tmpPath_ne_tmpPath different) _
  · refine ⟨contents, runs, leads.1, leads.2.1, ?_⟩
    rw [List.take_add]
    exact World.data_append_self leads.2.2 _
  · exact invariant.whole.of_sameAt
      (invariant.sameAt_append leads (tmpPath_ne target pid).symm _)

theorem Invariant.unlink (invariant : Invariant target writers start world)
    (own : Fits target writers start (world.unlink (tmpPath target pid)) pid
      phase) :
    Invariant target writers start
      ((world.unlink (tmpPath target pid)).setPhase pid phase) := by
  refine invariant.of_files rfl invariant.grows ?_ invariant.kept ?_ own ?_
  · intro left right inode recent leftLeads rightLeads
    exact invariant.unshared left right inode recent
      (World.entry_unlink_eq_some leftLeads).2
      (World.entry_unlink_eq_some rightLeads).2
  · intro other different
    exact sameAt_unlink (tmpPath_ne_tmpPath different)
  · exact invariant.whole.of_sameAt
      (sameAt_unlink (tmpPath_ne target pid).symm)

/-- The moved entry leads to the whole contents of its process. -/
theorem Invariant.move (invariant : Invariant target writers start world)
    (moving : world.phase pid = .moving) :
    Invariant target writers start
      ((world.move (tmpPath target pid) target).setPhase pid .finished) := by
  have fits := invariant.fits pid
  rw [moving] at fits
  rcases fits with ⟨contents, inode, runs, leads⟩
  have atTarget :
      (world.move (tmpPath target pid) target).entry target = some inode :=
    World.entry_move_self.trans leads.1
  refine invariant.of_files rfl invariant.grows ?_ invariant.kept ?_ trivial
    (Or.inr ⟨pid, contents, inode, runs, atTarget, leads.2⟩)
  · intro left right other recent leftNow rightNow
    -- the file has no entry beside the one that was moved
    have noOther {path : Path} (notTmp : path ≠ tmpPath target pid)
        (pathLeads : world.entry path = some other)
        (tmpLeads : world.entry (tmpPath target pid) = some other) :
        False :=
      notTmp (invariant.unshared path _ other recent pathLeads tmpLeads)
    rcases World.entry_move_cases leftNow with
      ⟨leftTarget, leftTmp⟩ | ⟨leftNotTmp, leftWas⟩
    · rcases World.entry_move_cases rightNow with
        ⟨rightTarget, -⟩ | ⟨rightNotTmp, rightWas⟩
      · exact leftTarget.trans rightTarget.symm
      · exact (noOther rightNotTmp rightWas leftTmp).elim
    · rcases World.entry_move_cases rightNow with
        ⟨-, rightTmp⟩ | ⟨-, rightWas⟩
      · exact (noOther leftNotTmp leftWas rightTmp).elim
      · exact invariant.unshared left right other recent leftWas rightWas
  · intro other different
    exact sameAt_move (tmpPath_ne_tmpPath different) (tmpPath_ne target other)

/-- The invariant is kept by every step. -/
theorem Invariant.step (invariant : Invariant target writers start world)
    (step : Step target writers world after) :
    Invariant target writers start after := by
  cases step with
  | create runs _ _ => exact invariant.create runs
  | append runs filling count => exact invariant.append runs filling count
  | @sync pid inode written contents runs filling full =>
      have leads := invariant.leadsTo_of_filling runs filling
      rw [List.take_of_length_le full] at leads
      exact invariant.setPhase ⟨contents, inode, runs, leads⟩
  | remove _ _ => exact invariant.unlink trivial
  | rename moving _ _ => exact invariant.move moving
  | _ => exact invariant.setPhase trivial

/-- Before any process has started. -/
theorem Invariant.initial
    (waiting : ∀ pid, start.phase pid = .waiting) :
    Invariant target writers start start where
  grows := Nat.le_refl _
  unshared := by
    intro left _ inode recent leads _
    exact absurd (start.bounded left inode leads) (Nat.not_lt.mpr recent)
  kept := fun _ _ => rfl
  fits := by
    intro pid
    rw [waiting]
    trivial
  whole := Or.inl rfl

theorem Invariant.view_target
    (invariant : Invariant target writers start world) :
    world.view target = start.view target ∨
      ∃ pid contents, writers pid = some contents ∧
        world.view target = some (.file contents) := by
  rcases invariant.whole with
    initial | ⟨pid, contents, inode, runs, leads⟩
  · apply Or.inl
    rw [World.view, World.view, initial]
    cases leads : start.entry target with
    | none => rfl
    | some inode =>
        exact congrArg some (invariant.kept inode
          (start.bounded target inode leads))
  · apply Or.inr
    refine ⟨pid, contents, runs, ?_⟩
    rw [World.view, leads.1, Option.map_some, leads.2.2]

end Invariant

/-! ## Readers never see a partial file -/

/--
However the processes run, fail and end, the target is as it was or holds the
complete contents of one of them.
-/
theorem target_never_partial {target : Path}
    {writers : Nat → Option Bytes} {start world : World}
    (waiting : ∀ pid, start.phase pid = .waiting)
    (reached : Relation.ReflTransGen (Step target writers) start world) :
    world.view target = start.view target ∨
      ∃ pid contents, writers pid = some contents ∧
        world.view target = some (.file contents) := by
  have preserved (before after : World)
      (holds : Invariant target writers start before)
      (step : Step target writers before after) :
      Invariant target writers start after :=
    holds.step step
  have invariant := Stateful.invariant_of_reached preserved
    (Invariant.initial waiting) reached
  exact invariant.view_target

/-- A file that is written. -/
def narinfoPath : Path :=
  Path.currentDir.join [110]

/-- The file, and processes that have not started. -/
def quiet : World where
  entry := Function.update (fun _ => none) narinfoPath (some 0)
  data := fun _ => .file [111]
  next := 1
  bounded := by
    apply Bounded.update
    · intro path inode absent
      cases absent
    · intro inode first
      cases first
      decide
  phase := fun _ => .waiting

/-- Two processes that write the file. -/
def twoWriters : Nat → Option Bytes
  | 1 => some [97, 98]
  | 2 => some [99, 100]
  | _ => none

/-- One process crashes while it writes, another one completes. -/
theorem target_never_partial_sample :
    ∃ world,
      Relation.ReflTransGen (Step narinfoPath twoWriters) quiet world ∧
      world.view (tmpPath narinfoPath 1) = some (.file [97]) ∧
      world.view narinfoPath = some (.file [99, 100]) ∧
      (world.view narinfoPath = quiet.view narinfoPath ∨
        ∃ pid contents, twoWriters pid = some contents ∧
          world.view narinfoPath = some (.file contents)) := by
  have created := Relation.ReflTransGen.refl.tail
    (@Step.create narinfoPath twoWriters quiet 1 _ rfl rfl rfl)
  have both := created.tail (@Step.create _ _ _ 2 _ rfl rfl rfl)
  have partly := both.tail (@Step.append _ _ _ 1 _ _ _ rfl rfl 1)
  have filled := partly.tail (@Step.append _ _ _ 2 _ _ _ rfl rfl 2)
  have crashed := filled.tail (Step.crash _ 1)
  have synced := crashed.tail (@Step.sync _ _ _ 2 _ _ _ rfl rfl (by decide))
  have renamed := synced.tail (@Step.rename _ _ _ 2 _ rfl rfl (by decide))
  exact ⟨_, renamed, rfl, rfl, target_never_partial (fun _ => rfl) renamed⟩

end NixPqcCache.ConcurrentWrites
