import NixPqcCache.ConcurrentWrites
import NixPqcCache.Foundation.Joined

/-!
# Many writes at the same time

A job is one call of `write_via_temp_rename`.  Any number of processes take
jobs, one after another, and carry them out at the same time; any call can
fail and any process can end at any point.  A process decides on a job by what
the disk shows at that moment.  The disk may show something else when the job
is carried out, so nothing is assumed about the order of reads and writes.

A rule for such systems follows: if every job that is decided on, on a disk
that only good jobs have changed, is good, then a path that is not a temporary
one is at every moment as it was or what some good job has left, complete.
-/

namespace NixPqcCache.ConcurrentJobs

open NixPqcCache.ConcurrentWrites
open NixPqcCache.Data
open NixPqcCache.Foundation
open NixPqcCache.Paths
open NixPqcCache.Writes

/-! ## Jobs -/

/-- A name that some write has for its temporary file. -/
def IsTmp (path : Path) : Prop :=
  ∃ target pid, path = tmpPath target pid

theorem isTmp_tmpPath (target : Path) (pid : Nat) :
    IsTmp (tmpPath target pid) :=
  ⟨target, pid, rfl⟩

/-- The number of the process is behind the last dash of a temporary name. -/
theorem pid_of_tmpPath {left right : Path} {pid other : Nat}
    (equal : tmpPath left pid = tmpPath right other) : pid = other := by
  have texts : tmpText left pid = tmpText right other :=
    asBytes_injective (Path.join_eq_join_iff.mp equal).2
  have dashes (value : Nat) : '-' ∉ (Nat.toDigits 10 value).reverse := by
    rw [List.mem_reverse]
    exact @Decimal.not_mem_toDigits '-' (by decide) value
  have backwards := congrArg List.reverse texts
  simp only [tmpText, List.reverse_append, String.reduceToList,
    List.reverse_cons, List.nil_append, List.cons_append,
    List.append_assoc] at backwards
  have numbers := (Joined.append_cons_injective (dashes pid) (dashes other)
    backwards).1
  exact Decimal.toDigits_injective (List.reverse_injective numbers)

/-- Permission bits. -/
abbrev Mode := BitVec 12

/-- One call of `write_via_temp_rename`, whose target is no temporary file. -/
structure Job where
  target : Path
  contents : Bytes
  secret : Bool
  notTmp : ¬ IsTmp target

/-- The bits of the file that the call makes. -/
def Job.mode (job : Job) (umask : Mode) : Mode :=
  (if job.secret then 0o600 else 0o644) &&& ~~~umask

/-! ## Systems -/

/-- The files, their permission bits, and the jobs of the processes. -/
structure System where
  world : World
  mode : Nat → Mode
  job : Nat → Option Job

namespace System

/-- What a path leads to, and its permission bits. -/
def look (system : System) (path : Path) : Option (Node × Mode) :=
  (system.world.entry path).map fun inode =>
    (system.world.data inode, system.mode inode)

theorem view_eq_map_look (system : System) (path : Path) :
    system.world.view path = (system.look path).map Prod.fst := by
  rw [look, Option.map_map]
  rfl

/-- A process has decided on a job. -/
def take (system : System) (pid : Nat) (job : Job) : System :=
  { system with
    world := system.world.setPhase pid .waiting
    job := Function.update system.job pid (some job) }

/-- A call for a job has changed the files; one that it made has its bits. -/
def called (system : System) (umask : Mode) (job : Job) (world : World) :
    System :=
  { system with
    world := world
    mode := Function.update system.mode system.world.next (job.mode umask) }

/-- A process is done with its job. -/
def leave (system : System) (pid : Nat) : System :=
  { system with job := Function.update system.job pid none }

section

variable {system : System} {pid other : Nat} {job : Job}

@[simp]
theorem job_take_self : (system.take pid job).job pid = some job :=
  Function.update_self _ _ _

theorem job_take_of_ne (different : other ≠ pid) :
    (system.take pid job).job other = system.job other :=
  Function.update_of_ne different _ _

@[simp]
theorem job_leave_self : (system.leave pid).job pid = none :=
  Function.update_self _ _ _

theorem job_leave_of_ne (different : other ≠ pid) :
    (system.leave pid).job other = system.job other :=
  Function.update_of_ne different _ _

end

end System

/-- The writers of a system with one process. -/
def alone (pid : Nat) (contents : Bytes) : Nat → Option Bytes :=
  Function.update (fun _ => none) pid (some contents)

theorem alone_self (pid : Nat) (contents : Bytes) :
    alone pid contents pid = some contents :=
  Function.update_self _ _ _

theorem alone_eq_some {pid other : Nat} {contents bytes : Bytes}
    (runs : alone pid contents other = some bytes) :
    other = pid ∧ bytes = contents := by
  by_cases same : other = pid
  · rw [same, alone_self, Option.some.injEq] at runs
    exact ⟨same, runs.symm⟩
  · rw [alone, Function.update_of_ne same] at runs
    cases runs

/--
One step of one process.  `asks` says which jobs a process may decide on when
it sees a disk.
-/
inductive Step (umask : Mode) (asks : Nat → Disk → Job → Prop) :
    System → System → Prop where
  | take {system : System} {pid : Nat} {job : Job}
      (idle : system.job pid = none)
      (asked : asks pid system.world.view job) :
      Step umask asks system (system.take pid job)
  | call {system : System} {pid : Nat} {job : Job} {world : World}
      (runs : system.job pid = some job)
      (step : StepOf pid job.target (alone pid job.contents) system.world
        world) :
      Step umask asks system (system.called umask job world)
  -- a process that has ended gives its number back
  | leave {system : System} {pid : Nat}
      (ended : system.world.phase pid = .finished ∨
        system.world.phase pid = .crashed) :
      Step umask asks system (system.leave pid)

/-! ## What one call can do -/

/-- A process in this phase relies on no file. -/
def Detached (phase : Phase) : Prop :=
  phase = .cleaning ∨ phase = .finished ∨ phase = .crashed

section Calls

variable {pid : Nat} {target path : Path} {contents : Bytes}
  {world after : World}

/-- A step whose phase changes is a step of that process. -/
theorem eq_pid_of_stepOf {writers : Nat → Option Bytes} {other : Nat}
    (step : StepOf pid target writers world after)
    (changed : after.phase other ≠ world.phase other) : other = pid := by
  by_contra different
  exact changed (step.2 other different)

/-- The calls of a process that writes some contents. -/
inductive Call (pid : Nat) (target : Path) (contents : Bytes)
    (world : World) : World → Prop where
  | create (free : world.entry (tmpPath target pid) = none) :
      Call pid target contents world
        ((world.create (tmpPath target pid)).setPhase pid
          (.filling world.next 0))
  | append {inode written : Nat}
      (filling : world.phase pid = .filling inode written) (count : Nat) :
      Call pid target contents world
        ((world.append inode ((contents.drop written).take count)).setPhase
          pid (.filling inode (written + count)))
  | sync {inode written : Nat}
      (filling : world.phase pid = .filling inode written)
      (whole : contents.length ≤ written) :
      Call pid target contents world (world.setPhase pid .moving)
  | unlink :
      Call pid target contents world
        ((world.unlink (tmpPath target pid)).setPhase pid .finished)
  | move (moving : world.phase pid = .moving) :
      Call pid target contents world
        ((world.move (tmpPath target pid) target).setPhase pid .finished)
  | detach {phase : Phase} (detached : Detached phase) :
      Call pid target contents world (world.setPhase pid phase)
  | nothing : Call pid target contents world world

/-- A step of a process alone is one of its calls. -/
theorem call_of_stepOf
    (step : StepOf pid target (alone pid contents) world after) :
    Call pid target contents world after := by
  cases step.1 with
  | create runs _ free =>
      rcases alone_eq_some runs with ⟨rfl, rfl⟩
      exact .create free
  | createFails runs _ =>
      rcases alone_eq_some runs with ⟨rfl, -⟩
      exact .detach (Or.inl rfl)
  | append runs filling count =>
      rcases alone_eq_some runs with ⟨rfl, rfl⟩
      exact .append filling count
  | @appendFails other _ _ filling =>
      have same : other = pid := eq_pid_of_stepOf step (by simp [filling])
      rcases same with rfl
      exact .detach (Or.inl rfl)
  | sync runs filling whole =>
      rcases alone_eq_some runs with ⟨rfl, rfl⟩
      exact .sync filling whole
  | @remove other _ cleaning _ =>
      have same : other = pid := eq_pid_of_stepOf step (by simp [cleaning])
      rcases same with rfl
      exact .unlink
  | @removeFails other cleaning =>
      have same : other = pid := eq_pid_of_stepOf step (by simp [cleaning])
      rcases same with rfl
      exact .detach (Or.inr (Or.inl rfl))
  | @rename other _ moving _ _ =>
      have same : other = pid := eq_pid_of_stepOf step (by simp [moving])
      rcases same with rfl
      exact .move moving
  | @renameFails other moving =>
      have same : other = pid := eq_pid_of_stepOf step (by simp [moving])
      rcases same with rfl
      exact .detach (Or.inr (Or.inl rfl))
  | crash other =>
      by_cases same : other = pid
      · rw [same]
        exact .detach (Or.inr (Or.inr rfl))
      · -- the other process had crashed before
        have crashed := step.2 other same
        rw [World.phase_setPhase_self] at crashed
        have unchanged : world.setPhase other .crashed = world := by
          rw [World.setPhase, crashed, Function.update_eq_self]
        rw [unchanged]
        exact .nothing

/-- A path leads to the same file, which holds what it held. -/
def Untouched (world after : World) (path : Path) : Prop :=
  after.entry path = world.entry path ∧
    ∀ inode, world.entry path = some inode →
      after.data inode = world.data inode

theorem Untouched.setPhase (untouched : Untouched world after path)
    (phase : Phase) :
    Untouched world (after.setPhase pid phase) path :=
  untouched

theorem untouched_create {tmp : Path} (elsewhere : path ≠ tmp) :
    Untouched world (world.create tmp) path := by
  constructor
  · exact World.entry_create_of_ne elsewhere
  · intro inode leads
    exact World.data_create_of_ne
      (Nat.ne_of_lt (world.bounded path inode leads))

theorem untouched_append {inode : Nat}
    (unshared : world.entry path ≠ some inode) (bytes : Bytes) :
    Untouched world (world.append inode bytes) path := by
  constructor
  · rfl
  · intro other leads
    apply World.data_append_of_ne
    rintro rfl
    exact unshared leads

theorem untouched_unlink {tmp : Path} (elsewhere : path ≠ tmp) :
    Untouched world (world.unlink tmp) path :=
  ⟨World.entry_unlink_of_ne elsewhere, fun _ _ => rfl⟩

theorem untouched_move {tmp : Path} (elsewhere : path ≠ tmp)
    (notTarget : path ≠ target) :
    Untouched world (world.move tmp target) path := by
  constructor
  · rw [World.entry_move_of_ne notTarget, World.entry_unlink_of_ne elsewhere]
  · intro _ _
    rfl

end Calls

/-! ## The invariant -/

section Invariant

variable {umask : Mode} {Good : Job → Prop} {start system : System}
  {job : Job} {path : Path} {pid : Nat} {world : World}

/-- An entry leads to a file that a job has made, with these contents. -/
def MadeAt (umask : Mode) (start system : System) (job : Job) (path : Path)
    (inode : Nat) (contents : Bytes) : Prop :=
  LeadsTo start.world system.world path inode contents ∧
    system.mode inode = job.mode umask

/-- What the temporary entry of a process leads to in a phase of its job. -/
def Holds (umask : Mode) (start system : System) (pid : Nat) (job : Job) :
    Phase → Prop
  | .filling inode written =>
      MadeAt umask start system job (tmpPath job.target pid) inode
        (job.contents.take written)
  | .moving => ∃ inode,
      MadeAt umask start system job (tmpPath job.target pid) inode
        job.contents
  | _ => True

/-- A file that was made since the start has one entry. -/
def Unshared (start : System) (world : World) : Prop :=
  ∀ left right inode, start.world.next ≤ inode →
    world.entry left = some inode → world.entry right = some inode →
      left = right

/-- What was made since the start begins like the contents of a good job. -/
def AllMade (umask : Mode) (Good : Job → Prop) (start system : System) :
    Prop :=
  ∀ inode, start.world.next ≤ inode → inode < system.world.next →
    ∃ job count, Good job ∧
      system.world.data inode = .file (job.contents.take count) ∧
        system.mode inode = job.mode umask

/-- The invariant of the system. -/
structure Invariant (umask : Mode) (Good : Job → Prop)
    (start system : System) : Prop where
  grows : start.world.next ≤ system.world.next
  unshared : Unshared start system.world
  good : ∀ pid job, system.job pid = some job → Good job
  holds : ∀ pid job, system.job pid = some job →
    Holds umask start system pid job (system.world.phase pid)
  made : AllMade umask Good start system

/-! ## What a call leaves alone -/

theorem mode_called_of_lt {inode : Nat} (old : inode < system.world.next) :
    (system.called umask job world).mode inode = system.mode inode :=
  Function.update_of_ne (Nat.ne_of_lt old) _ _

theorem mode_called_self :
    (system.called umask job world).mode system.world.next =
      job.mode umask :=
  Function.update_self _ _ _

/-- An untouched path looks as before. -/
theorem Untouched.look (untouched : Untouched system.world world path) :
    (system.called umask job world).look path = system.look path := by
  change (world.entry path).map _ = _
  rw [untouched.1]
  apply Option.map_congr
  intro inode leads
  rw [mode_called_of_lt (system.world.bounded path inode leads)]
  exact Prod.ext (untouched.2 inode leads) rfl

theorem MadeAt.of_untouched {other : Job} {inode : Nat} {contents : Bytes}
    (made : MadeAt umask start system other path inode contents)
    (untouched : Untouched system.world world path) :
    MadeAt umask start (system.called umask job world) other path inode
      contents := by
  rcases made with ⟨⟨leads, recent, holds⟩, bits⟩
  refine ⟨⟨untouched.1.trans leads, recent,
    (untouched.2 inode leads).trans holds⟩, ?_⟩
  rw [mode_called_of_lt (system.world.bounded path inode leads), bits]

theorem Holds.of_untouched {other : Job} {phase : Phase}
    (holds : Holds umask start system pid other phase)
    (untouched : Untouched system.world world (tmpPath other.target pid)) :
    Holds umask start (system.called umask job world) pid other phase := by
  cases phase with
  | filling inode written => exact MadeAt.of_untouched holds untouched
  | moving =>
      rcases holds with ⟨inode, made⟩
      exact ⟨inode, made.of_untouched untouched⟩
  | _ => trivial

theorem Holds.of_detached {phase : Phase} (detached : Detached phase) :
    Holds umask start system pid job phase := by
  rcases detached with rfl | rfl | rfl <;> trivial

/-- The file that a process fills, while it fills it. -/
theorem Invariant.madeAt_of_filling
    (invariant : Invariant umask Good start system)
    (runs : system.job pid = some job) {inode written : Nat}
    (filling : system.world.phase pid = .filling inode written) :
    MadeAt umask start system job (tmpPath job.target pid) inode
      (job.contents.take written) := by
  have holds := invariant.holds pid job runs
  rw [filling] at holds
  exact holds

/-- The complete file of a process, before it is moved. -/
theorem Invariant.madeAt_of_moving
    (invariant : Invariant umask Good start system)
    (runs : system.job pid = some job)
    (moving : system.world.phase pid = .moving) :
    ∃ inode, MadeAt umask start system job (tmpPath job.target pid) inode
      job.contents := by
  have holds := invariant.holds pid job runs
  rw [moving] at holds
  exact holds

/-- Only a rename touches a path that is not the temporary one. -/
theorem Invariant.frame (invariant : Invariant umask Good start system)
    (runs : system.job pid = some job)
    (call : Call pid job.target job.contents system.world world)
    (elsewhere : path ≠ tmpPath job.target pid) :
    Untouched system.world world path ∨
      path = job.target ∧ (system.called umask job world).look path =
        some (.file job.contents, job.mode umask) := by
  cases call with
  | create free => exact Or.inl (untouched_create elsewhere)
  | append filling count =>
      rcases invariant.madeAt_of_filling runs filling with
        ⟨⟨leads, recent, -⟩, -⟩
      have unshared : system.world.entry path ≠ some _ :=
        fun pathLeads => elsewhere
          (invariant.unshared _ _ _ recent pathLeads leads)
      exact Or.inl (untouched_append unshared _)
  | unlink => exact Or.inl (untouched_unlink elsewhere)
  | move moving =>
      rcases invariant.madeAt_of_moving runs moving with
        ⟨inode, ⟨leads, -, contents⟩, bits⟩
      by_cases same : path = job.target
      · refine Or.inr ⟨same, ?_⟩
        have atTarget : (system.world.move (tmpPath job.target pid)
            job.target).entry job.target = some inode :=
          World.entry_move_self.trans leads
        have sameBits : (system.called umask job (system.world.move
            (tmpPath job.target pid) job.target)).mode inode =
              job.mode umask :=
          (mode_called_of_lt (system.world.bounded _ _ leads)).trans bits
        change Option.map _ ((system.world.move _ _).entry path) = _
        rw [same, atTarget, Option.map_some]
        exact congrArg some (Prod.ext contents sameBits)
      · exact Or.inl (untouched_move elsewhere same)
  | sync filling whole => exact Or.inl ⟨rfl, fun _ _ => rfl⟩
  | detach detached => exact Or.inl ⟨rfl, fun _ _ => rfl⟩
  | nothing => exact Or.inl ⟨rfl, fun _ _ => rfl⟩

/-! ## One call keeps the invariant -/

/-- A call changes the phase of its process, and the files as it needs. -/
theorem Invariant.of_files (invariant : Invariant umask Good start system)
    (runs : system.job pid = some job) {phase : Phase}
    (call : Call pid job.target job.contents system.world
      (world.setPhase pid phase))
    (phases : world.phase = system.world.phase)
    (grows : system.world.next ≤ world.next)
    (unshared : Unshared start world)
    (made : AllMade umask Good start (system.called umask job world))
    (own : Holds umask start (system.called umask job world) pid job phase) :
    Invariant umask Good start
      (system.called umask job (world.setPhase pid phase)) := by
  refine ⟨invariant.grows.trans grows, unshared, invariant.good, ?_, made⟩
  intro other otherJob otherRuns
  change Holds _ _ _ _ _ ((world.setPhase pid phase).phase other)
  by_cases same : other = pid
  · rcases same with rfl
    have sameJob : otherJob = job :=
      Option.some.inj (otherRuns.symm.trans runs)
    rw [World.phase_setPhase_self, sameJob]
    exact own
  · have elsewhere :
        tmpPath otherJob.target other ≠ tmpPath job.target pid :=
      fun equal => same (pid_of_tmpPath equal)
    rw [World.phase_setPhase_of_ne same, phases]
    rcases invariant.frame runs call elsewhere with untouched | ⟨target, -⟩
    · exact (invariant.holds other otherJob otherRuns).of_untouched untouched
    · exact (job.notTmp (target ▸ isTmp_tmpPath _ _)).elim

/-- Where no file changes, what was made is as it was. -/
theorem Invariant.made_called
    (invariant : Invariant umask Good start system)
    (data : world.data = system.world.data)
    (next : world.next = system.world.next) :
    AllMade umask Good start (system.called umask job world) := by
  intro inode recent known
  change inode < world.next at known
  rw [next] at known
  rcases invariant.made inode recent known with
    ⟨maker, count, good, contents, bits⟩
  refine ⟨maker, count, good, ?_, ?_⟩
  · change world.data inode = _
    rw [data, contents]
  · rw [mode_called_of_lt known, bits]

/-- A call that changes the phase alone. -/
theorem Invariant.called_setPhase
    (invariant : Invariant umask Good start system)
    (runs : system.job pid = some job) {phase : Phase}
    (call : Call pid job.target job.contents system.world
      (system.world.setPhase pid phase))
    (own : Holds umask start (system.called umask job system.world) pid job
      phase) :
    Invariant umask Good start
      (system.called umask job (system.world.setPhase pid phase)) :=
  invariant.of_files runs call rfl (Nat.le_refl _) invariant.unshared
    (invariant.made_called rfl rfl) own

theorem Invariant.call_create
    (invariant : Invariant umask Good start system)
    (runs : system.job pid = some job)
    (free : system.world.entry (tmpPath job.target pid) = none) :
    Invariant umask Good start (system.called umask job
      ((system.world.create (tmpPath job.target pid)).setPhase pid
        (.filling system.world.next 0))) := by
  refine invariant.of_files runs (.create free) rfl (Nat.le_succ _) ?_ ?_ ?_
  · intro left right inode recent leftLeads rightLeads
    rcases World.entry_create_cases leftLeads with
      ⟨leftOwn, rfl⟩ | ⟨leftOld, leftWas⟩
    · rcases World.entry_create_cases rightLeads with
        ⟨rightOwn, -⟩ | ⟨rightOld, -⟩
      · exact leftOwn.trans rightOwn.symm
      · exact absurd rightOld (Nat.lt_irrefl _)
    · rcases World.entry_create_cases rightLeads with
        ⟨-, rfl⟩ | ⟨-, rightWas⟩
      · exact absurd leftOld (Nat.lt_irrefl _)
      · exact invariant.unshared left right inode recent leftWas rightWas
  · intro inode recent known
    rcases Nat.lt_succ_iff_lt_or_eq.mp known with old | rfl
    · rcases invariant.made inode recent old with
        ⟨maker, count, good, contents, bits⟩
      refine ⟨maker, count, good, ?_, ?_⟩
      · exact (World.data_create_of_ne (Nat.ne_of_lt old)).trans contents
      · rw [mode_called_of_lt old, bits]
    · exact ⟨job, 0, invariant.good pid job runs, World.data_create_self,
        mode_called_self⟩
  · exact ⟨⟨World.entry_create_self, invariant.grows,
      World.data_create_self⟩, mode_called_self⟩

theorem Invariant.call_append
    (invariant : Invariant umask Good start system)
    (runs : system.job pid = some job) {inode written : Nat}
    (filling : system.world.phase pid = .filling inode written)
    (count : Nat) :
    Invariant umask Good start (system.called umask job
      ((system.world.append inode
        ((job.contents.drop written).take count)).setPhase pid
          (.filling inode (written + count)))) := by
  rcases invariant.madeAt_of_filling runs filling with
    ⟨⟨leads, recent, contents⟩, bits⟩
  have known := system.world.bounded _ _ leads
  have longer : (system.world.append inode
      ((job.contents.drop written).take count)).data inode =
        .file (job.contents.take (written + count)) := by
    rw [List.take_add]
    exact World.data_append_self contents _
  refine invariant.of_files runs (.append filling count) rfl (Nat.le_refl _)
    invariant.unshared ?_ ?_
  · intro other otherRecent otherKnown
    have otherOld : other < system.world.next := otherKnown
    by_cases same : other = inode
    · rcases same with rfl
      exact ⟨job, written + count, invariant.good pid job runs, longer,
        (mode_called_of_lt known).trans bits⟩
    · rcases invariant.made other otherRecent otherOld with
        ⟨maker, length, good, otherContents, otherBits⟩
      exact ⟨maker, length, good,
        (World.data_append_of_ne same _).trans otherContents,
        (mode_called_of_lt otherOld).trans otherBits⟩
  · exact ⟨⟨leads, recent, longer⟩, (mode_called_of_lt known).trans bits⟩

theorem Invariant.call_unlink
    (invariant : Invariant umask Good start system)
    (runs : system.job pid = some job) :
    Invariant umask Good start (system.called umask job
      ((system.world.unlink (tmpPath job.target pid)).setPhase pid
        .finished)) := by
  refine invariant.of_files runs .unlink rfl (Nat.le_refl _) ?_
    (invariant.made_called rfl rfl) trivial
  intro left right inode recent leftLeads rightLeads
  exact invariant.unshared left right inode recent
    (World.entry_unlink_eq_some leftLeads).2
    (World.entry_unlink_eq_some rightLeads).2

theorem Invariant.call_move
    (invariant : Invariant umask Good start system)
    (runs : system.job pid = some job)
    (moving : system.world.phase pid = .moving) :
    Invariant umask Good start (system.called umask job
      ((system.world.move (tmpPath job.target pid) job.target).setPhase pid
        .finished)) := by
  refine invariant.of_files runs (.move moving) rfl (Nat.le_refl _) ?_
    (invariant.made_called rfl rfl) trivial
  intro left right inode recent leftNow rightNow
  -- the file has no entry beside the one that was moved
  have noOther {path : Path} (notTmp : path ≠ tmpPath job.target pid)
      (pathLeads : system.world.entry path = some inode)
      (tmpLeads : system.world.entry (tmpPath job.target pid) =
        some inode) : False :=
    notTmp (invariant.unshared path _ inode recent pathLeads tmpLeads)
  rcases World.entry_move_cases leftNow with
    ⟨leftTarget, leftTmp⟩ | ⟨leftNotTmp, leftWas⟩
  · rcases World.entry_move_cases rightNow with
      ⟨rightTarget, -⟩ | ⟨rightNotTmp, rightWas⟩
    · exact leftTarget.trans rightTarget.symm
    · exact (noOther rightNotTmp rightWas leftTmp).elim
  · rcases World.entry_move_cases rightNow with
      ⟨-, rightTmp⟩ | ⟨-, rightWas⟩
    · exact (noOther leftNotTmp leftWas rightTmp).elim
    · exact invariant.unshared left right inode recent leftWas rightWas

/-- Every call keeps the invariant. -/
theorem Invariant.call (invariant : Invariant umask Good start system)
    (runs : system.job pid = some job)
    (call : Call pid job.target job.contents system.world world) :
    Invariant umask Good start (system.called umask job world) := by
  cases call with
  | create free => exact invariant.call_create runs free
  | append filling count => exact invariant.call_append runs filling count
  | sync filling whole =>
      have made := invariant.madeAt_of_filling runs filling
      rw [List.take_of_length_le whole] at made
      exact invariant.called_setPhase runs (.sync filling whole)
        ⟨_, made.of_untouched ⟨rfl, fun _ _ => rfl⟩⟩
  | unlink => exact invariant.call_unlink runs
  | move moving => exact invariant.call_move runs moving
  | detach detached =>
      exact invariant.called_setPhase runs (.detach detached)
        (.of_detached detached)
  | nothing =>
      have same : system.world.setPhase pid (system.world.phase pid) =
          system.world := by
        rw [World.setPhase, Function.update_eq_self]
      have kept := @Invariant.called_setPhase umask Good start system job pid
        invariant runs (system.world.phase pid) (same.symm ▸ .nothing)
        ((invariant.holds pid job runs).of_untouched ⟨rfl, fun _ _ => rfl⟩)
      rwa [same] at kept

end Invariant

/-! ## Runs -/

section Runs

variable {umask : Mode} {asks : Nat → Disk → Job → Prop}
  {Good : Job → Prop} {start system after : System} {path : Path}

/-- A step leaves a path as it is, or completes a job there. -/
theorem Invariant.look_step (invariant : Invariant umask Good start system)
    (step : Step umask asks system after) (notTmp : ¬ IsTmp path) :
    after.look path = system.look path ∨
      ∃ job, Good job ∧ job.target = path ∧
        after.look path = some (.file job.contents, job.mode umask) := by
  cases step with
  | take _ _ => exact Or.inl rfl
  | leave _ => exact Or.inl rfl
  | @call pid job world runs step =>
      have elsewhere : path ≠ tmpPath job.target pid := by
        rintro rfl
        exact notTmp (isTmp_tmpPath _ _)
      rcases invariant.frame runs (call_of_stepOf step) elsewhere with
        untouched | ⟨rfl, written⟩
      · exact Or.inl untouched.look
      · exact Or.inr ⟨job, invariant.good pid job runs, rfl, written⟩

/-- Every step keeps the invariant, if what is decided on is good. -/
theorem Invariant.step (invariant : Invariant umask Good start system)
    (sound : ∀ pid job, asks pid system.world.view job → Good job)
    (step : Step umask asks system after) :
    Invariant umask Good start after := by
  cases step with
  | @take pid job idle asked =>
      refine ⟨invariant.grows, invariant.unshared, ?_, ?_, invariant.made⟩
      · intro other otherJob otherRuns
        by_cases same : other = pid
        · rw [same, System.job_take_self, Option.some.injEq] at otherRuns
          exact otherRuns ▸ sound pid job asked
        · rw [System.job_take_of_ne same] at otherRuns
          exact invariant.good other otherJob otherRuns
      · intro other otherJob otherRuns
        change Holds _ _ _ _ _ ((system.world.setPhase pid _).phase other)
        by_cases same : other = pid
        · rw [same, World.phase_setPhase_self]
          trivial
        · rw [System.job_take_of_ne same] at otherRuns
          rw [World.phase_setPhase_of_ne same]
          exact invariant.holds other otherJob otherRuns
  | call runs step => exact invariant.call runs (call_of_stepOf step)
  | @leave pid ended =>
      have kept {other : Nat} {job : Job}
          (runs : (system.leave pid).job other = some job) :
          system.job other = some job := by
        by_cases same : other = pid
        · rw [same, System.job_leave_self] at runs
          cases runs
        · rwa [System.job_leave_of_ne same] at runs
      exact ⟨invariant.grows, invariant.unshared,
        fun other job runs => invariant.good other job (kept runs),
        fun other job runs => invariant.holds other job (kept runs),
        invariant.made⟩

/-- Before any process has a job. -/
theorem Invariant.initial (idle : ∀ pid, start.job pid = none) :
    Invariant umask Good start start where
  grows := Nat.le_refl _
  unshared := by
    intro left _ inode recent leads _
    exact absurd (start.world.bounded left inode leads)
      (Nat.not_lt.mpr recent)
  good := by
    intro pid job runs
    rw [idle] at runs
    cases runs
  holds := by
    intro pid job runs
    rw [idle] at runs
    cases runs
  made := by
    intro inode recent known
    exact absurd known (Nat.not_lt.mpr recent)

/-- A path is as it was, or what a good job has left. -/
def AsPlanned (umask : Mode) (Good : Job → Prop) (start system : System) :
    Prop :=
  ∀ path, ¬ IsTmp path → system.look path = start.look path ∨
    ∃ job, Good job ∧ job.target = path ∧
      system.look path = some (.file job.contents, job.mode umask)

/-- The same of a disk, on which no permission bits are seen. -/
def Planned (Good : Job → Prop) (start disk : Disk) : Prop :=
  ∀ path, ¬ IsTmp path → disk path = start path ∨
    ∃ job, Good job ∧ job.target = path ∧
      disk path = some (.file job.contents)

theorem AsPlanned.planned (planned : AsPlanned umask Good start system) :
    Planned Good start.world.view system.world.view := by
  intro path notTmp
  rw [System.view_eq_map_look, System.view_eq_map_look]
  rcases planned path notTmp with same | ⟨job, good, target, looks⟩
  · exact Or.inl (congrArg _ same)
  · exact Or.inr ⟨job, good, target, by rw [looks, Option.map_some]⟩

theorem Planned.trans {first second third : Disk}
    (planned : Planned Good first second)
    (later : Planned Good second third) : Planned Good first third := by
  intro path notTmp
  rcases later path notTmp with same | done
  · rw [same]
    exact planned path notTmp
  · exact Or.inr done

/-- On a disk that good jobs have changed only good jobs are decided on. -/
def Sound (asks : Nat → Disk → Job → Prop) (Good : Job → Prop)
    (start : Disk) : Prop :=
  ∀ pid disk job, Planned Good start disk → asks pid disk job → Good job

/--
The rule: with a sound choice of jobs the invariant holds in every state
reached, and every path is as it was or what a good job has left.
-/
theorem asPlanned_of_reached (idle : ∀ pid, start.job pid = none)
    (sound : Sound asks Good start.world.view)
    (reached : Relation.ReflTransGen (Step umask asks) start system) :
    Invariant umask Good start system ∧
      AsPlanned umask Good start system := by
  apply Stateful.invariant_of_reached _ _ reached
  · rintro before after ⟨invariant, planned⟩ step
    refine ⟨invariant.step (fun pid job asked =>
      sound pid _ job planned.planned asked) step, ?_⟩
    intro path notTmp
    rcases invariant.look_step step notTmp with same | written
    · rw [same]
      exact planned path notTmp
    · exact Or.inr written
  · exact ⟨.initial idle, fun _ _ => Or.inl rfl⟩

/-- What every good job brings about at a path stays there. -/
theorem settled_of_reached {Settled : Option (Node × Mode) → Prop}
    (idle : ∀ pid, start.job pid = none)
    (sound : Sound asks Good start.world.view)
    (agree : ∀ job, Good job → job.target = path →
      Settled (some (.file job.contents, job.mode umask)))
    (notTmp : ¬ IsTmp path)
    (earlier : Relation.ReflTransGen (Step umask asks) start system)
    (settled : Settled (system.look path))
    (later : Relation.ReflTransGen (Step umask asks) system after) :
    Settled (after.look path) := by
  induction later with
  | refl => exact settled
  | tail reached step induction =>
      rcases (asPlanned_of_reached idle sound (earlier.trans
        reached)).1.look_step step notTmp with same | ⟨job, good, target, now⟩
      · rw [same]
        exact induction
      · rw [now]
        exact agree job good target

/-- What stands under temporary names are files. -/
def TmpFiles (disk : Disk) : Prop :=
  ∀ path, IsTmp path → disk path ≠ none →
    ∃ contents, disk path = some (.file contents)

/-- A temporary name leads to a new file, or to what it led to. -/
def TmpKept (start system : System) : Prop :=
  ∀ path inode, IsTmp path → system.world.entry path = some inode →
    start.world.next ≤ inode ∨
      start.world.entry path = some inode ∧
        system.world.data inode = start.world.data inode

theorem TmpKept.step (kept : TmpKept start system)
    (invariant : Invariant umask Good start system)
    (step : Step umask asks system after) : TmpKept start after := by
  cases step with
  | take _ _ => exact kept
  | leave _ => exact kept
  | @call pid job world runs step =>
      intro path inode isTmp leads
      cases call_of_stepOf step with
      | create free =>
          rcases World.entry_create_cases leads with
            ⟨-, rfl⟩ | ⟨old, before⟩
          · exact Or.inl invariant.grows
          · rcases kept path inode isTmp before with recent | ⟨same, data⟩
            · exact Or.inl recent
            · have unchanged := @World.data_create_of_ne system.world
                (tmpPath job.target pid) inode (Nat.ne_of_lt old)
              exact Or.inr ⟨same, unchanged.trans data⟩
      | @append filled written filling count =>
          rcases invariant.madeAt_of_filling runs filling with
            ⟨⟨-, filledRecent, -⟩, -⟩
          rcases kept path inode isTmp leads with recent | ⟨same, data⟩
          · exact Or.inl recent
          · by_cases filledThere : inode = filled
            · exact Or.inl (filledThere ▸ filledRecent)
            · exact Or.inr ⟨same,
                (World.data_append_of_ne filledThere _).trans data⟩
      | unlink =>
          exact kept path inode isTmp (World.entry_unlink_eq_some leads).2
      | move moving =>
          rcases World.entry_move_cases leads with
            ⟨rfl, -⟩ | ⟨-, before⟩
          · exact (job.notTmp isTmp).elim
          · exact kept path inode isTmp before
      | sync _ _ => exact kept path inode isTmp leads
      | detach _ => exact kept path inode isTmp leads
      | nothing => exact kept path inode isTmp leads

theorem tmpKept_of_reached (idle : ∀ pid, start.job pid = none)
    (sound : Sound asks Good start.world.view)
    (reached : Relation.ReflTransGen (Step umask asks) start system) :
    TmpKept start system := by
  induction reached with
  | refl => exact fun path inode _ leads => Or.inr ⟨leads, rfl⟩
  | tail earlier last induction =>
      exact induction.step (asPlanned_of_reached idle sound earlier).1 last

/-- What stands under temporary names stay files. -/
theorem tmpFiles_of_reached (idle : ∀ pid, start.job pid = none)
    (sound : Sound asks Good start.world.view)
    (reached : Relation.ReflTransGen (Step umask asks) start system)
    (files : TmpFiles start.world.view) : TmpFiles system.world.view := by
  intro path isTmp present
  cases leads : system.world.entry path with
  | none => exact (present (World.view_eq_none_iff.mpr leads)).elim
  | some inode =>
      have now : system.world.view path =
          some (system.world.data inode) := by
        rw [World.view, leads, Option.map_some]
      rw [now]
      rcases tmpKept_of_reached idle sound reached path inode isTmp leads with
        recent | ⟨same, data⟩
      · rcases (asPlanned_of_reached idle sound reached).1.made inode recent
          (system.world.bounded path inode leads) with
          ⟨job, count, -, contents, -⟩
        exact ⟨_, congrArg some contents⟩
      · have before : start.world.view path =
            some (start.world.data inode) := by
          rw [World.view, same, Option.map_some]
        rcases files path isTmp (before ▸ Option.some_ne_none _) with
          ⟨contents, file⟩
        exact ⟨contents, by rw [data, ← before, file]⟩

end Runs

/-! ## The function is a run -/

section Function

variable {umask : Mode} {asks : Nat → Disk → Job → Prop} {system : System}
  {pid : Nat} {job : Job}

/-- The steps of a process alone are steps of the system. -/
theorem reached_of_calls {world : World} (runs : system.job pid = some job)
    (calls : Relation.ReflTransGen
      (StepOf pid job.target (alone pid job.contents)) system.world world) :
    ∃ after, Relation.ReflTransGen (Step umask asks) system after ∧
      after.world = world ∧ after.job = system.job := by
  induction calls with
  | refl => exact ⟨system, .refl, rfl, rfl⟩
  | tail _ step induction =>
      rcases induction with ⟨middle, reached, rfl, jobs⟩
      have call : Step umask asks middle _ := .call (jobs ▸ runs) step
      exact ⟨_, reached.tail call, rfl, jobs⟩

/--
An idle process that decides on a job and carries it out alone leaves what
`write_via_temp_rename` leaves, whatever fails, and is idle again.
-/
theorem writeViaTempRename_reached {contents : Str} {disk : Disk}
    (seen : system.world.view = disk) (idle : system.job pid = none)
    (asked : asks pid disk job) (text : job.contents = asBytes contents)
    (faults : Faults) :
    ∃ after, Relation.ReflTransGen (Step umask asks) system after ∧
      after.job = system.job ∧
      after.world.view = Stateful.finalState
        (writeViaTempRename pid faults job.target contents disk) := by
  have take : Step umask asks system (system.take pid job) :=
    .take idle (seen ▸ asked)
  have waiting : (system.take pid job).world.phase pid = .waiting :=
    World.phase_setPhase_self _ _ _
  have writes : alone pid job.contents pid = some (asBytes contents) := by
    rw [alone_self, text]
  rcases @writeViaTempRename_runs_alone job.target _ _ _ _ writes waiting
    faults with ⟨world, calls, finished, view⟩
  rcases @reached_of_calls umask asks _ _ _ _ System.job_take_self calls with
    ⟨after, reached, rfl, jobs⟩
  have leave : Step umask asks after (after.leave pid) :=
    .leave (Or.inl finished)
  refine ⟨_, (reached.head take).tail leave, ?_, ?_⟩
  · rw [System.leave]
    simp only [jobs, System.take, Function.update_idem]
    rw [← idle, Function.update_eq_self]
  · rw [← seen]
    exact view

end Function

end NixPqcCache.ConcurrentJobs
