import NixPqcCache.ConcurrentJobs
import Mathlib.Data.Set.Insert

/-!
# When the power is lost

`write_via_temp_rename` calls `sync_all` on its temporary file before it
renames it, and goes on if that fails.  What the call is for shows when the
whole machine stops.

What the disk holds then is not what the processes have seen last.  A path
leads to any of the files that it has led to since the machine was started,
since directories are never synced, and different paths need not agree on when
that was.  A file holds what `sync_all` has brought to the disk, and otherwise
any bytes.

The rule for systems of jobs holds for machines that lose their power any
number of times, as long as `sync_all` works.
-/

namespace NixPqcCache.PowerLoss

open NixPqcCache.ConcurrentJobs
open NixPqcCache.ConcurrentWrites
open NixPqcCache.Data
open NixPqcCache.Foundation
open NixPqcCache.Paths
open NixPqcCache.Writes

/-! ## Machines -/

/-- A system, and what of it is on the disk. -/
structure Machine where
  system : System
  /-- What a file holds, if that is on the disk. -/
  durable : Nat → Option Node
  /-- The entries that a path has had since the start of the machine. -/
  past : Path → Set (Option Nat)

namespace Machine

/-- A machine that has just been started. -/
def boot (system : System) : Machine where
  system := system
  durable := fun inode =>
    if inode < system.world.next then some (system.world.data inode) else none
  past := fun path => {system.world.entry path}

/-- `sync_all` brings a file to the disk. -/
def flush (machine : Machine) (inode : Nat) : Machine :=
  { machine with
    durable := Function.update machine.durable inode
      (some (machine.system.world.data inode)) }

/-- A step of the system.  A file that it changes is not on the disk. -/
def stepped (machine : Machine) (after : System) : Machine where
  system := after
  durable := fun inode =>
    if after.world.data inode = machine.system.world.data inode then
      machine.durable inode
    else
      none
  past := fun path => insert (after.world.entry path) (machine.past path)

/-- What a power loss can leave where this entry is on the disk. -/
inductive Left (machine : Machine) : Option Nat → Option Node → Prop where
  | nothing : Left machine none none
  | whole {inode : Nat} {node : Node}
      (durable : machine.durable inode = some node) :
      Left machine (some inode) (some node)
  | anything {inode : Nat} (lost : machine.durable inode = none)
      (bytes : Bytes) : Left machine (some inode) (some (.file bytes))

theorem Left.eq_none {machine : Machine} {node : Option Node}
    (left : machine.Left none node) : node = none := by
  cases left
  rfl

theorem Left.eq_some {machine : Machine} {inode : Nat} {node : Option Node}
    {holds : Node} (left : machine.Left (some inode) node)
    (durable : machine.durable inode = some holds) : node = some holds := by
  cases left with
  | whole other => rw [← other, durable]
  | anything lost bytes =>
      rw [lost] at durable
      cases durable

/-- A disk that a power loss can leave. -/
def Survives (machine : Machine) (disk : Disk) : Prop :=
  ∀ path, ∃ entry ∈ machine.past path, machine.Left entry (disk path)

end Machine

/--
A step of a machine.  `sync_all` can only fail where it is unreliable, and
whether it has worked is not asked.
-/
inductive PowerStep (umask : Mode) (asks : Nat → Disk → Job → Prop)
    (unreliable : Prop) : Machine → Machine → Prop where
  /-- Every call but `sync_all`. -/
  | step {machine : Machine} {after : System}
      (step : Step umask asks machine.system after)
      (unsynced : ∀ pid, after.world.phase pid = .moving →
        machine.system.world.phase pid = .moving) :
      PowerStep umask asks unreliable machine (machine.stepped after)
  | syncAll {machine : Machine} {pid inode written : Nat} {job : Job}
      (runs : machine.system.job pid = some job)
      (filling : machine.system.world.phase pid = .filling inode written)
      (whole : job.contents.length ≤ written) :
      PowerStep umask asks unreliable machine
        ((machine.stepped (machine.system.called umask job
          (machine.system.world.setPhase pid .moving))).flush inode)
  | syncAllFails {machine : Machine} {pid inode written : Nat} {job : Job}
      (allowed : unreliable) (runs : machine.system.job pid = some job)
      (filling : machine.system.world.phase pid = .filling inode written)
      (whole : job.contents.length ≤ written) :
      PowerStep umask asks unreliable machine
        (machine.stepped (machine.system.called umask job
          (machine.system.world.setPhase pid .moving)))
  /-- The machine starts again, with no processes. -/
  | powerLoss {machine : Machine} {system : System}
      (survives : machine.Survives system.world.view)
      (idle : ∀ pid, system.job pid = none) :
      PowerStep umask asks unreliable machine (.boot system)

/-! ## What one call can do -/

section Calls

variable {pid inode : Nat} {target : Path} {contents : Bytes}
  {world after : World}

/-- A process that fills a file has just made it, or has filled it before. -/
theorem filling_of_call (call : Call pid target contents world after)
    {written : Nat} (filling : after.phase pid = .filling inode written) :
    inode = world.next ∨
      ∃ before, world.phase pid = .filling inode before := by
  cases call with
  | create free =>
      rw [World.phase_setPhase_self, Phase.filling.injEq] at filling
      exact Or.inl filling.1.symm
  | append before count =>
      rw [World.phase_setPhase_self, Phase.filling.injEq] at filling
      rcases filling with ⟨rfl, -⟩
      exact Or.inr ⟨_, before⟩
  | detach detached =>
      rw [World.phase_setPhase_self] at filling
      rcases detached with rfl | rfl | rfl <;> cases filling
  | nothing => exact Or.inr ⟨_, filling⟩
  | sync _ _ | unlink | move _ =>
      rw [World.phase_setPhase_self] at filling
      cases filling

/-- A process that stays before its rename has changed nothing. -/
theorem eq_of_call_of_moving (call : Call pid target contents world after)
    (before : world.phase pid = .moving) (moving : after.phase pid = .moving) :
    after = world := by
  cases call with
  | detach detached =>
      rw [World.phase_setPhase_self] at moving
      rcases detached with rfl | rfl | rfl <;> cases moving
  | sync filling _ =>
      rw [filling] at before
      cases before
  | nothing => rfl
  | create _ | append _ _ | unlink | move _ =>
      rw [World.phase_setPhase_self] at moving
      cases moving

/-- Only the file that is filled, or a new one, changes. -/
theorem data_of_call (call : Call pid target contents world after) :
    after.data inode = world.data inode ∨ inode = world.next ∨
      ∃ written, world.phase pid = .filling inode written := by
  cases call with
  | create free =>
      by_cases new : inode = world.next
      · exact Or.inr (Or.inl new)
      · exact Or.inl
          (@World.data_create_of_ne world (tmpPath target pid) inode new)
  | @append filled written filling count =>
      by_cases same : inode = filled
      · exact Or.inr (Or.inr ⟨written, same ▸ filling⟩)
      · exact Or.inl (World.data_append_of_ne same _)
  | sync _ _ | unlink | move _ | detach _ | nothing => exact Or.inl rfl

theorem next_le_of_call (call : Call pid target contents world after) :
    world.next ≤ after.next := by
  cases call with
  | create free => exact Nat.le_succ _
  | append _ _ | sync _ _ | unlink | move _ | detach _ | nothing =>
      exact Nat.le_refl _

theorem entry_of_call (call : Call pid target contents world after)
    (path : Path) :
    after.entry path = world.entry path ∨
      path = tmpPath target pid ∧
        (after.entry path = none ∨ after.entry path = some world.next) ∨
      path = target ∧ world.phase pid = .moving ∧
        after.entry path = world.entry (tmpPath target pid) := by
  cases call with
  | create free =>
      by_cases own : path = tmpPath target pid
      · exact Or.inr (Or.inl ⟨own, Or.inr (own ▸ World.entry_create_self)⟩)
      · exact Or.inl (World.entry_create_of_ne own)
  | unlink =>
      by_cases own : path = tmpPath target pid
      · exact Or.inr (Or.inl ⟨own, Or.inl (own ▸ World.entry_unlink_self)⟩)
      · exact Or.inl (World.entry_unlink_of_ne own)
  | move moving =>
      by_cases moved : path = target
      · exact Or.inr (Or.inr ⟨moved, moving, moved ▸ World.entry_move_self⟩)
      · have unlinked := @World.entry_move_of_ne world (tmpPath target pid)
          path target moved
        by_cases own : path = tmpPath target pid
        · rw [own, World.entry_unlink_self] at unlinked
          exact Or.inr (Or.inl ⟨own, Or.inl (own ▸ unlinked)⟩)
        · rw [World.entry_unlink_of_ne own] at unlinked
          exact Or.inl unlinked
  | append _ _ | sync _ _ | detach _ | nothing => exact Or.inl rfl

end Calls

/-! ## What is on the disk -/

section Kept

variable {umask : Mode} {asks : Nat → Disk → Job → Prop}
  {Good : Job → Prop} {epoch after : System} {machine : Machine}

/--
What holds since the start of a machine: what was there is on the disk, and a
path leads to what it led to, or to a new file.
-/
structure Stored (epoch : System) (machine : Machine) : Prop where
  old : ∀ inode, inode < epoch.world.next →
    machine.durable inode = some (epoch.world.data inode)
  known : ∀ inode node, machine.durable inode = some node →
    inode < machine.system.world.next ∧
      machine.system.world.data inode = node
  unfilled : ∀ pid job inode written, machine.system.job pid = some job →
    machine.system.world.phase pid = .filling inode written →
      machine.durable inode = none
  current : ∀ path,
    machine.system.world.entry path ∈ machine.past path
  past : ∀ path, ∀ entry ∈ machine.past path,
    entry = epoch.world.entry path ∨ IsTmp path ∧ entry = none ∨
      ∃ inode, epoch.world.next ≤ inode ∧ entry = some inode

/-- Where `sync_all` works, new files are complete before they are moved. -/
structure Kept (Good : Job → Prop) (epoch : System) (machine : Machine) :
    Prop extends Stored epoch machine where
  moving : ∀ pid job inode, machine.system.job pid = some job →
    machine.system.world.phase pid = .moving →
      machine.system.world.entry (tmpPath job.target pid) = some inode →
        machine.durable inode = some (.file job.contents)
  whole : ∀ path inode, ¬ IsTmp path → some inode ∈ machine.past path →
    epoch.world.next ≤ inode → ∃ job, Good job ∧ job.target = path ∧
      machine.durable inode = some (.file job.contents)

theorem Stored.boot (idle : ∀ pid, epoch.job pid = none) :
    Stored epoch (.boot epoch) where
  old inode known := if_pos known
  known inode node durable := by
    change (if _ then _ else _) = _ at durable
    split at durable
    next known => exact ⟨known, Option.some.inj durable⟩
    next => cases durable
  unfilled pid job inode written runs := by
    rw [Machine.boot, idle] at runs
    cases runs
  current path := rfl
  past path entry member := Or.inl member

theorem Kept.boot (idle : ∀ pid, epoch.job pid = none) :
    Kept Good epoch (.boot epoch) where
  toStored := .boot idle
  moving pid job inode runs := by
    rw [Machine.boot, idle] at runs
    cases runs
  whole path inode _ leads recent :=
    absurd (epoch.world.bounded path inode leads.symm)
      (Nat.not_lt.mpr recent)

/-- A file that is on the disk does not change. -/
theorem Stored.data_eq (stored : Stored epoch machine)
    (step : Step umask asks machine.system after) {inode : Nat} {node : Node}
    (durable : machine.durable inode = some node) :
    after.world.data inode = machine.system.world.data inode := by
  cases step with
  | take _ _ => rfl
  | leave _ => rfl
  | @call pid job world runs step =>
      rcases @data_of_call pid inode _ _ _ _ (call_of_stepOf step) with
        same | rfl | ⟨written, filling⟩
      · exact same
      · exact absurd (stored.known _ _ durable).1 (Nat.lt_irrefl _)
      · rw [stored.unfilled pid job inode written runs filling] at durable
        cases durable

theorem Stored.durable_stepped (stored : Stored epoch machine)
    (step : Step umask asks machine.system after) :
    (machine.stepped after).durable = machine.durable := by
  funext inode
  cases durable : machine.durable inode with
  | none => simp [Machine.stepped, durable]
  | some node =>
      exact (if_pos (stored.data_eq step durable)).trans durable

theorem next_le_of_step {system : System}
    (step : Step umask asks system after) :
    system.world.next ≤ after.world.next := by
  cases step with
  | take _ _ => exact Nat.le_refl _
  | leave _ => exact Nat.le_refl _
  | call _ step => exact next_le_of_call (call_of_stepOf step)

/-- Whoever has a job after a step has just taken it, or goes on with it. -/
theorem job_of_step {system : System} (step : Step umask asks system after)
    {pid : Nat} {job : Job} (runs : after.job pid = some job) :
    after.world.phase pid = .waiting ∨
      system.job pid = some job ∧
        (after.world.phase pid = system.world.phase pid ∨
          Call pid job.target job.contents system.world after.world) := by
  cases step with
  | @take other otherJob _ _ =>
      by_cases same : pid = other
      · exact Or.inl (same ▸ World.phase_setPhase_self _ _ _)
      · rw [System.job_take_of_ne same] at runs
        exact Or.inr ⟨runs, Or.inl (World.phase_setPhase_of_ne same _)⟩
  | @call other otherJob world otherRuns step =>
      refine Or.inr ⟨runs, ?_⟩
      by_cases same : pid = other
      · rcases same with rfl
        rcases Option.some.inj (otherRuns.symm.trans runs) with rfl
        exact Or.inr (call_of_stepOf step)
      · exact Or.inl (step.2 pid same)
  | @leave other _ =>
      by_cases same : pid = other
      · rw [same, System.job_leave_self] at runs
        cases runs
      · rw [System.job_leave_of_ne same] at runs
        exact Or.inr ⟨runs, Or.inl rfl⟩

/-- A process that stays before its rename keeps its temporary file. -/
theorem entry_of_moving
    (invariant : Invariant umask Good epoch machine.system)
    (step : Step umask asks machine.system after) {pid : Nat} {job : Job}
    (runs : after.job pid = some job)
    (before : machine.system.world.phase pid = .moving)
    (moving : after.world.phase pid = .moving) :
    machine.system.job pid = some job ∧
      after.world.entry (tmpPath job.target pid) =
        machine.system.world.entry (tmpPath job.target pid) := by
  cases step with
  | @take other otherJob _ _ =>
      by_cases same : pid = other
      · rw [same] at moving
        change (World.setPhase _ _ _).phase _ = _ at moving
        rw [World.phase_setPhase_self] at moving
        cases moving
      · rw [System.job_take_of_ne same] at runs
        exact ⟨runs, rfl⟩
  | @call other otherJob world otherRuns step =>
      refine ⟨runs, ?_⟩
      by_cases same : pid = other
      · rcases same with rfl
        have unchanged : world = machine.system.world :=
          eq_of_call_of_moving (call_of_stepOf step) before moving
        exact congrArg
          (fun changed : World => changed.entry (tmpPath job.target pid))
          unchanged
      · have elsewhere :
            tmpPath job.target pid ≠ tmpPath otherJob.target other :=
          fun equal => same (pid_of_tmpPath equal)
        rcases invariant.frame otherRuns (call_of_stepOf step) elsewhere with
          untouched | ⟨target, -⟩
        · exact untouched.1
        · exact (otherJob.notTmp (target ▸ isTmp_tmpPath _ _)).elim
  | @leave other _ =>
      by_cases same : pid = other
      · rw [same, System.job_leave_self] at runs
        cases runs
      · rw [System.job_leave_of_ne same] at runs
        exact ⟨runs, rfl⟩

/-- Where the entries of a path come from. -/
theorem entry_of_step {system : System} (step : Step umask asks system after)
    (path : Path) :
    after.world.entry path = system.world.entry path ∨
      IsTmp path ∧ (after.world.entry path = none ∨
        after.world.entry path = some system.world.next) ∨
      ¬ IsTmp path ∧ ∃ pid job, system.job pid = some job ∧
        job.target = path ∧ system.world.phase pid = .moving ∧
          after.world.entry path =
            system.world.entry (tmpPath job.target pid) := by
  cases step with
  | take _ _ => exact Or.inl rfl
  | leave _ => exact Or.inl rfl
  | @call pid job world runs step =>
      rcases entry_of_call (call_of_stepOf step) path with
        same | ⟨rfl, changed⟩ | ⟨rfl, moving, moved⟩
      · exact Or.inl same
      · exact Or.inr (Or.inl ⟨isTmp_tmpPath _ _, changed⟩)
      · exact Or.inr (Or.inr ⟨job.notTmp, pid, job, runs, rfl, moving,
          moved⟩)

/-- Every step of the system keeps what is on the disk. -/
theorem Stored.step (stored : Stored epoch machine)
    (invariant : Invariant umask Good epoch machine.system)
    (step : Step umask asks machine.system after) :
    Stored epoch (machine.stepped after) := by
  have durable := stored.durable_stepped step
  refine ⟨?_, ?_, ?_, fun path => Set.mem_insert _ _, ?_⟩
  · intro inode old
    rw [durable]
    exact stored.old inode old
  · intro inode node now
    rw [durable] at now
    rcases stored.known inode node now with ⟨known, holds⟩
    exact ⟨Nat.lt_of_lt_of_le known (next_le_of_step step),
      (stored.data_eq step now).trans holds⟩
  · intro pid job inode written runs filling
    rw [durable]
    rcases job_of_step step runs with waiting | ⟨ran, same | call⟩
    · rw [Machine.stepped, waiting] at filling
      cases filling
    · exact stored.unfilled pid job inode written ran (same ▸ filling)
    · rcases filling_of_call call filling with rfl | ⟨before, filled⟩
      · cases new : machine.durable machine.system.world.next with
        | none => rfl
        | some node =>
            exact absurd (stored.known _ _ new).1 (Nat.lt_irrefl _)
      · exact stored.unfilled pid job inode before ran filled
  · intro path entry member
    rcases Set.mem_insert_iff.mp member with rfl | earlier
    · rcases entry_of_step step path with
        same | ⟨isTmp, gone | new⟩ | ⟨-, pid, job, runs, -, moving, moved⟩
      · rw [same]
        exact stored.past path _ (stored.current path)
      · exact Or.inr (Or.inl ⟨isTmp, gone⟩)
      · exact Or.inr (Or.inr ⟨_, invariant.grows, new⟩)
      · rcases invariant.madeAt_of_moving runs moving with
          ⟨inode, ⟨leads, recent, -⟩, -⟩
        exact Or.inr (Or.inr ⟨inode, recent, moved.trans leads⟩)
    · exact stored.past path entry earlier

/-- Every call but `sync_all` moves complete files only. -/
theorem Kept.step (kept : Kept Good epoch machine)
    (invariant : Invariant umask Good epoch machine.system)
    (step : Step umask asks machine.system after)
    (unsynced : ∀ pid, after.world.phase pid = .moving →
      machine.system.world.phase pid = .moving) :
    Kept Good epoch (machine.stepped after) := by
  have durable := kept.durable_stepped step
  refine ⟨kept.toStored.step invariant step, ?_, ?_⟩
  · intro pid job inode runs moving leads
    rw [durable]
    have before := unsynced pid moving
    rcases entry_of_moving invariant step runs before moving with
      ⟨ran, same⟩
    exact kept.moving pid job inode ran before (same.symm.trans leads)
  · intro path inode notTmp member recent
    rw [durable]
    rcases Set.mem_insert_iff.mp member with leads | earlier
    · rcases entry_of_step step path with
        same | ⟨isTmp, -⟩ | ⟨-, pid, job, runs, target, moving, moved⟩
      · have now := kept.current path
        rw [← same, ← leads] at now
        exact kept.whole path inode notTmp now recent
      · exact (notTmp isTmp).elim
      · exact ⟨job, invariant.good pid job runs, target,
          kept.moving pid job inode runs moving
            (moved.symm.trans leads.symm)⟩
    · exact kept.whole path inode notTmp earlier recent

/-! ## `sync_all` -/

section Sync

variable {pid inode written : Nat} {job : Job}

/-- The step of the system in which `sync_all` returns. -/
theorem step_of_sync {system : System} (runs : system.job pid = some job)
    (filling : system.world.phase pid = .filling inode written)
    (whole : job.contents.length ≤ written) :
    Step umask asks system
      (system.called umask job (system.world.setPhase pid .moving)) := by
  refine .call runs (ConcurrentWrites.Step.of_pid ?_ rfl)
  exact .sync (alone_self pid job.contents) filling whole

/-- No other process fills the file. -/
theorem eq_of_filling
    (invariant : Invariant umask Good epoch machine.system)
    (runs : machine.system.job pid = some job)
    (filling : machine.system.world.phase pid = .filling inode written)
    {other length : Nat} {otherJob : Job}
    (otherRuns : machine.system.job other = some otherJob)
    (otherFilling : machine.system.world.phase other =
      .filling inode length) : other = pid := by
  rcases invariant.madeAt_of_filling runs filling with
    ⟨⟨leads, recent, -⟩, -⟩
  rcases invariant.madeAt_of_filling otherRuns otherFilling with
    ⟨⟨otherLeads, -, -⟩, -⟩
  exact pid_of_tmpPath (invariant.unshared _ _ _ recent otherLeads leads)

/-- `sync_all` brings a complete file to the disk. -/
theorem Kept.sync (kept : Kept Good epoch machine)
    (invariant : Invariant umask Good epoch machine.system)
    (runs : machine.system.job pid = some job)
    (filling : machine.system.world.phase pid = .filling inode written)
    (whole : job.contents.length ≤ written) :
    Kept Good epoch ((machine.stepped (machine.system.called umask job
      (machine.system.world.setPhase pid .moving))).flush inode) := by
  rcases invariant.madeAt_of_filling runs filling with
    ⟨⟨leads, recent, contents⟩, -⟩
  rw [List.take_of_length_le whole] at contents
  have step : Step umask (fun _ _ _ => False) machine.system _ :=
    step_of_sync runs filling whole
  have stored := kept.toStored.step invariant step
  have durable := kept.durable_stepped step
  have synced (other : Nat) : ((machine.stepped
      (machine.system.called umask job (machine.system.world.setPhase pid
        .moving))).flush inode).durable other =
      Function.update machine.durable inode (some (.file job.contents))
        other := by
    rw [← contents, ← durable]
    rfl
  have stays {other : Nat} {node : Node}
      (before : machine.durable other = some node) :
      Function.update machine.durable inode (some (.file job.contents))
        other = some node := by
    rw [Function.update_of_ne, before]
    rintro rfl
    rw [kept.unfilled pid job other written runs filling] at before
    cases before
  refine ⟨⟨?_, ?_, ?_, stored.current, stored.past⟩, ?_, ?_⟩
  · intro other old
    rw [synced]
    exact stays (kept.old other old)
  · intro other node now
    rw [synced] at now
    by_cases same : other = inode
    · rw [same, Function.update_self, Option.some.injEq] at now
      rw [same, ← now]
      exact ⟨machine.system.world.bounded _ _ leads, contents⟩
    · rw [Function.update_of_ne same] at now
      exact kept.known other node now
  · intro other otherJob filled length otherRuns otherFilling
    have before := stored.unfilled other otherJob filled length otherRuns
      otherFilling
    rw [durable] at before
    rw [synced, Function.update_of_ne _ _ _, before]
    rintro rfl
    have different : other ≠ pid := by
      rintro rfl
      change (World.setPhase _ _ _).phase other = _ at otherFilling
      rw [World.phase_setPhase_self] at otherFilling
      cases otherFilling
    change (World.setPhase _ _ _).phase other = _ at otherFilling
    rw [World.phase_setPhase_of_ne different] at otherFilling
    exact different (eq_of_filling invariant runs filling otherRuns
      otherFilling)
  · intro other otherJob moved otherRuns moving otherLeads
    rw [synced]
    by_cases same : other = pid
    · rcases same with rfl
      rcases Option.some.inj (otherRuns.symm.trans runs) with rfl
      rcases Option.some.inj (otherLeads.symm.trans leads) with rfl
      rw [Function.update_self]
    · change (World.setPhase _ _ _).phase other = _ at moving
      rw [World.phase_setPhase_of_ne same] at moving
      exact stays (kept.moving other otherJob moved otherRuns moving
        otherLeads)
  · intro path other notTmp member otherRecent
    rw [synced]
    have earlier : some other ∈ machine.past path := by
      rcases Set.mem_insert_iff.mp member with same | earlier
      · rw [same]
        exact kept.current path
      · exact earlier
    rcases kept.whole path other notTmp earlier otherRecent with
      ⟨maker, good, target, complete⟩
    exact ⟨maker, good, target, stays complete⟩

end Sync

/-! ## A power loss -/

/-- What survives is what was there at the start, or complete. -/
theorem Kept.planned_of_survives (kept : Kept Good epoch machine)
    {disk : Disk} (survives : machine.Survives disk) :
    Planned Good epoch.world.view disk := by
  intro path notTmp
  rcases survives path with ⟨entry, member, left⟩
  rcases kept.past path entry member with
    same | ⟨isTmp, -⟩ | ⟨inode, recent, rfl⟩
  · refine Or.inl ?_
    rw [World.view, ← same]
    cases entry with
    | none => exact left.eq_none
    | some inode =>
        exact left.eq_some
          (kept.old inode (epoch.world.bounded path inode same.symm))
  · exact (notTmp isTmp).elim
  · rcases kept.whole path inode notTmp member recent with
      ⟨job, good, target, durable⟩
    exact Or.inr ⟨job, good, target, left.eq_some durable⟩

/-- A new file is a file, whatever is left of it. -/
theorem Stored.file_of_left (stored : Stored epoch machine)
    (invariant : Invariant umask Good epoch machine.system) {inode : Nat}
    {node : Option Node} (recent : epoch.world.next ≤ inode)
    (left : machine.Left (some inode) node) :
    ∃ contents, node = some (.file contents) := by
  cases left with
  | whole durable =>
      rcases stored.known inode _ durable with ⟨known, rfl⟩
      rcases invariant.made inode recent known with
        ⟨job, count, -, contents, -⟩
      exact ⟨_, congrArg some contents⟩
  | anything _ bytes => exact ⟨bytes, rfl⟩

theorem Stored.tmpFiles_of_survives (stored : Stored epoch machine)
    (invariant : Invariant umask Good epoch machine.system)
    (files : TmpFiles epoch.world.view) {disk : Disk}
    (survives : machine.Survives disk) : TmpFiles disk := by
  intro path isTmp present
  rcases survives path with ⟨entry, member, left⟩
  rcases stored.past path entry member with
    same | ⟨-, rfl⟩ | ⟨inode, recent, rfl⟩
  · cases entry with
    | none => exact (present left.eq_none).elim
    | some inode =>
        have old := left.eq_some
          (stored.old inode (epoch.world.bounded path inode same.symm))
        have view : epoch.world.view path = disk path := by
          rw [World.view, ← same, old, Option.map_some]
        rw [← view] at present ⊢
        exact files path isTmp present
  · exact (present left.eq_none).elim
  · exact stored.file_of_left invariant recent left

/-- The disk that the processes see is one that can survive. -/
theorem Stored.survives_view (stored : Stored epoch machine)
    (invariant : Invariant umask Good epoch machine.system) :
    machine.Survives machine.system.world.view := by
  intro path
  refine ⟨_, stored.current path, ?_⟩
  rw [World.view]
  cases leads : machine.system.world.entry path with
  | none => exact .nothing
  | some inode =>
      rw [Option.map_some]
      cases durable : machine.durable inode with
      | some node =>
          rw [(stored.known inode node durable).2]
          exact .whole durable
      | none =>
          have recent : epoch.world.next ≤ inode := by
            by_contra early
            rw [stored.old inode (Nat.not_le.mp early)] at durable
            cases durable
          rcases invariant.made inode recent
            (machine.system.world.bounded path inode leads) with
            ⟨job, count, -, contents, -⟩
          rw [contents]
          exact .anything durable _

end Kept

/-! ## Runs -/

section Runs

variable {umask : Mode} {asks : Nat → Disk → Job → Prop}
  {Good : Job → Prop} {start : System} {machine after : Machine}

/-- What holds of a machine, whose last start is `epoch`. -/
structure Sane (umask : Mode) (Good : Job → Prop) (start : Disk)
    (epoch : System) (machine : Machine) : Prop where
  before : Planned Good start epoch.world.view
  files : TmpFiles start → TmpFiles epoch.world.view
  invariant : Invariant umask Good epoch machine.system
  kept : Kept Good epoch machine

theorem Sane.planned {origin : Disk} {epoch : System}
    (sane : Sane umask Good origin epoch machine) :
    Planned Good origin machine.system.world.view :=
  sane.before.trans (sane.kept.planned_of_survives
    (sane.kept.survives_view sane.invariant))

theorem Sane.tmpFiles {origin : Disk} {epoch : System}
    (sane : Sane umask Good origin epoch machine)
    (files : TmpFiles origin) : TmpFiles machine.system.world.view :=
  sane.kept.tmpFiles_of_survives sane.invariant (sane.files files)
    (sane.kept.survives_view sane.invariant)

theorem Sane.boot {origin : Disk}
    (before : Planned Good origin start.world.view)
    (files : TmpFiles origin → TmpFiles start.world.view)
    (idle : ∀ pid, start.job pid = none) :
    Sane umask Good origin start (.boot start) :=
  ⟨before, files, .initial idle, .boot idle⟩

theorem Sane.invariant_step {origin : Disk} {epoch next : System}
    (sound : Sound asks Good origin)
    (sane : Sane umask Good origin epoch machine)
    (step : Step umask asks machine.system next) :
    Invariant umask Good epoch next :=
  sane.invariant.step
    (fun pid job asked => sound pid _ job sane.planned asked) step

/-- Every step of a machine on which `sync_all` works. -/
theorem Sane.step {origin : Disk} (sound : Sound asks Good origin)
    (sane : ∃ epoch, Sane umask Good origin epoch machine)
    (step : PowerStep umask asks False machine after) :
    ∃ epoch, Sane umask Good origin epoch after := by
  rcases sane with ⟨epoch, sane⟩
  cases step with
  | step step unsynced =>
      exact ⟨epoch, sane.before, sane.files, sane.invariant_step sound step,
        sane.kept.step sane.invariant step unsynced⟩
  | syncAll runs filling whole =>
      exact ⟨epoch, sane.before, sane.files,
        sane.invariant_step sound (step_of_sync runs filling whole),
        sane.kept.sync sane.invariant runs filling whole⟩
  | syncAllFails allowed _ _ _ => exact allowed.elim
  | powerLoss survives idle =>
      refine ⟨_, .boot (sane.before.trans
        (sane.kept.planned_of_survives survives)) ?_ idle⟩
      exact fun files => sane.kept.tmpFiles_of_survives sane.invariant
        (sane.files files) survives

/--
The rule for machines on which `sync_all` works: with a sound choice of jobs
every path but a temporary one is in every state reached as it was, or what a
good job has left, however often the power is lost.
-/
theorem sane_of_powered (idle : ∀ pid, start.job pid = none)
    (sound : Sound asks Good start.world.view)
    (reached : Relation.ReflTransGen (PowerStep umask asks False)
      (.boot start) machine) :
    Planned Good start.world.view machine.system.world.view ∧
      (TmpFiles start.world.view → TmpFiles machine.system.world.view) ∧
        machine.Survives machine.system.world.view := by
  have sane : ∃ epoch, Sane umask Good start.world.view epoch machine :=
    Stateful.invariant_of_reached (fun before after sane step =>
        @Sane.step umask asks Good before after _ sound sane step)
      ⟨start, .boot (fun _ _ => Or.inl rfl) id idle⟩ reached
  rcases sane with ⟨epoch, sane⟩
  exact ⟨sane.planned, sane.tmpFiles,
    sane.kept.survives_view sane.invariant⟩

/-- The same files, and no processes. -/
def restarted (system : System) : System :=
  { system with job := fun _ => none }

/-- A machine can lose its power without losing anything else. -/
theorem restart_reached (idle : ∀ pid, start.job pid = none)
    (sound : Sound asks Good start.world.view)
    (reached : Relation.ReflTransGen (PowerStep umask asks False)
      (.boot start) machine) :
    Relation.ReflTransGen (PowerStep umask asks False) (.boot start)
      (.boot (restarted machine.system)) :=
  reached.tail
    (.powerLoss (sane_of_powered idle sound reached).2.2 fun _ => rfl)

end Runs

/-! ## Machines that keep their power -/

section Powered

variable {umask : Mode} {asks : Nat → Disk → Job → Prop}
  {Good : Job → Prop} {unreliable : Prop} {start system after : System}
  {machine : Machine}

/-- A phase is set in which no file is about to be moved. -/
theorem unsynced_setPhase {world changed : World} {phase : Phase} {pid : Nat}
    (phases : changed.phase = world.phase) (apart : phase ≠ .moving)
    (other : Nat)
    (moving : (changed.setPhase pid phase).phase other = .moving) :
    world.phase other = .moving := by
  by_cases same : other = pid
  · rw [same, World.phase_setPhase_self] at moving
    exact (apart moving).elim
  · rw [World.phase_setPhase_of_ne same, phases] at moving
    exact moving

/-- A step of the system is `sync_all`, or brings no process to a rename. -/
theorem sync_or_unsynced (step : Step umask asks system after) :
    (∀ pid, after.world.phase pid = .moving →
      system.world.phase pid = .moving) ∨
      ∃ pid job inode written, system.job pid = some job ∧
        system.world.phase pid = .filling inode written ∧
          job.contents.length ≤ written ∧
            after = system.called umask job
              (system.world.setPhase pid .moving) := by
  cases step with
  | take _ _ => exact Or.inl (unsynced_setPhase rfl Phase.noConfusion)
  | leave _ => exact Or.inl fun _ moving => moving
  | @call pid job world runs step =>
      cases call_of_stepOf step with
      | sync filling whole =>
          exact Or.inr ⟨pid, job, _, _, runs, filling, whole, rfl⟩
      | detach detached =>
          refine Or.inl (unsynced_setPhase rfl ?_)
          rcases detached with rfl | rfl | rfl <;> exact Phase.noConfusion
      | nothing => exact Or.inl fun _ moving => moving
      | create _ | append _ _ | unlink | move _ =>
          exact Or.inl (unsynced_setPhase rfl Phase.noConfusion)

/-- A run of the system is one of a machine that keeps its power. -/
theorem powered_of_reached (idle : ∀ pid, start.job pid = none)
    (sound : Sound asks Good start.world.view)
    (reached : Relation.ReflTransGen (Step umask asks) start system) :
    ∃ machine, Relation.ReflTransGen (PowerStep umask asks unreliable)
        (.boot start) machine ∧ machine.system = system ∧
      Kept Good start machine ∧
        ∀ path, start.world.entry path ∈ machine.past path := by
  induction reached with
  | refl => exact ⟨_, .refl, rfl, .boot idle, fun _ => rfl⟩
  | @tail _ after earlier step induction =>
      rcases induction with ⟨machine, reached, rfl, kept, past⟩
      have invariant := (asPlanned_of_reached idle sound earlier).1
      rcases sync_or_unsynced step with
        unsynced | ⟨pid, job, inode, written, runs, filling, whole, rfl⟩
      · exact ⟨_, reached.tail (.step step unsynced), rfl,
          kept.step invariant step unsynced,
          fun path => Set.mem_insert_of_mem _ (past path)⟩
      · exact ⟨_, reached.tail (.syncAll runs filling whole), rfl,
          kept.sync invariant runs filling whole,
          fun path => Set.mem_insert_of_mem _ (past path)⟩

/--
A rename is not synced.  After any run of the processes the power can be lost
so that each path shows what it shows, or what it has shown at the start.
-/
theorem survives_either (idle : ∀ pid, start.job pid = none)
    (sound : Sound asks Good start.world.view)
    (reached : Relation.ReflTransGen (Step umask asks) start system) :
    ∃ machine, Relation.ReflTransGen (PowerStep umask asks False)
        (.boot start) machine ∧ machine.system = system ∧
      ∀ disk : Disk, (∀ path, disk path = system.world.view path ∨
        disk path = start.world.view path) → machine.Survives disk := by
  rcases @powered_of_reached umask asks Good False start system idle sound
    reached with ⟨machine, powered, rfl, kept, past⟩
  have invariant := (asPlanned_of_reached idle sound reached).1
  refine ⟨machine, powered, rfl, fun disk shows path => ?_⟩
  rcases shows path with now | before
  · rw [now]
    exact kept.survives_view invariant path
  · refine ⟨_, past path, ?_⟩
    rw [before, World.view]
    cases leads : start.world.entry path with
    | none => exact .nothing
    | some inode =>
        exact .whole (kept.old inode (start.world.bounded path inode leads))

/-- A path that shows something new leads to something new. -/
theorem moved_of_changed (idle : ∀ pid, start.job pid = none)
    (sound : Sound asks Good start.world.view)
    (reached : Relation.ReflTransGen (Step umask asks) start system)
    {path : Path}
    (changed : system.world.view path ≠ start.world.view path) :
    system.world.entry path ≠ start.world.entry path := by
  rcases @powered_of_reached umask asks Good False start system idle sound
    reached with ⟨machine, powered, rfl, kept, -⟩
  intro same
  apply changed
  rw [World.view, World.view, same]
  apply Option.map_congr
  intro inode leads
  exact (kept.known inode _ (kept.old inode
    (start.world.bounded path inode leads))).2

/-- What holds of a machine on which `sync_all` has failed every time. -/
structure Unsynced (umask : Mode) (asks : Nat → Disk → Job → Prop)
    (epoch : System) (machine : Machine) : Prop
    extends Stored epoch machine where
  reached : Relation.ReflTransGen (Step umask asks) epoch machine.system
  lost : ∀ inode, epoch.world.next ≤ inode → machine.durable inode = none

theorem Unsynced.boot (idle : ∀ pid, start.job pid = none) :
    Unsynced umask asks start (.boot start) where
  toStored := .boot idle
  reached := .refl
  lost _ recent := if_neg (Nat.not_lt.mpr recent)

/-- Every step of the system can be one in which `sync_all` fails. -/
theorem Unsynced.follows (idle : ∀ pid, start.job pid = none)
    (sound : Sound asks Good start.world.view)
    (unsynced : Unsynced umask asks start machine)
    (step : Step umask asks machine.system after) :
    ∃ next, PowerStep umask asks True machine next ∧ next.system = after ∧
      Unsynced umask asks start next := by
  have invariant := (asPlanned_of_reached idle sound unsynced.reached).1
  refine ⟨machine.stepped after, ?_, rfl,
    unsynced.toStored.step invariant step, unsynced.reached.tail step, ?_⟩
  · rcases sync_or_unsynced step with
      unmoved | ⟨pid, job, inode, written, runs, filling, whole, rfl⟩
    · exact .step step unmoved
    · exact .syncAllFails trivial runs filling whole
  · intro inode recent
    rw [unsynced.durable_stepped step]
    exact unsynced.lost inode recent

/-- Where a path leads to something new, that is a new file. -/
theorem Stored.recent_of_ne {epoch : System} (stored : Stored epoch machine)
    {path : Path} (notTmp : ¬ IsTmp path)
    (moved : machine.system.world.entry path ≠ epoch.world.entry path) :
    ∃ inode, epoch.world.next ≤ inode ∧
      machine.system.world.entry path = some inode := by
  rcases stored.past path _ (stored.current path) with
    same | ⟨isTmp, -⟩ | recent
  · exact (moved same).elim
  · exact (notTmp isTmp).elim
  · exact recent

/-- Anything can be left at a path that leads to a file never synced. -/
theorem Unsynced.survives (idle : ∀ pid, start.job pid = none)
    (sound : Sound asks Good start.world.view)
    (unsynced : Unsynced umask asks start machine) {disk : Disk}
    (shows : ∀ path, disk path = machine.system.world.view path ∨
      ¬ IsTmp path ∧
        machine.system.world.entry path ≠ start.world.entry path ∧
          ∃ bytes, disk path = some (.file bytes)) :
    machine.Survives disk := by
  have invariant := (asPlanned_of_reached idle sound unsynced.reached).1
  intro path
  rcases shows path with same | ⟨notTmp, moved, bytes, anything⟩
  · rw [same]
    exact unsynced.survives_view invariant path
  · rcases unsynced.recent_of_ne notTmp moved with ⟨inode, recent, leads⟩
    refine ⟨_, unsynced.current path, ?_⟩
    rw [leads, anything]
    exact .anything (unsynced.lost inode recent) bytes

/--
What an ignored failure of `sync_all` costs: a run of the processes can be one
of a machine that may, at every moment of it, lose its power so that anything
stands at the paths that they have written.
-/
theorem survives_anything (idle : ∀ pid, start.job pid = none)
    (sound : Sound asks Good start.world.view) {run : List System}
    (chain : List.IsChain (Step umask asks) (start :: run)) :
    ∃ machines, List.IsChain (PowerStep umask asks True)
        (.boot start :: machines) ∧
      machines.map Machine.system = run ∧
      ∀ machine ∈ .boot start :: machines, ∀ disk : Disk,
        (∀ path, disk path = machine.system.world.view path ∨
          ¬ IsTmp path ∧
            machine.system.world.entry path ≠ start.world.entry path ∧
              ∃ bytes, disk path = some (.file bytes)) →
          machine.Survives disk := by
  rcases Stateful.exists_isChain_of_follows
    (fun before after unsynced step =>
      @Unsynced.follows umask asks Good start after before idle sound
        unsynced step)
    (.boot idle) chain with ⟨machines, powered, shown, unsynced⟩
  exact ⟨machines, powered, shown, fun machine member disk shows =>
    (unsynced machine member).survives idle sound shows⟩

end Powered

end NixPqcCache.PowerLoss
