import NixPqcCache.Lifecycle
import NixPqcCache.PowerLoss
import NixPqcCache.SignRecovery

/-!
# Signing and making keys until the power is lost

The processes of `sign` and `keygen` run on a machine that loses its power at
any moment, any number of times, and starts again with what has survived.  As
long as `sync_all` works this is no worse than the end of a process: narinfo
files and key files are whole, and `sign` can be tried again.

The source ignores the result of `sync_all`.  If it can fail, the power can be
lost so that anything stands where something was written, even by a run that
has succeeded.
-/

namespace NixPqcCache.PowerLossCommands

open NixPqcCache.Commands
open NixPqcCache.ConcurrentCommands
open NixPqcCache.ConcurrentJobs
open NixPqcCache.ConcurrentKeygen
open NixPqcCache.ConcurrentSigning
open NixPqcCache.Data
open NixPqcCache.DiskCommands
open NixPqcCache.Foundation
open NixPqcCache.Foundation.Attempts
open NixPqcCache.Hybrid
open NixPqcCache.HybridCandidates
open NixPqcCache.KeyFiles
open NixPqcCache.KeyFileRoundTrip
open NixPqcCache.KeygenRuns
open NixPqcCache.Keys
open NixPqcCache.Lifecycle
open NixPqcCache.Paths
open NixPqcCache.PowerLoss
open NixPqcCache.SignDirectory
open NixPqcCache.SignRecovery
open NixPqcCache.SignRuns
open NixPqcCache.SignatureEntries
open NixPqcCache.Writes

variable {Rand : Type} {primitives : Primitives Rand}
  {processes : Processes Rand} {umask : Mode} {start : System}
  {machine : Machine}

/-! ## Whole files -/

/-- A key file of a name is as it was, or that of a key made there. -/
theorem keyFile_of_planned {origin disk : Disk} {outDir path : Path}
    {name : Str} {file : Path → SecretKey → Job}
    (planned : Planned (Outcome primitives processes origin) origin disk)
    (keyFile : IsKeyFile outDir path)
    (own : ∀ dir secret job, Saves primitives dir secret job →
      job.target = path →
        dir = outDir ∧ secret.name = name ∧ job = file dir secret) :
    disk path = origin path ∨
      origin path = none ∧ ∃ pid secret, processes.makes pid outDir secret ∧
        validateKeyName secret.name = .ok () ∧ secret.name = name ∧
          disk path = some (.file (file outDir secret).contents) := by
  rcases planned path (not_isTmp_of_isKeyFile keyFile) with
    same | ⟨job, outcome, target, now⟩
  · exact Or.inl same
  · rcases saves_of_outcome outcome (target ▸ keyFile) with
      ⟨free, pid, dir, secret, makes, valid, saves⟩
    rcases own dir secret job saves target with ⟨rfl, named, rfl⟩
    exact Or.inr ⟨target ▸ free, pid, secret, makes, valid, named, now⟩

/--
On a machine on which `sync_all` works, however often the power is lost while
processes work in directories that exist, a path that is no narinfo, no key
file and no temporary file is as it was, a narinfo is as it was or the original
one signed in turn by some processes, and a key file is as it was or new,
complete and that of a key made there.
-/
theorem commands_survive_power_loss (correct : primitives.Correct)
    (idle : ∀ pid, start.job pid = none)
    (reached : Relation.ReflTransGen
      (PowerStep umask (Asks primitives processes) False) (.boot start)
        machine) :
    (∀ path, ¬ IsTmp path → isNarinfo path = false →
      (∀ outDir, ¬ IsKeyFile outDir path) →
        machine.system.world.view path = start.world.view path) ∧
      (∀ cacheDir name, isNarinfo (cacheDir.join name) = true →
        machine.system.world.view (cacheDir.join name) =
            start.world.view (cacheDir.join name) ∨
          ∃ text history final,
            start.world.view (cacheDir.join name) =
              some (.file (asBytes text)) ∧
            machine.system.world.view (cacheDir.join name) =
              some (.file (asBytes final)) ∧
            history ≠ [] ∧
            (∀ signing ∈ history, ∃ pid,
              processes.signs pid cacheDir signing) ∧
            SignedInTurn primitives history text final) ∧
      (∀ outDir name,
        machine.system.world.view (secretPath outDir name) =
            start.world.view (secretPath outDir name) ∨
          start.world.view (secretPath outDir name) = none ∧
          ∃ pid secret text, processes.makes pid outDir secret ∧
            machine.system.world.view (secretPath outDir name) =
              some (.file (asBytes text)) ∧
            SecretKey.loadText text = .ok secret ∧ secret.name = name) ∧
      ∀ outDir name,
        machine.system.world.view (pubPath outDir name) =
            start.world.view (pubPath outDir name) ∨
          start.world.view (pubPath outDir name) = none ∧
          ∃ pid secret text, processes.makes pid outDir secret ∧
            machine.system.world.view (pubPath outDir name) =
              some (.file (asBytes text)) ∧
            PublicKey.loadText text = .ok (secret.publicKey primitives) ∧
            secret.name = name := by
  have planned :=
    (sane_of_powered idle (asks_sound start.world.view) reached).1
  refine ⟨?_, ?_, ?_, ?_⟩
  · intro path notTmp notNarinfo notKeyFile
    rcases planned path notTmp with same | ⟨job, outcome, rfl, -⟩
    · exact same
    · exact (not_outcome_of_other notNarinfo notKeyFile outcome).elim
  · intro cacheDir name narinfo
    rcases planned _ (not_isTmp_of_isNarinfo narinfo) with
      same | ⟨job, outcome, target, now⟩
    · exact Or.inl same
    · rcases signedInTurn_of_outcome correct narinfo outcome target with
        ⟨-, text, history, final, original, contents, nonempty, signers,
          inTurn⟩
      exact Or.inr ⟨text, history, final, original, contents ▸ now,
        nonempty, signers, inTurn⟩
  · intro outDir name
    rcases keyFile_of_planned planned (@isKeyFile_secretPath outDir name)
      (fun _ _ _ saves => secretJob_of_saves saves) with
      same | ⟨free, pid, secret, makes, valid, named, now⟩
    · exact Or.inl same
    · exact Or.inr ⟨free, pid, secret, _, makes, now,
        loadText_secretBody valid, named⟩
  · intro outDir name
    rcases keyFile_of_planned planned (@isKeyFile_pubPath outDir name)
      (fun _ _ _ saves => pubJob_of_saves saves) with
      same | ⟨free, pid, secret, makes, valid, named, now⟩
    · exact Or.inl same
    · exact Or.inr ⟨free, pid, secret, _, makes, now,
        loadText_publicKey_body primitives valid, named⟩

/-- A machine loses its power after a process has signed the narinfo. -/
theorem sample_powered :
    ∃ machine signed, sampleInfo.toText ≠ signed ∧
      Relation.ReflTransGen (PowerStep 0o022 (Asks Primitives.transparent
        sampleProcesses) False) (.boot sampleSystem) machine ∧
      machine.system.world.view samplePath =
        some (.file (asBytes signed)) := by
  rcases sample_reached with ⟨system, signed, changed, reached, view⟩
  rcases @powered_of_reached _ _ _ False _ _ (fun _ => rfl)
    (asks_sound sampleSystem.world.view) reached with
    ⟨machine, powered, rfl, -⟩
  refine ⟨_, signed, changed, restart_reached (fun _ => rfl)
    (asks_sound sampleSystem.world.view) powered, ?_⟩
  change machine.system.world.view samplePath = _
  rw [view, Function.update_self]

theorem commands_survive_power_loss_sample :
    ∃ machine text history final,
      Relation.ReflTransGen (PowerStep 0o022 (Asks Primitives.transparent
        sampleProcesses) False) (.boot sampleSystem) machine ∧
      machine.system.world.view samplePath =
        some (.file (asBytes final)) ∧
      history ≠ [] ∧
      SignedInTurn Primitives.transparent history text final := by
  rcases sample_powered with ⟨machine, signed, changed, reached, view⟩
  rcases (commands_survive_power_loss Primitives.transparent_correct
    (fun _ => rfl) reached).2.1 Path.currentDir (asBytes "a.narinfo".toList)
      (by decide) with
    same | ⟨text, history, final, -, now, nonempty, -, inTurn⟩
  · have original := sampleSystem_samplePath
    rw [samplePath] at view original
    rw [view, original, Option.some.injEq, Node.file.injEq] at same
    exact (changed (asBytes_injective same).symm).elim
  · exact ⟨machine, text, history, final, reached, now, nonempty, inTurn⟩

/-! ## Trying again -/

/--
However often the power is lost while processes of one key sign a directory on
a machine on which `sync_all` works, trying again is enough: no more runs fail
than temporary files have survived, each of them removes one, and a run that
succeeds has signed every narinfo once.
-/
theorem sign_recovers_power_loss {cacheDir keyPath : Path}
    {secret : SecretKey} {pids : Set Nat} {failures : Nat} {final : Disk}
    (idle : ∀ pid, start.job pid = none)
    (ready : Ready cacheDir keyPath secret start.world.view)
    (own : ∀ pid signing, processes.signs pid cacheDir signing →
      signing.secret = secret)
    (reached : Relation.ReflTransGen
      (PowerStep umask (Asks primitives processes) False) (.boot start)
        machine)
    (tried : Tried (Works primitives pids cacheDir keyPath)
      (Fails primitives pids cacheDir keyPath) machine.system.world.view
        failures final) :
    failures + (leftovers pids cacheDir final).encard ≤
        (leftovers pids cacheDir machine.system.world.view).encard ∧
      ∀ attempt : Attempt Rand, attempt.Fair pids cacheDir final →
        (∃ after, (attempt.run primitives cacheDir keyPath).run final =
            .ok () after ∧
          ∀ path, IsTarget cacheDir path →
            start.world.view path ≠ none →
              SignedOnce primitives secret start.world.view path
                (after path)) ∨
          ∃ after, ∃ tmp ∈ leftovers pids cacheDir final,
            (attempt.run primitives cacheDir keyPath).run final =
                .error (.write (.creatingTmp tmp)) after ∧
              leftovers pids cacheDir after =
                leftovers pids cacheDir final \ {tmp} := by
  have sane := sane_of_powered idle (asks_sound start.world.view) reached
  exact (Between.of_planned ready own sane.1
    (sane.2.1 ready.files)).recovers tried

/-- After the power was lost a process with the same number tries again. -/
theorem sign_recovers_power_loss_sample :
    ∃ machine, Relation.ReflTransGen (PowerStep 0o022
        (Asks Primitives.transparent sampleProcesses) False)
          (.boot sampleSystem) (.boot machine) ∧
      ((∃ after, (sampleAttempt.run Primitives.transparent Path.currentDir
            sampleKeyPath).run machine.world.view = .ok () after ∧
          SignedOnce Primitives.transparent sampleSecret sampleCache
            samplePath (after samplePath)) ∨
        ∃ after, ∃ tmp ∈ leftovers {7} Path.currentDir machine.world.view,
          (sampleAttempt.run Primitives.transparent Path.currentDir
              sampleKeyPath).run machine.world.view =
              .error (.write (.creatingTmp tmp)) after ∧
            leftovers {7} Path.currentDir after =
              leftovers {7} Path.currentDir machine.world.view \
                {tmp}) := by
  have target : IsTarget Path.currentDir samplePath := ⟨by decide, _, rfl⟩
  rcases sample_crashed with ⟨system, reached, view⟩
  rcases @powered_of_reached _ _ _ False _ _ (fun _ => rfl)
    (asks_sound sampleSystem.world.view) reached with
    ⟨machine, powered, rfl, -⟩
  have lost := restart_reached (fun _ => rfl)
    (asks_sound sampleSystem.world.view) powered
  have recovers := (@sign_recovers_power_loss _ Primitives.transparent
    sampleProcesses 0o022 sampleSystem _ Path.currentDir sampleKeyPath
    sampleSecret {7} 0 _ (fun _ => rfl)
    (sampleSystem_view ▸ sampleCache_ready) (fun _ _ signs => signs) lost
    .nothing).2 sampleAttempt (view ▸ sampleAttempt_fair)
  rw [sampleSystem_view] at recovers
  refine ⟨_, lost, ?_⟩
  rcases recovers with ⟨after, ran, signed⟩ | stopped
  · exact Or.inl ⟨after, ran, signed samplePath target
      (sampleCache_samplePath ▸ Option.some_ne_none _)⟩
  · exact Or.inr stopped

/-! ## What is signed on the disk -/

/--
Once the files of a key and the narinfo files that it has signed are on the
disk, every one of these is accepted under that key and `--require-pqc`, at
every moment while other keys sign and are made and the power is lost.
-/
theorem keygen_sign_verify_power_loss (correct : primitives.Correct)
    {pid signerPid : Nat} {faults : KeygenFaults} {name : Str}
    {signer : HybridSigner} {cacheDir outDir : Path} {first second : Disk}
    {keyRead : Bool} {listed : List DirEntry} {rand : Rand}
    (made : (cmdKeygen primitives pid faults name signer outDir).run first =
      .ok () second)
    (complete : Complete cacheDir second (some listed))
    (signed : (cmdSign primitives signerPid keyRead (some listed) rand
      cacheDir (secretPath outDir name)).run second =
        .ok () start.world.view)
    (idle : ∀ pid, start.job pid = none)
    (others : ∀ pid other, processes.signs pid cacheDir other →
      other.secret.name ≠ name)
    (reached : Relation.ReflTransGen
      (PowerStep umask (Asks primitives processes) False) (.boot start)
        machine)
    {spell : Str → Path} {narinfoPath pqcPubkeyPath : Str}
    (target : IsTarget cacheDir (spell narinfoPath))
    (present : second (spell narinfoPath) ≠ none)
    (pubSpelled : spell pqcPubkeyPath = pubPath outDir name) :
    cmdVerify primitives (files spell machine.system.world.view) narinfoPath
      (some (entryOf name
        (signer.verifyingKeys primitives).ed25519.toList))
      (some pqcPubkeyPath) true = .ok () :=
  accepted_of_planned correct made complete signed others
    (sane_of_powered idle (asks_sound start.world.view) reached).1 target
      present pubSpelled

/-- Another key signs, and the machine loses its power. -/
theorem keygen_sign_verify_power_loss_sample :
    ∃ start machine,
      Relation.ReflTransGen (PowerStep 0o022 (Asks Primitives.transparent
        sampleProcesses) False) (.boot start) (.boot machine) ∧
      cmdVerify Primitives.transparent (files spellHere machine.world.view)
        "a.narinfo".toList
        (some (entryOf madeKey.name (madeKey.signer.verifyingKeys
          Primitives.transparent).ed25519.toList))
        (some "m.pub".toList) true = .ok () := by
  rcases sample_signed_again with ⟨start, system, ran, noJobs, reached⟩
  rcases @powered_of_reached _ _ _ False _ _ noJobs
    (asks_sound start.world.view) reached with ⟨machine, powered, rfl, -⟩
  have lost := restart_reached noJobs (asks_sound start.world.view) powered
  exact ⟨start, _, lost, @keygen_sign_verify_power_loss _ _ sampleProcesses
    0o022 start _ Primitives.transparent_correct 7 7 {} madeKey.name
    madeKey.signer Path.currentDir Path.currentDir sampleCache madeCache
    false _ () madeCache_made madeCache_complete ran noJobs
    sampleProcesses_others lost spellHere _ _ ⟨by decide, _, rfl⟩
    madeCache_samplePath rfl⟩

/-! ## What is lost -/

/--
That a command has succeeded does not mean that its files stay: the directory
in which they are is not synced, so even where `sync_all` works each path can be
found after a power loss as it was before.
-/
theorem success_not_durable {system : System}
    (idle : ∀ pid, start.job pid = none)
    (reached : Relation.ReflTransGen
      (ConcurrentJobs.Step umask (Asks primitives processes)) start system) :
    ∃ machine, Relation.ReflTransGen
        (PowerStep umask (Asks primitives processes) False) (.boot start)
          machine ∧ machine.system = system ∧
      ∀ disk : Disk, (∀ path, disk path = system.world.view path ∨
        disk path = start.world.view path) → machine.Survives disk :=
  survives_either idle (asks_sound start.world.view) reached

/-- The narinfo was signed, and is not after the power was lost. -/
theorem success_not_durable_sample :
    ∃ machine signed, sampleInfo.toText ≠ signed ∧
      Relation.ReflTransGen (PowerStep 0o022
        (Asks Primitives.transparent sampleProcesses) False)
          (.boot sampleSystem) machine ∧
      machine.system.world.view samplePath =
        some (.file (asBytes signed)) ∧
      machine.Survives sampleCache := by
  rcases sample_reached with ⟨system, signed, changed, reached, view⟩
  rcases success_not_durable (fun _ => rfl) reached with
    ⟨machine, powered, rfl, survives⟩
  refine ⟨machine, signed, changed, powered, ?_, survives _ fun path => ?_⟩
  · rw [view, Function.update_self]
  · exact Or.inr (congrFun sampleSystem_view path).symm

/--
Nobody asks whether `sync_all` has worked.  Whatever the processes do, and
whatever they report, a machine on which it fails can show them the same at
every step, and lose its power after any of these so that any bytes stand at
any of the paths that they have written.
-/
theorem ignored_sync_failure (idle : ∀ pid, start.job pid = none)
    {run : List System}
    (chain : List.IsChain
      (ConcurrentJobs.Step umask (Asks primitives processes))
        (start :: run)) :
    ∃ machines, List.IsChain
        (PowerStep umask (Asks primitives processes) True)
          (.boot start :: machines) ∧
      machines.map Machine.system = run ∧
      ∀ machine ∈ .boot start :: machines, ∀ disk : Disk,
        (∀ path, disk path = machine.system.world.view path ∨
          ¬ IsTmp path ∧
            machine.system.world.entry path ≠ start.world.entry path ∧
              ∃ bytes, disk path = some (.file bytes)) →
          machine.Survives disk :=
  survives_anything idle (asks_sound start.world.view) chain

/-- The narinfo was signed, and is empty after the power was lost. -/
theorem ignored_sync_failure_sample :
    ∃ machines, ∃ machine ∈ Machine.boot sampleSystem :: machines,
      ∃ signed, List.IsChain (PowerStep 0o022
          (Asks Primitives.transparent sampleProcesses) True)
            (.boot sampleSystem :: machines) ∧
        machine.system.world.view samplePath =
          some (.file (asBytes signed)) ∧
        machine.Survives (Function.update machine.system.world.view
          samplePath (some (.file []))) := by
  rcases sample_reached with ⟨system, signed, changed, reached, view⟩
  rcases List.exists_isChain_cons_of_relationReflTransGen reached with
    ⟨run, chain, rfl⟩
  rcases ignored_sync_failure (fun _ => rfl) chain with
    ⟨machines, powered, shown, survives⟩
  have last : ∃ machine ∈ Machine.boot sampleSystem :: machines,
      machine.system = (sampleSystem :: run).getLast (List.cons_ne_nil _ _) :=
    List.mem_map.mp (by
      rw [List.map_cons, shown]
      exact List.getLast_mem _)
  rcases last with ⟨machine, member, same⟩
  have now : machine.system.world.view samplePath =
      some (.file (asBytes signed)) := by
    rw [same, view, Function.update_self]
  refine ⟨machines, machine, member, signed, powered, now,
    survives machine member _ fun path => ?_⟩
  by_cases here : path = samplePath
  · refine Or.inr ⟨?_, ?_, [], by rw [here, Function.update_self]⟩
    · rw [here]
      exact not_isTmp_of_isNarinfo (by decide)
    · rw [here, same]
      apply moved_of_changed (fun _ => rfl)
        (asks_sound sampleSystem.world.view) reached
      rw [← same, now, sampleSystem_samplePath]
      intro equal
      rw [Option.some.injEq, Node.file.injEq] at equal
      exact changed (asBytes_injective equal).symm
  · exact Or.inl (Function.update_of_ne here _ _)

end NixPqcCache.PowerLossCommands
