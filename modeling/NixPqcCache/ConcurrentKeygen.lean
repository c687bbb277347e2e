import NixPqcCache.ConcurrentCommands

/-!
# Making keys at the same time

Each key file is refused if it exists when its process looks, which may be
some time before the file is written.  Two processes that make a key of one
name at the same time can therefore both succeed; a key file that was there
before any of them is safe, and every new one is complete.

A secret is created with the bits of a private file and keeps them when it is
renamed, so at no moment does a file with a part of a secret have a bit for
its group or for others.
-/

namespace NixPqcCache.ConcurrentKeygen

open NixPqcCache.ConcurrentCommands
open NixPqcCache.ConcurrentJobs
open NixPqcCache.ConcurrentWrites
open NixPqcCache.Data
open NixPqcCache.DiskCommands
open NixPqcCache.Hybrid
open NixPqcCache.KeyFiles
open NixPqcCache.KeygenRuns
open NixPqcCache.Keys
open NixPqcCache.Paths
open NixPqcCache.SignRuns
open NixPqcCache.Writes

variable {Rand : Type} {primitives : Primitives Rand}

/-! ## Key files -/

section KeyFiles

variable {processes : Processes Rand} {outDir path : Path} {umask : Mode}
  {start system : System} {secret : SecretKey}

/-- What is written at a key file is one of two files of a key. -/
theorem saves_of_outcome {disk : Disk} {job : Job}
    (outcome : Outcome primitives processes disk job)
    (keyFile : IsKeyFile outDir job.target) :
    disk job.target = none ∧ ∃ pid dir secret,
      processes.makes pid dir secret ∧
        validateKeyName secret.name = .ok () ∧
          Saves primitives dir secret job := by
  cases outcome with
  | signed narinfo _ _ _ _ =>
      have other := not_isNarinfo_of_isKeyFile keyFile
      change isNarinfo (Path.join _ _) = false at other
      rw [narinfo] at other
      cases other
  | saved makes valid saves free =>
      exact ⟨free, _, _, _, makes, valid, saves⟩

/-- A key file is as it was, or one that was saved where nothing was. -/
theorem keyFile_of_reached (idle : ∀ pid, start.job pid = none)
    (reached : Relation.ReflTransGen
      (ConcurrentJobs.Step umask (Asks primitives processes)) start system)
    (keyFile : IsKeyFile outDir path) :
    system.look path = start.look path ∨
      start.look path = none ∧ ∃ job pid dir secret,
        processes.makes pid dir secret ∧
          validateKeyName secret.name = .ok () ∧
            Saves primitives dir secret job ∧ job.target = path ∧
              system.look path =
                some (.file job.contents, job.mode umask) := by
  rcases (outcome_of_reached idle reached).2 path
    (not_isTmp_of_isKeyFile keyFile) with same | ⟨job, outcome, rfl, now⟩
  · exact Or.inl same
  · rcases saves_of_outcome outcome keyFile with
      ⟨free, pid, dir, secret, makes, valid, saves⟩
    have absent : start.look job.target = none := by
      rw [System.look, World.view_eq_none_iff.mp free, Option.map_none]
    exact Or.inr ⟨absent, job, pid, dir, secret, makes, valid, saves, rfl,
      now⟩

/-- A key that a process makes in a directory, as its file is found. -/
def FoundAt (processes : Processes Rand) (outDir : Path) (name : Str)
    (contents : SecretKey → Str) (bits : Mode)
    (looks : Option (Node × Mode)) : Prop :=
  ∃ pid secret, processes.makes pid outDir secret ∧ secret.name = name ∧
    validateKeyName secret.name = .ok () ∧
      looks = some (.file (asBytes (contents secret)), bits)

theorem secretPath_inj_iff {dir : Path} {name other : Str} :
    secretPath dir name = secretPath outDir other ↔
      dir = outDir ∧ name = other := by
  simp [secretPath, Path.join_eq_join_iff, asBytes_injective.eq_iff]

theorem pubPath_inj_iff {dir : Path} {name other : Str} :
    pubPath dir name = pubPath outDir other ↔
      dir = outDir ∧ name = other := by
  simp [pubPath, Path.join_eq_join_iff, asBytes_injective.eq_iff]

theorem secretPath_ne {dir : Path} {name other : Str} :
    secretPath dir name ≠ pubPath outDir other := by
  intro equal
  rcases (Path.join_eq_join_iff.mp equal).1 with rfl
  exact secretPath_ne_pubPath equal

/-- The file at the path of a secret is that of the secret. -/
theorem secretJob_of_saves {dir : Path} {job : Job} {name : Str}
    (saves : Saves primitives dir secret job)
    (target : job.target = secretPath outDir name) :
    dir = outDir ∧ secret.name = name ∧ job = secretJob dir secret := by
  cases saves with
  | secretFile =>
      rcases secretPath_inj_iff.mp target with ⟨same, named⟩
      exact ⟨same, named, rfl⟩
  | pubFile => exact (secretPath_ne target.symm).elim

theorem pubJob_of_saves {dir : Path} {job : Job} {name : Str}
    (saves : Saves primitives dir secret job)
    (target : job.target = pubPath outDir name) :
    dir = outDir ∧ secret.name = name ∧ job = pubJob primitives dir secret := by
  cases saves with
  | secretFile => exact (secretPath_ne target).elim
  | pubFile =>
      rcases pubPath_inj_iff.mp target with ⟨same, named⟩
      exact ⟨same, named, rfl⟩

/-- A key file of a name is as it was, or that of a key made there. -/
theorem foundAt_of_reached {file : Path → SecretKey → Job}
    {body : SecretKey → Str} {bits : Mode} {name : Str}
    (idle : ∀ pid, start.job pid = none)
    (reached : Relation.ReflTransGen
      (ConcurrentJobs.Step umask (Asks primitives processes)) start system)
    (keyFile : IsKeyFile outDir path)
    (own : ∀ dir secret job, Saves primitives dir secret job →
      job.target = path →
        dir = outDir ∧ secret.name = name ∧ job = file dir secret)
    (stored : ∀ secret, (file outDir secret).contents =
      asBytes (body secret) ∧ (file outDir secret).mode umask = bits) :
    system.look path = start.look path ∨
      start.look path = none ∧
        FoundAt processes outDir name body bits (system.look path) := by
  rcases keyFile_of_reached idle reached keyFile with
    same | ⟨absent, job, pid, dir, secret, makes, valid, saves, target, now⟩
  · exact Or.inl same
  · rcases own dir secret job saves target with ⟨rfl, named, rfl⟩
    rw [(stored secret).1, (stored secret).2] at now
    exact Or.inr ⟨absent, pid, secret, makes, named, valid, now⟩

/--
However the processes interleave, fail and end, a key file that was there is
never replaced, and a new one is at every moment complete and loads as a key
that some process makes there under that name.  If no two keys that are made
there have one name, the two new files of a name are a pair.
-/
theorem concurrent_keygen (idle : ∀ pid, start.job pid = none)
    (reached : Relation.ReflTransGen
      (ConcurrentJobs.Step umask (Asks primitives processes)) start system)
    (outDir : Path) :
    (∀ path, IsKeyFile outDir path → start.look path ≠ none →
      system.look path = start.look path) ∧
      (∀ name, start.look (secretPath outDir name) = none →
        system.look (secretPath outDir name) ≠ none →
        ∃ pid secret text, processes.makes pid outDir secret ∧
          system.look (secretPath outDir name) =
            some (.file (asBytes text), 0o600 &&& ~~~umask) ∧
          SecretKey.loadText text = .ok secret ∧ secret.name = name) ∧
      (∀ name, start.look (pubPath outDir name) = none →
        system.look (pubPath outDir name) ≠ none →
        ∃ pid secret text, processes.makes pid outDir secret ∧
          system.look (pubPath outDir name) =
            some (.file (asBytes text), 0o644 &&& ~~~umask) ∧
          PublicKey.loadText text = .ok (secret.publicKey primitives) ∧
          secret.name = name) ∧
      ((∀ pid other secret another, processes.makes pid outDir secret →
        processes.makes other outDir another → secret.name = another.name →
          secret = another) →
        ∀ name, start.look (secretPath outDir name) = none →
          start.look (pubPath outDir name) = none →
          system.look (secretPath outDir name) ≠ none →
          system.look (pubPath outDir name) ≠ none →
          ∃ secret, secret.name = name ∧
            Saved primitives outDir system.world.view secret) := by
  have secrets (name : Str) :
      system.look (secretPath outDir name) =
          start.look (secretPath outDir name) ∨
        start.look (secretPath outDir name) = none ∧
          FoundAt processes outDir name SecretKey.body (0o600 &&& ~~~umask)
            (system.look (secretPath outDir name)) :=
    foundAt_of_reached idle reached isKeyFile_secretPath
      (fun _ _ _ saves => secretJob_of_saves saves) fun _ => ⟨rfl, rfl⟩
  have pubs (name : Str) :
      system.look (pubPath outDir name) = start.look (pubPath outDir name) ∨
        start.look (pubPath outDir name) = none ∧
          FoundAt processes outDir name
            (fun secret => (secret.publicKey primitives).body)
            (0o644 &&& ~~~umask) (system.look (pubPath outDir name)) :=
    foundAt_of_reached idle reached isKeyFile_pubPath
      (fun _ _ _ saves => pubJob_of_saves saves) fun _ => ⟨rfl, rfl⟩
  refine ⟨?_, ?_, ?_, ?_⟩
  · intro path keyFile present
    rcases keyFile_of_reached idle reached keyFile with same | ⟨absent, -⟩
    · exact same
    · exact (present absent).elim
  · intro name absent present
    rcases secrets name with same | ⟨-, pid, secret, makes, named, valid, now⟩
    · exact (present (same.trans absent)).elim
    · exact ⟨pid, secret, _, makes, now, loadText_secretBody valid, named⟩
  · intro name absent present
    rcases pubs name with same | ⟨-, pid, secret, makes, named, valid, now⟩
    · exact (present (same.trans absent)).elim
    · exact ⟨pid, secret, _, makes, now,
        loadText_publicKey_body primitives valid, named⟩
  · intro unique name secretAbsent pubAbsent secretPresent pubPresent
    rcases secrets name with same | ⟨-, pid, secret, makes, rfl, valid, now⟩
    · exact (secretPresent (same.trans secretAbsent)).elim
    · rcases pubs secret.name with
        same | ⟨-, other, another, otherMakes, named, -, pubNow⟩
      · exact (pubPresent (same.trans pubAbsent)).elim
      · rcases unique pid other secret another makes otherMakes named.symm
          with rfl
        refine ⟨secret, rfl, valid, ?_, ?_⟩
        · rw [System.view_eq_map_look, now]
          rfl
        · rw [System.view_eq_map_look, pubNow]
          rfl

end KeyFiles

/-- An empty current directory, and processes without a job. -/
def emptySystem : System where
  world :=
    { entry := Function.update (fun _ => none) Path.currentDir (some 0)
      data := fun _ => .directory
      next := 1
      bounded := by
        apply Bounded.update _ _ (by simp)
        intro path inode absent
        cases absent
      phase := fun _ => .waiting }
  mode := fun _ => 0o755
  job := fun _ => none

theorem emptySystem_view : emptySystem.world.view = emptyDirectory := by
  funext path
  simp only [World.view, emptySystem, emptyDirectory, Function.update_apply]
  split
  next => rfl
  next => rfl

/-- A key. -/
def sampleKey : SecretKey := ⟨"k".toList, numberedSigner 1⟩

/-- Every process makes that key. -/
def keyMakers : Processes Unit where
  signs _ _ _ := False
  makes _ _ secret := secret = sampleKey

/-- A process has saved the pair of the key. -/
theorem concurrent_keygen_sample :
    ∃ system, Relation.ReflTransGen (ConcurrentJobs.Step 0o022
        (Asks Primitives.transparent keyMakers)) emptySystem system ∧
      ∃ secret, secret.name = sampleKey.name ∧
        Saved Primitives.transparent Path.currentDir system.world.view
          secret := by
  have onDisk : OnDisk emptySystem.world.view Path.currentDir := by
    intro names onTheWay
    rw [List.prefix_nil.mp onTheWay]
    exact Option.some_ne_none _
  rcases @cmdKeygen_reached _ Primitives.transparent keyMakers
    Path.currentDir 0o022 emptySystem 7 _ _ rfl rfl onDisk {} with
    ⟨system, reached, -, view⟩
  have saved : system.world.view = pairSaved := by
    rw [view, emptySystem_view]
    rfl
  have present {path : Path} (found : pairSaved path ≠ none) :
      system.look path ≠ none := by
    intro absent
    rw [← saved, System.view_eq_map_look, absent] at found
    exact found rfl
  refine ⟨system, reached, (concurrent_keygen (fun _ => rfl) reached
    Path.currentDir).2.2.2 ?_ _ ?_ ?_ (present ?_) (present ?_)⟩
  · rintro _ _ _ _ rfl rfl -
    rfl
  · rfl
  · rfl
  · exact Option.some_ne_none _
  · exact Option.some_ne_none _

/-! ## Secrets -/

/-- The bits of a secret file give nothing to the group and to others. -/
theorem private_of_secret {job : Job} (secrecy : job.secret = true)
    (umask : Mode) : job.mode umask &&& 0o077 = 0 := by
  have disjoint : (0o600 : Mode) &&& 0o077 = 0 := by decide
  rw [Job.mode, secrecy, if_pos rfl, BitVec.and_assoc,
    BitVec.and_comm (~~~umask), ← BitVec.and_assoc, disjoint]
  exact BitVec.zero_and

/--
In every state reached, whatever was interrupted, a file made since the start
either has no bit for its group and others, or holds a beginning of a public
key file or of a signed narinfo.
-/
theorem secrets_stay_private {processes : Processes Rand} {umask : Mode}
    {start system : System} (idle : ∀ pid, start.job pid = none)
    (reached : Relation.ReflTransGen
      (ConcurrentJobs.Step umask (Asks primitives processes)) start system)
    {inode : Nat} (recent : start.world.next ≤ inode)
    (known : inode < system.world.next) :
    system.mode inode &&& 0o077 = 0 ∨
      ∃ text count,
        system.world.data inode = .file ((asBytes text).take count) ∧
          ((∃ pid outDir secret, processes.makes pid outDir secret ∧
            text = (secret.publicKey primitives).body) ∨
              ∃ original history, history ≠ [] ∧
                (∀ signing ∈ history, ∃ pid cacheDir,
                  processes.signs pid cacheDir signing) ∧
                rewriteAll primitives original history = .ok text) := by
  rcases (outcome_of_reached idle reached).1.made inode recent known with
    ⟨job, count, outcome, contents, bits⟩
  cases outcome with
  | @signed cacheDir _ original final history narinfo _ nonempty signers ran =>
      refine Or.inr ⟨final, count, contents, Or.inr ⟨original, history,
        nonempty, ?_, ran⟩⟩
      intro signing member
      rcases signers signing member with ⟨pid, signs⟩
      exact ⟨pid, cacheDir, signs⟩
  | @saved outDir secret _ pid makes _ saves _ =>
      cases saves with
      | secretFile =>
          rw [bits]
          exact Or.inl (private_of_secret rfl umask)
      | pubFile =>
          exact Or.inr ⟨_, count, contents,
            Or.inl ⟨pid, outDir, secret, makes, rfl⟩⟩

/-- A process crashes while it writes the secret file of the sample key. -/
theorem secrets_stay_private_sample :
    ∃ system, Relation.ReflTransGen (ConcurrentJobs.Step 0o022
        (Asks Primitives.transparent keyMakers)) emptySystem system ∧
      system.world.phase 7 = .crashed ∧
      system.world.data 1 = .file ((asBytes sampleKey.body).take 5) ∧
      (system.mode 1 &&& 0o077 = 0 ∨
        ∃ text count,
          system.world.data 1 = .file ((asBytes text).take count) ∧
            ((∃ pid outDir secret, keyMakers.makes pid outDir secret ∧
              text = (secret.publicKey Primitives.transparent).body) ∨
                ∃ original history, history ≠ [] ∧
                  (∀ signing ∈ history, ∃ pid cacheDir,
                    keyMakers.signs pid cacheDir signing) ∧
                  rewriteAll Primitives.transparent original history =
                    .ok text)) := by
  have asked : Asks Primitives.transparent keyMakers 7
      emptySystem.world.view (secretJob Path.currentDir sampleKey) :=
    @Asks.keygen _ _ _ _ _ Path.currentDir sampleKey _ rfl rfl .secretFile rfl
  have taken := Relation.ReflTransGen.refl.tail
    (@ConcurrentJobs.Step.take 0o022 _ emptySystem 7 _ rfl asked)
  have created := taken.tail (ConcurrentJobs.Step.call
    System.job_take_self ((ConcurrentWrites.Step.create (alone_self _ _)
      (World.phase_setPhase_self _ _ _) rfl).of_pid rfl))
  have partly := created.tail (ConcurrentJobs.Step.call
    System.job_take_self ((ConcurrentWrites.Step.append (alone_self _ _)
      (World.phase_setPhase_self _ _ _) 5).of_pid rfl))
  have crashed := partly.tail (ConcurrentJobs.Step.call
    System.job_take_self (ConcurrentWrites.Step.of_pid
      (ConcurrentWrites.Step.crash _ 7) rfl))
  exact ⟨_, crashed, World.phase_setPhase_self _ _ _, rfl,
    secrets_stay_private (fun _ => rfl) crashed (Nat.le_refl 1) (by decide)⟩

end NixPqcCache.ConcurrentKeygen
