import Mathlib.Data.List.Chain

/-!
# Runs that keep their effect

A computation in `EStateM` that fails leaves the state it had reached.  The
rules of a loop therefore speak about both of its ends: what every completed
step keeps holds when the loop is done, and what a failing step leaves holds
when it stops early.

A system that takes one step after another is the reflexive and transitive
closure of its steps, and what every step keeps holds in every state reached.
A system that can follow each step of another can follow each of its runs.
-/

namespace NixPqcCache.Foundation.Stateful

universe u v

variable {ε σ α : Type u}

/-- The state that a computation ends in, failed or not. -/
def finalState : EStateM.Result ε σ α → σ
  | .ok _ state => state
  | .error _ state => state

@[simp]
theorem finalState_ok (value : α) (state : σ) :
    finalState (.ok value state : EStateM.Result ε σ α) = state := rfl

@[simp]
theorem finalState_error (cause : ε) (state : σ) :
    finalState (.error cause state : EStateM.Result ε σ α) = state := rfl

/-! ## Sequences -/

section Sequences

variable {β : Type u} {first : EStateM ε σ α} {next : α → EStateM ε σ β}
  {start : σ}

theorem run_bind_of_ok {value : α} {middle : σ}
    (ran : first.run start = .ok value middle) :
    (first >>= next).run start = (next value).run middle := by
  rw [EStateM.run_bind, ran]

theorem run_bind_of_error {cause : ε} {middle : σ}
    (ran : first.run start = .error cause middle) :
    (first >>= next).run start = .error cause middle := by
  rw [EStateM.run_bind, ran]

/-- A sequence completes exactly if both of its parts do. -/
theorem run_bind_eq_ok_iff {value : β} {final : σ} :
    (first >>= next).run start = .ok value final ↔
      ∃ given middle, first.run start = .ok given middle ∧
        (next given).run middle = .ok value final := by
  cases ran : first.run start with
  | ok given middle =>
      rw [run_bind_of_ok ran]
      constructor
      · exact fun rest => ⟨given, middle, rfl, rest⟩
      · rintro ⟨_, _, same, rest⟩
        cases same
        exact rest
  | error cause middle =>
      rw [run_bind_of_error ran]
      constructor
      · intro stopped
        cases stopped
      · rintro ⟨_, _, same, -⟩
        cases same

end Sequences

/-! ## Loops -/

/-- The two ends of a loop, each with what holds there. -/
def EndsIn {ε σ : Type u} (Done Stopped : σ → Prop) :
    EStateM.Result ε σ PUnit → Prop
  | .ok _ state => Done state
  | .error _ state => Stopped state

/-- What holds at both ends holds of the final state. -/
theorem EndsIn.finalState {ε σ : Type u} {Done Stopped Either : σ → Prop}
    {result : EStateM.Result ε σ PUnit} (ended : EndsIn Done Stopped result)
    (ofDone : ∀ state, Done state → Either state)
    (ofStopped : ∀ state, Stopped state → Either state) :
    Either (finalState result) := by
  cases result with
  | ok value state => exact ofDone state ended
  | error cause state => exact ofStopped state ended

/--
A loop that completes has established its invariant for all of its inputs; one
that stops has left what its failing step leaves.
-/
theorem forM_endsIn {step : α → EStateM ε σ PUnit}
    {Invariant : List α → σ → Prop} {Stopped : σ → Prop}
    (completed : ∀ done input start final, Invariant done start →
      (step input).run start = .ok ⟨⟩ final →
        Invariant (done ++ [input]) final)
    (failed : ∀ done input start cause final, Invariant done start →
      (step input).run start = .error cause final → Stopped final)
    {inputs done : List α} {start : σ} (holds : Invariant done start) :
    EndsIn (Invariant (done ++ inputs)) Stopped
      ((inputs.forM step).run start) := by
  induction inputs generalizing done start with
  | nil =>
      rw [List.append_nil]
      exact holds
  | cons input inputs induction =>
      rw [List.forM_eq_forM, List.forM_cons]
      cases ran : (step input).run start with
      | error cause final =>
          rw [run_bind_of_error ran]
          exact failed done input start cause final holds ran
      | ok value final =>
          rw [run_bind_of_ok ran]
          have next := induction
            (completed done input start final holds ran)
          rwa [List.append_assoc] at next

/-! ## Systems -/

/-- What every step keeps holds in every state that is reached. -/
theorem invariant_of_reached {step : σ → σ → Prop} {Invariant : σ → Prop}
    (preserved : ∀ before after, Invariant before → step before after →
      Invariant after) {start final : σ} (holds : Invariant start)
    (reached : Relation.ReflTransGen step start final) :
    Invariant final := by
  induction reached with
  | refl => exact holds
  | tail earlier last induction => exact preserved _ _ induction last

/--
Where one system can follow every step of another, it can follow every run of
it step by step, and what it keeps holds throughout.
-/
theorem exists_isChain_of_follows {τ : Type v} {step : σ → σ → Prop}
    {answer : τ → τ → Prop} {shown : τ → σ} {Invariant : τ → Prop}
    (follows : ∀ before after, Invariant before →
      step (shown before) after →
        ∃ next, answer before next ∧ shown next = after ∧ Invariant next)
    {first : τ} (holds : Invariant first) {run : List σ}
    (chain : List.IsChain step (shown first :: run)) :
    ∃ answers, List.IsChain answer (first :: answers) ∧
      answers.map shown = run ∧ ∀ state ∈ first :: answers,
        Invariant state := by
  induction run generalizing first with
  | nil =>
      refine ⟨[], .singleton first, rfl, fun state member => ?_⟩
      rcases List.mem_singleton.mp member with rfl
      exact holds
  | cons after run induction =>
      rcases List.isChain_cons_cons.mp chain with ⟨step, rest⟩
      rcases follows first after holds step with ⟨next, answered, rfl, kept⟩
      rcases induction kept rest with ⟨answers, others, rfl, throughout⟩
      exact ⟨next :: answers, .cons_cons answered others, rfl,
        List.forall_mem_cons.mpr ⟨holds, throughout⟩⟩

end NixPqcCache.Foundation.Stateful
