import Mathlib.Data.ENat.Basic

/-!
# Attempts that may fail

Somebody tries again and again.  An attempt that fails changes the state too,
and where every failure uses up a part of some measure that no attempt
restores, the measure bounds the number of failures.
-/

namespace NixPqcCache.Foundation.Attempts

variable {σ : Type*}

/-- Some attempts in a row, and how many of them have failed. -/
inductive Tried (works fails : σ → σ → Prop) (start : σ) :
    Nat → σ → Prop where
  | nothing : Tried works fails start 0 start
  | worked {before after : σ} {failures : Nat}
      (earlier : Tried works fails start failures before)
      (last : works before after) : Tried works fails start failures after
  | failed {before after : σ} {failures : Nat}
      (earlier : Tried works fails start failures before)
      (last : fails before after) :
      Tried works fails start (failures + 1) after

variable {works fails : σ → σ → Prop} {start final : σ} {failures : Nat}
  {Invariant : σ → Prop}

/-- What both kinds of attempts keep holds after any number of them. -/
theorem Tried.invariant
    (ofWorks : ∀ before after, Invariant before → works before after →
      Invariant after)
    (ofFails : ∀ before after, Invariant before → fails before after →
      Invariant after)
    (holds : Invariant start)
    (tried : Tried works fails start failures final) : Invariant final := by
  induction tried with
  | nothing => exact holds
  | worked _ last induction => exact ofWorks _ _ induction last
  | failed _ last induction => exact ofFails _ _ induction last

/-- Every failure uses up a part of the measure. -/
theorem Tried.failures_add_le {measure : σ → ℕ∞}
    (ofWorks : ∀ before after, Invariant before → works before after →
      Invariant after ∧ measure after ≤ measure before)
    (ofFails : ∀ before after, Invariant before → fails before after →
      Invariant after ∧ measure after + 1 ≤ measure before)
    (holds : Invariant start)
    (tried : Tried works fails start failures final) :
    failures + measure final ≤ measure start := by
  have kept {state : σ} {count : Nat}
      (tried : Tried works fails start count state) : Invariant state :=
    tried.invariant (fun _ _ before last => (ofWorks _ _ before last).1)
      (fun _ _ before last => (ofFails _ _ before last).1) holds
  induction tried with
  | nothing => simp
  | worked earlier last induction =>
      have bound := (ofWorks _ _ (kept earlier) last).2
      exact (add_le_add_right bound _).trans induction
  | @failed before after failures earlier last induction =>
      have bound := (ofFails _ _ (kept earlier) last).2
      calc
        ((failures + 1 : Nat) : ℕ∞) + measure after =
            failures + (measure after + 1) := by
          rw [Nat.cast_add, Nat.cast_one, add_assoc,
            add_comm 1 (measure after)]
        _ ≤ failures + measure before := add_le_add_right bound _
        _ ≤ measure start := induction

end NixPqcCache.Foundation.Attempts
