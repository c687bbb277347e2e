import NixPqcCache.Foundation.Runs

/-!
# Input that arrives in pieces

A step that takes a list of inputs may be given them in pieces.  It is
divisible if taking one piece and then another is taking both at once, in the
states that it passes through.  A run then depends on the inputs alone, and not
on how they were cut.

The example is a buffer that keeps everything it is given, up to a number of
inputs that it may hold.
-/

namespace NixPqcCache.Foundation.Pieces

universe u

variable {α ε σ : Type u}

/-- Taking pieces one after another is taking them at once. -/
structure Divisible (Invariant : σ → Prop)
    (take : σ → List α → Except ε σ) : Prop where
  nothing : ∀ state, Invariant state → take state [] = .ok state
  append : ∀ state first second, Invariant state →
    take state (first ++ second) =
      take state first >>= fun next => take next second
  preserved : ∀ state piece next, Invariant state →
    take state piece = .ok next → Invariant next

namespace Divisible

variable {Invariant : σ → Prop} {take : σ → List α → Except ε σ}
  {start : σ}

/-- A run over pieces takes all of their inputs at once. -/
theorem foldlM_eq (divisible : Divisible Invariant take)
    (holds : Invariant start) (pieces : List (List α)) :
    pieces.foldlM take start = take start pieces.flatten := by
  induction pieces generalizing start with
  | nil => exact (divisible.nothing start holds).symm
  | cons piece pieces induction =>
      rw [List.foldlM_cons, List.flatten_cons, divisible.append _ _ _ holds]
      cases taken : take start piece with
      | error cause => rfl
      | ok next =>
          exact induction (divisible.preserved _ _ _ holds taken)

end Divisible

/-! ## A buffer with a cap -/

/-- Keep everything, or fail once there are more inputs than the cap. -/
def keep (cap : Nat) (cause : ε) (kept piece : List α) : Except ε (List α) :=
  if cap < (kept ++ piece).length then
    .error cause
  else
    .ok (kept ++ piece)

variable {cap : Nat} {cause : ε} {kept piece next : List α}

theorem keep_of_lt (exceeds : cap < (kept ++ piece).length) :
    keep cap cause kept piece = .error cause :=
  if_pos exceeds

theorem keep_of_le (fits : (kept ++ piece).length ≤ cap) :
    keep cap cause kept piece = .ok (kept ++ piece) :=
  if_neg (Nat.not_lt.mpr fits)

theorem keep_eq_ok_iff :
    keep cap cause kept piece = .ok next ↔
      (kept ++ piece).length ≤ cap ∧ next = kept ++ piece := by
  rw [keep, Runs.ite_error_eq_ok_iff, Nat.not_lt, Except.ok.injEq,
    @eq_comm _ next]

/-- The buffer is bounded, and what it keeps does not depend on the cuts. -/
theorem keep_divisible (cap : Nat) (cause : ε) :
    Divisible (fun kept : List α => kept.length ≤ cap) (keep cap cause) where
  nothing kept bound := by
    apply keep_eq_ok_iff.mpr
    rw [List.append_nil]
    exact ⟨bound, rfl⟩
  append kept first second bound := by
    rcases Nat.lt_or_ge cap (kept ++ first).length with exceeds | fits
    · -- what follows cannot make the inputs fewer
      have more : cap < (kept ++ (first ++ second)).length := by
        rw [← List.append_assoc, List.length_append]
        exact Nat.lt_of_lt_of_le exceeds (Nat.le_add_right _ _)
      rw [keep_of_lt exceeds, keep_of_lt more]
      rfl
    · rw [keep_of_le fits]
      show keep cap cause kept (first ++ second) =
        keep cap cause (kept ++ first) second
      rw [keep, keep, List.append_assoc]
  preserved kept piece next bound taken := by
    rcases keep_eq_ok_iff.mp taken with ⟨fits, rfl⟩
    exact fits

end NixPqcCache.Foundation.Pieces
