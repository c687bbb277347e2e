import Mathlib.Logic.Basic

/-!
# Runs of a fallible step

A computation that may fail is a value of `Except`.  The inversion rules say
when a sequence or a guarded exit succeeds.

A loop that may fail is a fold in `Except`.  Its rules take a property of one
step to a property of every run: inversion at the first step, the first input
that fails, and simulation of a fold that cannot fail.
-/

namespace NixPqcCache.Foundation.Runs

universe u

variable {ε σ α : Type*}

theorem bind_eq_ok_iff {α β : Type u} {action : Except ε α}
    {next : α → Except ε β} {result : β} :
    (action >>= next) = .ok result ↔
      ∃ value, action = .ok value ∧ next value = .ok result := by
  cases action with
  | error cause =>
      constructor
      · intro impossible
        cases impossible
      · rintro ⟨value, impossible, -⟩
        cases impossible
  | ok value =>
      constructor
      · intro equal
        exact ⟨value, rfl, equal⟩
      · rintro ⟨other, equal, result⟩
        cases equal
        exact result

/-- Sequences agree if their rests agree on what the first part returns. -/
theorem bind_congr_of_ok {α β : Type u} {action : Except ε α}
    {left right : α → Except ε β}
    (agree : ∀ value, action = .ok value → left value = right value) :
    action >>= left = action >>= right := by
  cases action with
  | error cause => rfl
  | ok value => exact agree value rfl

theorem toOption_eq_some_iff {result : Except ε α} {value : α} :
    result.toOption = some value ↔ result = .ok value := by
  cases result with
  | error cause => simp [Except.toOption]
  | ok other => simp [Except.toOption]

theorem isOk_eq_true_iff {result : Except ε Unit} :
    result.isOk = true ↔ result = .ok () := by
  cases result with
  | error cause => simp [Except.isOk, Except.toBool]
  | ok value => simp [Except.isOk, Except.toBool]

/-! ## Guarded exits -/

variable {condition : Prop} [Decidable condition]

/-- Leaving with an error unless a condition fails. -/
theorem ite_error_eq_ok_iff {cause : ε} {rest : Except ε α} {value : α} :
    (if condition then .error cause else rest) = .ok value ↔
      ¬ condition ∧ rest = .ok value := by
  split
  next holds => simp [holds]
  next fails => simp [fails]

/-- Leaving with an error unless a condition holds. -/
theorem ite_ok_eq_ok_iff {cause : ε} {result value : α} :
    (if condition then .ok result else (.error cause : Except ε α)) =
        .ok value ↔
      condition ∧ result = value := by
  split
  next holds => simp [holds]
  next fails => simp [fails]

/-! ## Folds -/

variable {step : σ → α → Except ε σ}

theorem foldlM_cons_eq_ok_iff {input : α} {inputs : List α}
    {start final : σ} :
    (input :: inputs).foldlM step start = .ok final ↔
      ∃ next, step start input = .ok next ∧
        inputs.foldlM step next = .ok final := by
  rw [List.foldlM_cons, bind_eq_ok_iff]

/--
If a step fails or succeeds by its input alone, a run fails at its first
failing input and otherwise ends in what its inputs give.
-/
theorem foldlM_eq_findSome? {failure : α → Option ε} {given : List α → σ}
    (steps : ∀ inputs input, step (given inputs) input =
      (failure input).elim (.ok (given (inputs ++ [input]))) .error)
    (before inputs : List α) :
    inputs.foldlM step (given before) =
      (inputs.findSome? failure).elim (.ok (given (before ++ inputs)))
        .error := by
  induction inputs generalizing before with
  | nil =>
      rw [List.append_nil]
      rfl
  | cons input inputs induction =>
      rw [List.foldlM_cons, steps]
      cases fails : failure input with
      | some cause =>
          rw [List.findSome?_cons_of_isSome (by rw [fails]; rfl), fails]
          rfl
      | none =>
          rw [List.findSome?_cons_of_isNone (by rw [fails]; rfl)]
          apply (induction (before ++ [input])).trans
          rw [List.append_assoc]
          rfl

/--
If every step succeeds from a related state and follows a step of a model, a
run succeeds and follows the run of the model.
-/
theorem foldlM_simulates {τ : Type*} {Related : τ → σ → Prop}
    {model : τ → α → τ}
    (follows : ∀ state concrete input, Related state concrete →
      ∃ next, step concrete input = .ok next ∧
        Related (model state input) next)
    {inputs : List α} {state : τ} {start : σ} (related : Related state start) :
    ∃ final, inputs.foldlM step start = .ok final ∧
      Related (inputs.foldl model state) final := by
  induction inputs generalizing state start with
  | nil => exact ⟨start, rfl, related⟩
  | cons input inputs induction =>
      rcases follows state start input related with
        ⟨next, stepped, nextRelated⟩
      rcases induction nextRelated with ⟨final, ran, finalRelated⟩
      exact ⟨final, foldlM_cons_eq_ok_iff.mpr ⟨next, stepped, ran⟩,
        finalRelated⟩

/-- The same is seen of two results, unless one of them has stopped there. -/
def AlikeUnless {τ : Type*} (stopped : ε) (view : σ → τ)
    (left right : Except ε σ) : Prop :=
  left = .error stopped ∨ right = .error stopped ∨
    left.map view = right.map view

/--
If what is seen after a step depends only on what was seen before it, unless
the step stops, then so does what is seen after a run.
-/
theorem foldlM_alikeUnless {σ τ : Type u} {step : σ → α → Except ε σ}
    {view : σ → τ} {stopped : ε}
    (keeps : ∀ input state other, view state = view other →
      AlikeUnless stopped view (step state input) (step other input))
    {inputs : List α} {state other : σ} (same : view state = view other) :
    AlikeUnless stopped view (inputs.foldlM step state)
      (inputs.foldlM step other) := by
  induction inputs generalizing state other with
  | nil => exact Or.inr (Or.inr (congrArg Except.ok same))
  | cons input inputs induction =>
      rw [List.foldlM_cons, List.foldlM_cons]
      rcases keeps input state other same with left | right | stepped
      · exact Or.inl (by rw [left]; rfl)
      · exact Or.inr (Or.inl (by rw [right]; rfl))
      · cases left : step state input with
        | error cause =>
            cases right : step other input with
            | error otherCause =>
                rw [left, right] at stepped
                exact Or.inr (Or.inr
                  (congrArg Except.error (Except.error.inj stepped)))
            | ok next =>
                rw [left, right] at stepped
                cases stepped
        | ok next =>
            cases right : step other input with
            | error otherCause =>
                rw [left, right] at stepped
                cases stepped
            | ok otherNext =>
                rw [left, right] at stepped
                exact induction (Except.ok.inj stepped)

end NixPqcCache.Foundation.Runs
