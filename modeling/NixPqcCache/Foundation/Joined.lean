import Mathlib.Algebra.BigOperators.Group.List.Basic
import Mathlib.Algebra.GroupWithZero.Nat
import Mathlib.Algebra.Order.BigOperators.Group.List
import Mathlib.Data.Finset.Sort
import Mathlib.Data.List.Lex
import Mathlib.Data.List.Perm.Subperm

/-!
# Lists joined with a separator

A list of pieces joined with a separator can be read back when the pieces do
not contain the separator.  The two uniqueness results here ask for less.  If
the number of pieces is known, it is enough that one of two equal joins is
clean (`intercalate_injective_of_clean`), because the separators are then all
accounted for.  If every piece starts with one common nonempty prefix, the
prefix itself may contain the separator
(`intercalate_map_append_injective`).

A sorted list and the set of its pieces have the same join exactly when the
list has no repetitions (`intercalate_eq_sort_iff`).
-/

namespace NixPqcCache.Foundation.Joined

variable {α : Type*}

/-! ## Membership -/

theorem mem_intercalate_of_mem {separator symbol : α} {pieces : List (List α)}
    {piece : List α} (member : piece ∈ pieces) (inside : symbol ∈ piece) :
    symbol ∈ [separator].intercalate pieces := by
  induction pieces with
  | nil => cases member
  | cons head pieces induction =>
      cases pieces with
      | nil =>
          rw [List.mem_singleton.mp member] at inside
          simpa using inside
      | cons next pieces =>
          rw [List.intercalate_cons_cons]
          rcases List.mem_cons.mp member with rfl | later
          · simp [inside]
          · simp [induction later]

theorem not_mem_intercalate {separator symbol : α}
    (different : symbol ≠ separator) {pieces : List (List α)}
    (fresh : ∀ piece ∈ pieces, symbol ∉ piece) :
    symbol ∉ [separator].intercalate pieces := by
  induction pieces with
  | nil => simp
  | cons piece pieces induction =>
      rw [List.forall_mem_cons] at fresh
      cases pieces with
      | nil => simpa using fresh.1
      | cons next pieces =>
          rw [List.intercalate_cons_cons]
          simp [fresh.1, different, induction fresh.2]

/-! ## Length and number of separators -/

/-- What adds up over a join adds up over its pieces and its separators. -/
theorem measure_intercalate {measure : List α → Nat} {separator : α}
    (append : ∀ left right,
      measure (left ++ right) = measure left + measure right)
    (one : measure [separator] = 1) {pieces : List (List α)}
    (nonempty : pieces ≠ []) :
    measure ([separator].intercalate pieces) + 1 =
      (pieces.map fun piece => measure piece + 1).sum := by
  induction pieces with
  | nil => exact (nonempty rfl).elim
  | cons piece pieces induction =>
      cases pieces with
      | nil => simp
      | cons next pieces =>
          have rest := induction (by simp)
          rw [List.intercalate_cons_cons, List.map_cons, List.sum_cons, ← rest,
            append, append, one]
          omega

/-- Dropping some of the pieces makes the join shorter. -/
theorem length_intercalate_lt {separator : α}
    {whole kept dropped : List (List α)}
    (perm : whole.Perm (kept ++ dropped)) (keptNonempty : kept ≠ [])
    (droppedNonempty : dropped ≠ []) :
    ([separator].intercalate kept).length <
      ([separator].intercalate whole).length := by
  have wholeNonempty : whole ≠ [] := by
    rintro rfl
    exact keptNonempty (List.append_eq_nil_iff.mp perm.nil_eq.symm).1
  have length {pieces : List (List α)} (nonempty : pieces ≠ []) :=
    @measure_intercalate α List.length separator
      (fun _ _ => List.length_append) rfl pieces nonempty
  have wholeLength := length wholeNonempty
  have keptLength := length keptNonempty
  have droppedLength := length droppedNonempty
  rw [(perm.map _).sum_eq, List.map_append, List.sum_append, ← keptLength,
    ← droppedLength] at wholeLength
  omega

/-! ## Uniqueness -/

theorem clean_of_sum_eq_length [DecidableEq α] {separator : α}
    {pieces : List (List α)}
    (sum : (pieces.map fun piece => piece.count separator + 1).sum =
      pieces.length) :
    ∀ piece ∈ pieces, separator ∉ piece := by
  induction pieces with
  | nil => simp
  | cons piece pieces induction =>
      rw [List.map_cons, List.sum_cons, List.length_cons] at sum
      have bound :
          pieces.length ≤
            (pieces.map fun piece => piece.count separator + 1).sum := by
        simp [List.sum_map_add]
      have zero : piece.count separator = 0 := by omega
      rw [List.forall_mem_cons]
      exact ⟨List.count_eq_zero.mp zero, induction (by omega)⟩

theorem sum_eq_length_of_clean [DecidableEq α] {separator : α}
    {pieces : List (List α)}
    (clean : ∀ piece ∈ pieces, separator ∉ piece) :
    (pieces.map fun piece => piece.count separator + 1).sum =
      pieces.length := by
  induction pieces with
  | nil => simp
  | cons piece pieces induction =>
      rw [List.forall_mem_cons] at clean
      rw [List.map_cons, List.sum_cons, induction clean.2,
        List.count_eq_zero.mpr clean.1, List.length_cons]
      omega

/--
Two joins of equally many pieces are equal only if the pieces are, as soon as
the pieces on one side are free of the separator.
-/
theorem intercalate_injective_of_clean [DecidableEq α] {separator : α}
    {left right : List (List α)}
    (length : left.length = right.length)
    (clean : ∀ piece ∈ left, separator ∉ piece)
    (equal : [separator].intercalate left = [separator].intercalate right) :
    left = right := by
  by_cases empty : left = []
  · subst left
    exact (List.length_eq_zero_iff.mp length.symm).symm
  · have rightNonempty : right ≠ [] := by
      rintro rfl
      exact empty (List.length_eq_zero_iff.mp length)
    have count {pieces : List (List α)} (nonempty : pieces ≠ []) :=
      @measure_intercalate α (List.count separator) separator
        (fun _ _ => List.count_append) List.count_singleton_self pieces
          nonempty
    have rightSum :
        (right.map fun piece => piece.count separator + 1).sum =
          right.length := by
      rw [← count rightNonempty, ← equal, count empty,
        sum_eq_length_of_clean clean, length]
    rw [← List.splitOn_intercalate separator clean empty, equal,
      List.splitOn_intercalate separator (clean_of_sum_eq_length rightSum)
        rightNonempty]

theorem append_cons_injective {separator : α}
    {left right leftRest rightRest : List α}
    (leftClean : separator ∉ left) (rightClean : separator ∉ right)
    (equal : left ++ separator :: leftRest = right ++ separator :: rightRest) :
    left = right ∧ leftRest = rightRest := by
  induction left generalizing right with
  | nil =>
      cases right with
      | nil => simpa using equal
      | cons head right =>
          simp only [List.nil_append, List.cons_append,
            List.cons.injEq] at equal
          exact (rightClean (by simp [equal.1])).elim
  | cons symbol left induction =>
      cases right with
      | nil =>
          simp only [List.nil_append, List.cons_append,
            List.cons.injEq] at equal
          exact (leftClean (by simp [equal.1])).elim
      | cons head right =>
          simp only [List.cons_append, List.cons.injEq] at equal
          simp only [List.mem_cons, not_or] at leftClean rightClean
          rcases induction leftClean.2 rightClean.2 equal.2 with
            ⟨rfl, restEq⟩
          exact ⟨by rw [equal.1], restEq⟩

theorem intercalate_map_append_ne_nil {separator : α} {start : List α}
    (nonempty : start ≠ []) (piece : List α) (pieces : List (List α)) :
    [separator].intercalate ((piece :: pieces).map (start ++ ·)) ≠ [] := by
  cases pieces with
  | nil => simp [nonempty]
  | cons next pieces =>
      rw [List.map_cons, List.map_cons, List.intercalate_cons_cons]
      simp [nonempty]

/--
Pieces that all start with one common nonempty prefix are determined by their
join when what follows the prefix is free of the separator.
-/
theorem intercalate_map_append_injective {separator : α}
    {start : List α} (nonempty : start ≠ []) {left right : List (List α)}
    (leftClean : ∀ piece ∈ left, separator ∉ piece)
    (rightClean : ∀ piece ∈ right, separator ∉ piece)
    (equal : [separator].intercalate (left.map (start ++ ·)) =
      [separator].intercalate (right.map (start ++ ·))) :
    left = right := by
  induction left generalizing right with
  | nil =>
      cases right with
      | nil => rfl
      | cons head rest =>
          exact (intercalate_map_append_ne_nil nonempty head rest
            equal.symm).elim
  | cons piece left induction =>
      rw [List.forall_mem_cons] at leftClean
      cases right with
      | nil =>
          exact (intercalate_map_append_ne_nil nonempty piece left equal).elim
      | cons head right =>
          rw [List.forall_mem_cons] at rightClean
          cases left with
          | nil =>
              cases right with
              | nil => simpa using equal
              | cons next right =>
                  simp only [List.map_cons, List.map_nil,
                    List.intercalate_singleton, List.intercalate_cons_cons,
                    List.append_assoc, List.append_cancel_left_eq] at equal
                  exact (leftClean.1 (by simp [equal])).elim
          | cons nextLeft left =>
              cases right with
              | nil =>
                  simp only [List.map_cons, List.map_nil,
                    List.intercalate_singleton, List.intercalate_cons_cons,
                    List.append_assoc, List.append_cancel_left_eq] at equal
                  exact (rightClean.1 (by simp [← equal])).elim
              | cons nextRight right =>
                  rw [List.map_cons, List.map_cons, List.map_cons,
                    List.map_cons, List.intercalate_cons_cons,
                    List.intercalate_cons_cons, ← List.map_cons,
                    ← List.map_cons] at equal
                  simp only [List.append_assoc, List.append_cancel_left_eq,
                    List.singleton_append] at equal
                  rcases append_cons_injective leftClean.1 rightClean.1
                    equal with ⟨rfl, restEq⟩
                  rw [induction leftClean.2 rightClean.2 restEq]

/-! ## A list and its set -/

section Sets

variable [LinearOrder α]

theorem exists_perm_sort_append (pieces : List (List α)) :
    ∃ dropped, pieces.Perm (pieces.toFinset.sort (· ≤ ·) ++ dropped) := by
  have inside :
      (pieces.toFinset.sort (· ≤ ·)).Subperm pieces := by
    apply (Finset.sort_nodup _ _).subperm
    intro piece member
    simpa using member
  rcases List.subperm_iff.mp inside with ⟨arranged, perm, sublist⟩
  rcases sublist.exists_perm_append with ⟨dropped, split⟩
  exact ⟨dropped, perm.symm.trans split⟩

/--
Repetitions make the join of a sorted list longer than the join of its set.
-/
theorem intercalate_eq_sort_iff {separator : α} {pieces : List (List α)}
    (sorted : pieces.Pairwise (· ≤ ·)) :
    [separator].intercalate pieces =
        [separator].intercalate (pieces.toFinset.sort (· ≤ ·)) ↔
      pieces.Nodup := by
  constructor
  · intro equal
    rcases exists_perm_sort_append pieces with ⟨dropped, perm⟩
    by_cases none : dropped = []
    · rw [none, List.append_nil] at perm
      exact perm.nodup_iff.mpr (Finset.sort_nodup _ _)
    · have kept : pieces.toFinset.sort (· ≤ ·) ≠ [] := by
        intro empty
        have noPieces : pieces = [] := by
          have lengths := congrArg List.length empty
          simpa using lengths
        rw [noPieces] at perm
        exact none (List.append_eq_nil_iff.mp perm.nil_eq.symm).2
      have shorter :=
        @length_intercalate_lt α separator _ _ _ perm kept none
      rw [equal] at shorter
      exact (Nat.lt_irrefl _ shorter).elim
  · intro nodup
    rw [(List.toFinset_sort (· ≤ ·) nodup).mpr sorted]

end Sets

end NixPqcCache.Foundation.Joined
