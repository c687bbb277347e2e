import Mathlib.Algebra.Order.Group.Nat
import Mathlib.Algebra.GroupWithZero.Nat
import Mathlib.Algebra.Order.BigOperators.Group.List
import Mathlib.Data.List.DropRight
import Mathlib.Data.List.Infix

/-!
# Splitting and trimming text

List forms of the string operations a line-oriented format is read with.
Splitting at the first occurrence of a pattern, finding the last occurrence
of a symbol and trimming a repeated final symbol are stated over an arbitrary
alphabet.  Line splitting is stated for characters, because the two line
endings `"\n"` and `"\r\n"` are part of its meaning.

Each operation has one characterization: what its result says about the
input, and which inputs give that result.
-/

namespace NixPqcCache.Foundation.Text

variable {α : Type*} [DecidableEq α]

/-! ## The first occurrence of a pattern -/

/-- The text before and after the first occurrence of a pattern. -/
def splitOnce (pattern : List α) : List α → Option (List α × List α)
  | [] => if pattern = [] then some ([], []) else none
  | symbol :: rest =>
      if pattern <+: symbol :: rest then
        some ([], (symbol :: rest).drop pattern.length)
      else
        (splitOnce pattern rest).map fun halves =>
          (symbol :: halves.1, halves.2)

omit [DecidableEq α] in
theorem isPrefix_append_dropLast (before pattern after : List α) :
    before ++ pattern.dropLast <+: before ++ pattern ++ after :=
  (List.prefix_append_right_inj before |>.mpr
    (List.dropLast_prefix pattern)).trans (List.prefix_append _ _)

omit [DecidableEq α] in
theorem prefix_append_dropLast_of_pos
    {pattern before after : List α}
    (occurs : pattern <+: before ++ pattern ++ after)
    (nonempty : before ≠ []) :
    pattern <:+: before ++ pattern.dropLast := by
  have short : pattern.length ≤ (before ++ pattern.dropLast).length := by
    have positive : 0 < before.length :=
      List.length_pos_of_ne_nil nonempty
    simp only [List.length_append, List.length_dropLast]
    omega
  exact (List.prefix_of_prefix_length_le occurs
    (isPrefix_append_dropLast before pattern after) short).isInfix

omit [DecidableEq α] in
theorem not_infix_dropLast {pattern : List α} (nonempty : pattern ≠ []) :
    ¬ pattern <:+: pattern.dropLast := by
  intro inside
  have bound := inside.length_le
  have positive := List.length_pos_of_ne_nil nonempty
  rw [List.length_dropLast] at bound
  omega

omit [DecidableEq α] in
/-- An occurrence that a text does not start with starts later. -/
theorem infix_cons_dropLast_iff {symbol : α} {pattern before after : List α}
    (later : ¬ pattern <+: symbol :: (before ++ pattern ++ after)) :
    pattern <:+: symbol :: (before ++ pattern.dropLast) ↔
      pattern <:+: before ++ pattern.dropLast := by
  rw [List.infix_cons_iff]
  constructor
  · rintro (start | inside)
    · refine (later (start.trans ?_)).elim
      exact List.cons_prefix_cons.mpr
        ⟨rfl, isPrefix_append_dropLast before pattern after⟩
    · exact inside
  · exact Or.inr

theorem splitOnce_append {pattern : List α} (nonempty : pattern ≠ [])
    (suffix : List α) :
    splitOnce pattern (pattern ++ suffix) = some ([], suffix) := by
  cases pattern with
  | nil => exact (nonempty rfl).elim
  | cons head tail => simp [splitOnce]

theorem splitOnce_cons {symbol : α} {pattern rest : List α}
    (later : ¬ pattern <+: symbol :: rest) :
    splitOnce pattern (symbol :: rest) =
      (splitOnce pattern rest).map fun halves =>
        (symbol :: halves.1, halves.2) :=
  if_neg later

/--
Splitting succeeds exactly at the first occurrence: the pattern does not
occur again earlier, not even overlapping the occurrence that was found.
-/
theorem splitOnce_eq_some_iff
    {pattern text before after : List α}
    (nonempty : pattern ≠ []) :
    splitOnce pattern text = some (before, after) ↔
      text = before ++ pattern ++ after ∧
        ¬ pattern <:+: before ++ pattern.dropLast := by
  induction text generalizing before with
  | nil =>
      simp [splitOnce, nonempty]
  | cons symbol rest induction =>
      by_cases occurs : pattern <+: symbol :: rest
      · rcases occurs with ⟨suffix, suffixEq⟩
        rw [← suffixEq, splitOnce_append nonempty]
        constructor
        · intro equal
          obtain ⟨rfl, rfl⟩ : [] = before ∧ suffix = after := by
            simpa using equal
          exact ⟨rfl, not_infix_dropLast nonempty⟩
        · rintro ⟨equal, fresh⟩
          by_cases empty : before = []
          · subst before
            simpa using equal
          · have occurs : pattern <+: before ++ pattern ++ after := by
              rw [← equal]
              exact List.prefix_append _ _
            exact (fresh (prefix_append_dropLast_of_pos occurs empty)).elim
      · rw [splitOnce_cons occurs]
        constructor
        · intro equal
          rcases Option.map_eq_some_iff.mp equal with
            ⟨⟨first, last⟩, found, equal⟩
          obtain ⟨rfl, rfl⟩ : symbol :: first = before ∧ last = after := by
            simpa using equal
          rcases induction.mp found with ⟨rfl, fresh⟩
          refine ⟨by simp, ?_⟩
          rwa [List.cons_append, infix_cons_dropLast_iff occurs]
        · rintro ⟨equal, fresh⟩
          cases before with
          | nil =>
              refine (occurs ?_).elim
              rw [equal]
              exact List.prefix_append _ _
          | cons head before =>
              simp only [List.cons_append, List.cons.injEq] at equal
              rcases equal with ⟨rfl, rfl⟩
              rw [List.cons_append, infix_cons_dropLast_iff occurs] at fresh
              rw [induction.mpr ⟨rfl, fresh⟩]
              rfl

theorem splitOnce_eq_none_iff
    {pattern text : List α} (nonempty : pattern ≠ []) :
    splitOnce pattern text = none ↔ ¬ pattern <:+: text := by
  induction text with
  | nil =>
      simp [splitOnce, nonempty]
  | cons symbol rest induction =>
      by_cases occurs : pattern <+: symbol :: rest
      · simp [splitOnce, occurs, occurs.isInfix]
      · simp [splitOnce_cons, occurs, induction, List.infix_cons_iff]

/-- Splitting at one symbol: the first half is free of it. -/
theorem splitOnce_singleton_eq_some_iff
    {symbol : α} {text before after : List α} :
    splitOnce [symbol] text = some (before, after) ↔
      text = before ++ symbol :: after ∧ symbol ∉ before := by
  simp [splitOnce_eq_some_iff, List.singleton_infix_iff]

omit [DecidableEq α] in
theorem pair_infix_concat_iff
    {first second : α} (distinct : first ≠ second) {text : List α} :
    [first, second] <:+: text ++ [first] ↔ [first, second] <:+: text := by
  rw [List.infix_concat_iff]
  constructor
  · rintro (⟨before, equal⟩ | inside)
    · have lastEq : second = first := by
        have := congrArg List.getLast? equal
        simpa using this
      exact (distinct lastEq.symm).elim
    · exact inside
  · exact Or.inr

/--
Splitting at a pair of different symbols: the first half does not contain the
pair, whatever it ends in.
-/
theorem splitOnce_pair_eq_some_iff
    {first second : α} (distinct : first ≠ second)
    {text before after : List α} :
    splitOnce [first, second] text = some (before, after) ↔
      text = before ++ first :: second :: after ∧
        ¬ [first, second] <:+: before := by
  simp [splitOnce_eq_some_iff, pair_infix_concat_iff distinct]

/-! ## The last occurrence of a symbol -/

/-- The position of the last occurrence of a symbol. -/
def rfind (symbol : α) : List α → Option Nat
  | [] => none
  | head :: tail =>
      match rfind symbol tail with
      | some index => some (index + 1)
      | none => if head = symbol then some 0 else none

theorem rfind_eq_none_iff {symbol : α} {text : List α} :
    rfind symbol text = none ↔ symbol ∉ text := by
  induction text with
  | nil => simp [rfind]
  | cons head tail induction =>
      cases found : rfind symbol tail with
      | some index =>
          have member : symbol ∈ tail := by
            by_contra absent
            simp [induction.mpr absent] at found
          simp [rfind, found, member]
      | none =>
          have absent := induction.mp found
          by_cases equal : head = symbol
          · simp [rfind, found, equal]
          · simp [rfind, found, absent, equal, Ne.symm equal]

/-- The last occurrence is the one that no other occurrence follows. -/
theorem rfind_eq_some_iff {symbol : α} {text : List α} {index : Nat} :
    rfind symbol text = some index ↔
      ∃ before after, text = before ++ symbol :: after ∧
        before.length = index ∧ symbol ∉ after := by
  induction text generalizing index with
  | nil => simp [rfind]
  | cons head tail induction =>
      cases found : rfind symbol tail with
      | some later =>
          rcases induction.mp found with
            ⟨middle, last, rfl, rfl, fresh⟩
          simp only [rfind, found, Option.some.injEq]
          constructor
          · rintro rfl
            exact ⟨head :: middle, last, rfl, rfl, fresh⟩
          · rintro ⟨before, after, equal, rfl, otherFresh⟩
            cases before with
            | nil =>
                rw [List.nil_append, List.cons.injEq] at equal
                apply absurd otherFresh
                simp [← equal.2]
            | cons first before =>
                rw [List.cons_append, List.cons.injEq] at equal
                have again := induction.mpr
                  ⟨before, after, equal.2, rfl, otherFresh⟩
                rw [found, Option.some.injEq] at again
                simpa using again
      | none =>
          have absent := rfind_eq_none_iff.mp found
          simp only [rfind, found]
          constructor
          · intro selected
            split at selected
            next equal =>
              cases selected
              exact ⟨[], tail, by simp [equal], rfl, absent⟩
            next => cases selected
          · rintro ⟨before, after, equal, rfl, -⟩
            cases before with
            | nil =>
                rw [List.nil_append, List.cons.injEq] at equal
                simp [equal.1]
            | cons first before =>
                rw [List.cons_append, List.cons.injEq] at equal
                apply absurd absent
                simp [equal.2]

/-! ## Splitting at every separator -/

/-- No piece of a split contains the separator. -/
theorem not_mem_of_mem_splitOn {separator : α} {text piece : List α}
    (member : piece ∈ text.splitOn separator) : separator ∉ piece := by
  induction text generalizing piece with
  | nil =>
      rw [List.splitOn_nil, List.mem_singleton] at member
      simp [member]
  | cons symbol rest induction =>
      rw [List.splitOn_cons_eq_if_modifyHead] at member
      split at member
      next =>
        rcases List.mem_cons.mp member with rfl | later
        · simp
        · exact induction later
      next different =>
        cases split : rest.splitOn separator with
        | nil => exact (List.splitOn_ne_nil separator rest split).elim
        | cons head pieces =>
            rw [split, List.modifyHead_cons] at member
            rcases List.mem_cons.mp member with rfl | later
            · have headFresh : separator ∉ head :=
                induction (by simp [split])
              have notSymbol : separator ≠ symbol := by
                rintro rfl
                simp at different
              simp [headFresh, notSymbol]
            · exact induction (by simp [split, later])

/-! ## Trimming a repeated final symbol -/

/-- Remove every final occurrence of a symbol. -/
def trimEndMatches (symbol : α) (text : List α) : List α :=
  text.rdropWhile (· == symbol)

theorem trimEndMatches_prefix (symbol : α) (text : List α) :
    trimEndMatches symbol text <+: text :=
  List.rdropWhile_prefix _ _

theorem getLast?_trimEndMatches (symbol : α) (text : List α) :
    (trimEndMatches symbol text).getLast? ≠ some symbol := by
  intro last
  have nonempty : trimEndMatches symbol text ≠ [] := by
    intro empty
    simp [empty] at last
  rw [List.getLast?_eq_some_getLast nonempty, Option.some.injEq] at last
  exact List.rdropWhile_last_not (· == symbol) text nonempty
    (beq_iff_eq.mpr last)

theorem trimEndMatches_eq_self {symbol : α} {text : List α}
    (last : text.getLast? ≠ some symbol) :
    trimEndMatches symbol text = text := by
  rw [trimEndMatches, List.rdropWhile_eq_self_iff]
  intro nonempty equal
  apply last
  rw [List.getLast?_eq_some_getLast nonempty]
  simpa using equal

@[simp]
theorem trimEndMatches_concat (symbol : α) (text : List α) :
    trimEndMatches symbol (text ++ [symbol]) = trimEndMatches symbol text :=
  List.rdropWhile_concat_pos _ _ _ (beq_self_eq_true symbol)

/-! ## Lines -/

/-- Split after every separator, keeping the separators. -/
def splitInclusive (separator : α) : List α → List (List α)
  | [] => []
  | symbol :: rest =>
      if symbol = separator then
        [symbol] :: splitInclusive separator rest
      else
        match splitInclusive separator rest with
        | [] => [[symbol]]
        | piece :: pieces => (symbol :: piece) :: pieces

/-- Remove one line ending, `"\n"` or `"\r\n"`, when there is one. -/
def stripLineEnding (line : List Char) : List Char :=
  match line.dropSuffix? ['\n'] with
  | none => line
  | some body =>
      match body.dropSuffix? ['\r'] with
      | none => body
      | some body => body

/-- The lines of a text; the final line ending is optional. -/
def lines (text : List Char) : List (List Char) :=
  (splitInclusive '\n' text).map stripLineEnding

@[simp]
theorem lines_nil : lines [] = [] := rfl

theorem splitInclusive_append {separator : α} {piece : List α}
    (fresh : separator ∉ piece) (rest : List α) :
    splitInclusive separator (piece ++ separator :: rest) =
      (piece ++ [separator]) :: splitInclusive separator rest := by
  induction piece with
  | nil => simp [splitInclusive]
  | cons symbol piece induction =>
      simp only [List.mem_cons, not_or] at fresh
      simp [splitInclusive, induction fresh.2, Ne.symm fresh.1]

theorem splitInclusive_of_not_mem {separator : α} {piece : List α}
    (fresh : separator ∉ piece) (nonempty : piece ≠ []) :
    splitInclusive separator piece = [piece] := by
  induction piece with
  | nil => exact (nonempty rfl).elim
  | cons symbol piece induction =>
      rw [List.mem_cons, not_or] at fresh
      rw [splitInclusive, if_neg (Ne.symm fresh.1)]
      by_cases last : piece = []
      · rw [last, splitInclusive]
      · rw [induction fresh.2 last]

/-- A separator in a piece is its last symbol. -/
theorem splitInclusive_separator_last {separator : α} {text piece : List α}
    (member : piece ∈ splitInclusive separator text) :
    separator ∉ piece.dropLast := by
  induction text generalizing piece with
  | nil => simp [splitInclusive] at member
  | cons symbol rest induction =>
      simp only [splitInclusive] at member
      split at member
      next =>
        rcases List.mem_cons.mp member with rfl | later
        · simp
        · exact induction later
      next different =>
        split at member
        next =>
          rcases List.mem_singleton.mp member with rfl
          simp
        next head pieces split =>
          rcases List.mem_cons.mp member with rfl | later
          · have tail : separator ∉ head.dropLast :=
              induction (by simp [split])
            cases head with
            | nil => simp
            | cons next head =>
                simp [Ne.symm different, tail]
          · exact induction (by simp [split, later])

theorem stripLineEnding_append {line : List Char}
    (last : line.getLast? ≠ some '\r') :
    stripLineEnding (line ++ ['\n']) = line := by
  have newline : (line ++ ['\n']).dropSuffix? ['\n'] = some line :=
    List.dropSuffix?_eq_some_iff.mpr ⟨['\n'], rfl, by simp⟩
  have carriage : line.dropSuffix? ['\r'] = none := by
    cases stripped : line.dropSuffix? ['\r'] with
    | none => rfl
    | some body =>
        rcases List.dropSuffix?_eq_some_iff.mp stripped with
          ⟨suffix, rfl, equal⟩
        simp [beq_iff_eq.mp equal] at last
  simp [stripLineEnding, newline, carriage]

/-- A line that is written with a bare newline is read back unchanged. -/
theorem lines_append {line : List Char}
    (fresh : '\n' ∉ line) (last : line.getLast? ≠ some '\r')
    (rest : List Char) :
    lines (line ++ '\n' :: rest) = line :: lines rest := by
  simp [lines, splitInclusive_append fresh, stripLineEnding_append last]

theorem not_mem_stripLineEnding {piece : List Char}
    (fresh : '\n' ∉ piece.dropLast) : '\n' ∉ stripLineEnding piece := by
  rw [stripLineEnding]
  split
  next kept =>
    rcases List.eq_nil_or_concat' piece with rfl | ⟨body, symbol, rfl⟩
    · simp
    · rw [List.dropLast_concat] at fresh
      intro member
      rcases List.mem_append.mp member with inside | equal
      · exact fresh inside
      · rcases List.mem_singleton.mp equal with rfl
        have stripped : (body ++ ['\n']).dropSuffix? ['\n'] = some body :=
          List.dropSuffix?_eq_some_iff.mpr ⟨['\n'], rfl, by simp⟩
        rw [stripped] at kept
        cases kept
  next body stripped =>
    rcases List.dropSuffix?_eq_some_iff.mp stripped with ⟨suffix, rfl, equal⟩
    rcases beq_iff_eq.mp equal with rfl
    rw [List.dropLast_concat] at fresh
    split
    next => exact fresh
    next shorter stripped =>
      rcases List.dropSuffix?_eq_some_iff.mp stripped with ⟨suffix, rfl, -⟩
      exact fun member => fresh (List.mem_append_left _ member)

/-- Only a newline is the beginning of a line ending. -/
theorem stripLineEnding_of_not_mem {line : List Char}
    (fresh : '\n' ∉ line) : stripLineEnding line = line := by
  have kept : line.dropSuffix? ['\n'] = none := by
    cases stripped : line.dropSuffix? ['\n'] with
    | none => rfl
    | some body =>
        rcases List.dropSuffix?_eq_some_iff.mp stripped with
          ⟨suffix, rfl, equal⟩
        rcases beq_iff_eq.mp equal with rfl
        simp at fresh
  rw [stripLineEnding, kept]

/-- Trimming makes up for the return that a line ending may have. -/
theorem trimEndMatches_stripLineEnding (line : List Char) :
    trimEndMatches '\r' (stripLineEnding (line ++ ['\n'])) =
      trimEndMatches '\r' line := by
  have newline : (line ++ ['\n']).dropSuffix? ['\n'] = some line :=
    List.dropSuffix?_eq_some_iff.mpr ⟨['\n'], rfl, by simp⟩
  rw [stripLineEnding, newline]
  dsimp only
  split
  next => rfl
  next body stripped =>
    rcases List.dropSuffix?_eq_some_iff.mp stripped with ⟨suffix, rfl, equal⟩
    rcases beq_iff_eq.mp equal with rfl
    exact (trimEndMatches_concat '\r' body).symm

/-- A text is a last line, or a line before another text. -/
@[elab_as_elim]
theorem lines_induction {motive : List Char → Prop}
    (last : ∀ line, '\n' ∉ line → motive line)
    (next : ∀ line rest, '\n' ∉ line → motive rest →
      motive (line ++ '\n' :: rest)) (text : List Char) : motive text := by
  induction size : text.length using Nat.strong_induction_on
      generalizing text with
  | h _ induction =>
      by_cases member : '\n' ∈ text
      · rcases List.eq_append_cons_of_mem member with
          ⟨line, rest, rfl, fresh⟩
        refine next line rest fresh (induction rest.length ?_ rest rfl)
        rw [← size, List.length_append, List.length_cons]
        omega
      · exact last text member

/-- No line contains a newline. -/
theorem not_mem_of_mem_lines {text line : List Char}
    (member : line ∈ lines text) : '\n' ∉ line := by
  rcases List.mem_map.mp member with ⟨piece, pieceMember, rfl⟩
  exact not_mem_stripLineEnding (splitInclusive_separator_last pieceMember)

/-! ## Lengths -/

theorem flatten_splitInclusive (separator : α) (text : List α) :
    (splitInclusive separator text).flatten = text := by
  induction text with
  | nil => rfl
  | cons symbol rest induction =>
      rw [splitInclusive]
      split
      next equal => simp [induction, equal]
      next =>
        split
        next none =>
          rw [none, List.flatten_nil] at induction
          simp [← induction]
        next head pieces split =>
          rw [split, List.flatten_cons] at induction
          simp [← induction]

theorem length_stripLineEnding_le (piece : List Char) :
    (stripLineEnding piece).length ≤ piece.length := by
  rw [stripLineEnding]
  split
  next => exact Nat.le_refl _
  next body stripped =>
    rcases List.dropSuffix?_eq_some_iff.mp stripped with ⟨suffix, rfl, -⟩
    split
    next => simp
    next shorter stripped =>
      rcases List.dropSuffix?_eq_some_iff.mp stripped with ⟨suffix, rfl, -⟩
      simp only [List.length_append]
      omega

/-- The lines of a text are together no longer than the text. -/
theorem sum_length_lines_le (text : List Char) :
    ((lines text).map List.length).sum ≤ text.length := by
  have pieces : ((splitInclusive '\n' text).map List.length).sum =
      text.length := by
    rw [← List.length_flatten, flatten_splitInclusive]
  rw [← pieces, lines, List.map_map]
  exact List.sum_le_sum fun piece _ => length_stripLineEnding_le piece

end NixPqcCache.Foundation.Text
