import Mathlib.Data.List.Basic

/-!
# Decimal literals of a bounded unsigned type

Reading follows the standard library's digit loop: an optional leading `+`,
then decimal digits, with an overflow check before each multiplication and
each addition.  The error is the first one the loop meets.  Writing is
`Nat.toDigits 10`.
-/

namespace NixPqcCache.Foundation.Decimal

/-- Why a text is not a literal of the type. -/
inductive ParseIntError where
  | empty
  | invalidDigit
  | posOverflow
  deriving DecidableEq, Repr

/-- The value of a decimal digit. -/
def toDigit (symbol : Char) : Option Nat :=
  if symbol.isDigit then some (symbol.toNat - '0'.toNat) else none

/-- The digit loop, started from the value of the digits already read. -/
def parseDigits (limit : Nat) (result : Nat) :
    List Char → Except ParseIntError Nat
  | [] => .ok result
  | symbol :: rest =>
      match toDigit symbol with
      | none => .error .invalidDigit
      | some value =>
          if limit ≤ result * 10 then
            .error .posOverflow
          else if limit ≤ result * 10 + value then
            .error .posOverflow
          else
            parseDigits limit (result * 10 + value) rest

/-- Read a literal of the unsigned type with `limit` values. -/
def parseUnsigned (limit : Nat) (text : List Char) :
    Except ParseIntError Nat :=
  match text with
  | [] => .error .empty
  | ['+'] => .error .invalidDigit
  | ['-'] => .error .invalidDigit
  | '+' :: digits => parseDigits limit 0 digits
  | digits => parseDigits limit 0 digits

theorem le_ofDigitChars (digits : List Char) (result : Nat) :
    result ≤ Nat.ofDigitChars 10 digits result := by
  induction digits generalizing result with
  | nil => simp
  | cons symbol rest induction =>
      rw [Nat.ofDigitChars_cons]
      exact Nat.le_trans (by omega) (induction _)

/-- The loop returns the positional value, when it fits. -/
theorem parseDigits_eq_ok_iff {limit result value : Nat}
    {digits : List Char} (bound : result < limit) :
    parseDigits limit result digits = .ok value ↔
      (∀ symbol ∈ digits, symbol.isDigit) ∧
        Nat.ofDigitChars 10 digits result = value ∧ value < limit := by
  induction digits generalizing result with
  | nil =>
      simp only [parseDigits, Except.ok.injEq, List.not_mem_nil,
        false_implies, implies_true, true_and, Nat.ofDigitChars_nil]
      constructor
      · rintro rfl
        exact ⟨rfl, bound⟩
      · exact fun equal => equal.1
  | cons symbol rest induction =>
      rw [Nat.ofDigitChars_cons, Nat.mul_comm 10 result, List.forall_mem_cons]
      by_cases isDigit : symbol.isDigit
      · have grows := le_ofDigitChars rest
          (result * 10 + (symbol.toNat - '0'.toNat))
        by_cases fits : result * 10 + (symbol.toNat - '0'.toNat) < limit
        · have first : ¬ limit ≤ result * 10 := by omega
          have second :
              ¬ limit ≤ result * 10 + (symbol.toNat - '0'.toNat) := by
            omega
          simp only [parseDigits, toDigit, isDigit, if_true, if_neg first,
            if_neg second, induction fits, true_and]
        · have overflow :
              parseDigits limit result (symbol :: rest) =
                .error .posOverflow := by
            simp only [parseDigits, toDigit, isDigit, if_true]
            split
            · rfl
            · rw [if_pos (by omega)]
          rw [overflow]
          constructor
          · intro impossible
            cases impossible
          · rintro ⟨-, rfl, small⟩
            omega
      · simp [parseDigits, toDigit, isDigit]

theorem parseUnsigned_of_digits {limit : Nat} {digits : List Char}
    (nonempty : digits ≠ [])
    (allDigits : ∀ symbol ∈ digits, symbol.isDigit) :
    parseUnsigned limit digits = parseDigits limit 0 digits := by
  unfold parseUnsigned
  split
  next => exact (nonempty rfl).elim
  next => exact absurd (allDigits '+' (by simp)) (by decide)
  next => exact absurd (allDigits '-' (by simp)) (by decide)
  next => exact absurd (allDigits '+' (by simp)) (by decide)
  next => rfl

/-- Writing a value and reading it gives the value back. -/
theorem parseUnsigned_toDigits {limit value : Nat} (bound : value < limit) :
    parseUnsigned limit (Nat.toDigits 10 value) = .ok value := by
  have allDigits : ∀ symbol ∈ Nat.toDigits 10 value, symbol.isDigit :=
    fun _ member =>
      Nat.isDigit_of_mem_toDigits (by decide) (by decide) member
  rw [parseUnsigned_of_digits Nat.toDigits_ne_nil allDigits,
    parseDigits_eq_ok_iff (Nat.zero_lt_of_lt bound)]
  exact ⟨allDigits, Nat.ofDigitChars_ten_toDigits, bound⟩

theorem toDigits_injective {left right : Nat}
    (equal : Nat.toDigits 10 left = Nat.toDigits 10 right) :
    left = right := by
  rw [← Nat.ofDigitChars_ten_toDigits (n := left), equal,
    Nat.ofDigitChars_ten_toDigits]

/-- A symbol that is no digit does not occur in a decimal literal. -/
theorem not_mem_toDigits {symbol : Char} (notDigit : ¬ symbol.isDigit)
    (value : Nat) : symbol ∉ Nat.toDigits 10 value :=
  fun member => notDigit
    (Nat.isDigit_of_mem_toDigits (by decide) (by decide) member)

end NixPqcCache.Foundation.Decimal
