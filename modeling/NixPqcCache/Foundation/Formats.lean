/-!
# Formats

A format writes values as texts and reads texts back.  The values it is meant
for are those that can be read from some text, and each of these is read back
from the text it is written as.  Other texts may be read as the same value.
-/

namespace NixPqcCache.Foundation.Formats

universe u

/-- A writer and a reader, and the values that they agree on. -/
structure Format (τ α ε : Type u) where
  print : α → τ
  read : τ → Except ε α
  Valid : α → Prop
  read_print : ∀ value, Valid value → read (print value) = .ok value
  valid_of_read : ∀ text value, read text = .ok value → Valid value

namespace Format

variable {τ α ε : Type u} (format : Format τ α ε)

/-- Exactly the valid values survive being written and read. -/
theorem read_print_iff {value : α} :
    format.read (format.print value) = .ok value ↔ format.Valid value := by
  constructor
  · exact format.valid_of_read _ value
  · exact format.read_print value

/-- What was read is written as a text that is read alike. -/
theorem read_print_of_read {text : τ} {value : α}
    (accepted : format.read text = .ok value) :
    format.read (format.print value) = .ok value :=
  format.read_print value (format.valid_of_read text value accepted)

end Format

end NixPqcCache.Foundation.Formats
