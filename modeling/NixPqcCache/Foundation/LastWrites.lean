import Mathlib.Data.List.Pairwise

/-!
# Entries that are replaced by their owner

A list holds entries of several owners.  A write takes the entries of its own
key out of the list and appends one new entry.

After any number of writes the list holds what none of the keys owned at the
start, and then one entry for each key: that of its last write, in the order of
these last writes.
-/

namespace NixPqcCache.Foundation.LastWrites

variable {Key Entry Write : Type*}

/-! ## Writes -/

section Writes

variable (owns : Key → Entry → Bool) (key : Write → Key)
  (entry : Write → Entry)

/-- One write. -/
def put (entries : List Entry) (write : Write) : List Entry :=
  entries.filter (fun other => !owns (key write) other) ++ [entry write]

/-- The entries that no write takes out. -/
def foreign (entries : List Entry) (writes : List Write) : List Entry :=
  entries.filter fun other => writes.all fun write => !owns (key write) other

/-- A write takes out none of them, and adds none. -/
theorem foreign_put (owned : ∀ write, owns (key write) (entry write) = true)
    {write : Write} {writes : List Write} (member : write ∈ writes)
    (entries : List Entry) :
    foreign owns key (put owns key entry entries write) writes =
      foreign owns key entries writes := by
  have free {other : Entry}
      (none : (writes.all fun later => !owns (key later) other) = true) :
      owns (key write) other = false := by
    simpa using List.all_eq_true.mp none write member
  have own :
      ¬ (writes.all fun later => !owns (key later) (entry write)) = true := by
    intro none
    have taken := free none
    rw [owned] at taken
    cases taken
  have alone : foreign owns key [entry write] writes = [] :=
    List.filter_cons_of_neg own
  rw [put, foreign, List.filter_append, ← foreign, ← foreign, alone,
    List.append_nil, foreign, foreign, List.filter_filter]
  apply List.filter_congr
  intro other _
  cases none : writes.all fun later => !owns (key later) other with
  | false => rfl
  | true => rw [free none]; rfl

end Writes

/-! ## Last writes -/

variable [DecidableEq Key]

/-- The last write of each key. -/
def lastWrites (key : Write → Key) (writes : List Write) : List Write :=
  writes.pwFilter fun left right => key left ≠ key right

section Lists

variable {key : Write → Key} {writes : List Write}

/-- A key that is written has a last write. -/
theorem exists_mem_lastWrites {write : Write} :
    (∃ later ∈ lastWrites key writes, key later = key write) ↔
      ∃ later ∈ writes, key later = key write := by
  have apart {left middle right : Write} (different : key left ≠ key right) :
      key left ≠ key middle ∨ key middle ≠ key right := by
    by_contra both
    rw [not_or, not_not, not_not] at both
    exact different (both.1.trans both.2)
  have none := @List.forall_mem_pwFilter _
    (fun left right => key left ≠ key right) _ apart write writes
  rw [← not_iff_not]
  simpa [lastWrites, eq_comm] using none

theorem lastWrites_cons (write : Write) (writes : List Write) :
    lastWrites key (write :: writes) =
      if ∃ later ∈ writes, key later = key write then
        lastWrites key writes
      else
        write :: lastWrites key writes := by
  by_cases again : ∃ later ∈ writes, key later = key write
  · rw [if_pos again, lastWrites, List.pwFilter_cons_of_neg]
    · rfl
    · intro last
      rcases exists_mem_lastWrites.mpr again with ⟨later, member, same⟩
      exact last later member same.symm
  · rw [if_neg again, lastWrites, List.pwFilter_cons_of_pos]
    · rfl
    · intro later member same
      exact again (exists_mem_lastWrites.mp ⟨later, member, same.symm⟩)

/-- Last writes are their own last writes. -/
theorem lastWrites_lastWrites (key : Write → Key) (writes : List Write) :
    lastWrites key (lastWrites key writes) = lastWrites key writes :=
  List.pwFilter_idem

end Lists

/-! ## What writes leave -/

variable (owns : Key → Entry → Bool) (key : Write → Key)
  (entry : Write → Entry)

/-- What any number of writes leaves. -/
theorem foldl_put
    (owned : ∀ write other, owns (key write) (entry other) = true ↔
      key write = key other)
    (entries : List Entry) (writes : List Write) :
    writes.foldl (put owns key entry) entries =
      foreign owns key entries writes ++
        (lastWrites key writes).map entry := by
  induction writes generalizing entries with
  | nil =>
      have every : foreign owns key entries [] = entries :=
        List.filter_eq_self.mpr fun _ _ => rfl
      rw [every]
      exact (List.append_nil entries).symm
  | cons write writes induction =>
      rw [List.foldl_cons, induction, put, foreign, List.filter_append,
        List.filter_filter, lastWrites_cons, foreign]
      have kept : (entries.filter fun other =>
          (writes.all fun later => !owns (key later) other) &&
            !owns (key write) other) =
          entries.filter fun other =>
            (write :: writes).all fun later => !owns (key later) other := by
        apply List.filter_congr
        intro other _
        rw [List.all_cons, Bool.and_comm]
      rw [kept, List.append_assoc]
      apply congrArg
      by_cases again : ∃ later ∈ writes, key later = key write
      · rw [if_pos again, List.filter_cons_of_neg]
        · rfl
        · rw [List.all_eq_true]
          intro free
          rcases again with ⟨later, member, same⟩
          have owner := (owned later write).mpr same
          simpa [owner] using free later member
      · rw [if_neg again, List.filter_cons_of_pos]
        · rfl
        · rw [List.all_eq_true]
          intro later member
          rw [Bool.not_eq_true', Bool.eq_false_iff, ne_eq, owned]
          exact fun same => again ⟨later, member, same⟩

/-- The last writes take out what all of them take out. -/
theorem foreign_lastWrites (entries : List Entry) (writes : List Write) :
    foreign owns key entries (lastWrites key writes) =
      foreign owns key entries writes := by
  rw [foreign, foreign]
  apply List.filter_congr
  intro other _
  rw [Bool.eq_iff_iff, List.all_eq_true, List.all_eq_true]
  constructor
  · intro free write member
    have known : ∃ last ∈ lastWrites key writes, key last = key write :=
      exists_mem_lastWrites.mpr ⟨write, member, rfl⟩
    rcases known with ⟨last, lastMember, same⟩
    rw [← same]
    exact free last lastMember
  · intro free write member
    exact free write (List.pwFilter_subset _ member)

end NixPqcCache.Foundation.LastWrites
