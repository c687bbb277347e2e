import Mathlib.Data.List.Nodup
import Mathlib.Data.List.Perm.Subperm

/-!
# Bounded any-of-many acceptance

A verifier reads a list of candidate values, drops the repetitions, keeps at
most `cap` of the remaining values in the order in which they were first
seen, and accepts when one of the kept values is good.

Without the bound this is plain existence of a good value.  With the bound the
order of the list matters, but only when the list holds enough distinct bad
values to fill every place.  The main results say this exactly: acceptance is
existence as long as fewer than `cap` distinct bad values occur
(`accepts_iff_exists_of_bad_lt`), and from `cap` on some order rejects
(`exists_perm_not_accepts`).
-/

namespace NixPqcCache.Foundation.Candidates

variable {α β : Type*} [DecidableEq α]

/-! ## First occurrences -/

/-- The values not seen before, each at its first occurrence. -/
def distinctFrom (seen : List α) : List α → List α
  | [] => []
  | value :: rest =>
      if value ∈ seen then distinctFrom seen rest
      else value :: distinctFrom (value :: seen) rest

/-- The distinct values of a list, in order of first occurrence. -/
def distinct (values : List α) : List α :=
  distinctFrom [] values

theorem mem_distinctFrom {seen values : List α} {value : α} :
    value ∈ distinctFrom seen values ↔ value ∈ values ∧ value ∉ seen := by
  induction values generalizing seen with
  | nil => simp [distinctFrom]
  | cons head rest induction =>
      by_cases known : head ∈ seen
      · rw [distinctFrom, if_pos known, induction, List.mem_cons]
        constructor
        · rintro ⟨member, fresh⟩
          exact ⟨Or.inr member, fresh⟩
        · rintro ⟨rfl | member, fresh⟩
          · exact (fresh known).elim
          · exact ⟨member, fresh⟩
      · rw [distinctFrom, if_neg known, List.mem_cons, induction,
          List.mem_cons, List.mem_cons, not_or]
        by_cases equal : value = head
        · subst equal
          simp [known]
        · simp [equal]

@[simp]
theorem mem_distinct {values : List α} {value : α} :
    value ∈ distinct values ↔ value ∈ values := by
  simp [distinct, mem_distinctFrom]

theorem nodup_distinctFrom (seen values : List α) :
    (distinctFrom seen values).Nodup := by
  induction values generalizing seen with
  | nil => simp [distinctFrom]
  | cons head rest induction =>
      by_cases known : head ∈ seen
      · rw [distinctFrom, if_pos known]
        exact induction seen
      · rw [distinctFrom, if_neg known, List.nodup_cons]
        exact ⟨by simp [mem_distinctFrom], induction _⟩

theorem nodup_distinct (values : List α) : (distinct values).Nodup :=
  nodup_distinctFrom [] values

theorem distinctFrom_eq_self {seen values : List α} (nodup : values.Nodup)
    (fresh : ∀ value ∈ values, value ∉ seen) :
    distinctFrom seen values = values := by
  induction values generalizing seen with
  | nil => rfl
  | cons head rest induction =>
      rw [List.forall_mem_cons] at fresh
      rw [List.nodup_cons] at nodup
      rw [distinctFrom, if_neg fresh.1, induction nodup.2]
      intro value member
      rw [List.mem_cons, not_or]
      refine ⟨?_, fresh.2 value member⟩
      rintro rfl
      exact nodup.1 member

theorem distinct_eq_self {values : List α} (nodup : values.Nodup) :
    distinct values = values :=
  distinctFrom_eq_self nodup (by simp)

theorem length_distinct_le (values : List α) :
    (distinct values).length ≤ values.length := by
  apply List.Subperm.length_le
  apply (nodup_distinct values).subperm
  intro value member
  exact mem_distinct.mp member

/-- Only membership decides which values are distinct, not order. -/
theorem distinct_perm_of_mem_iff {left right : List α}
    (same : ∀ value, value ∈ left ↔ value ∈ right) :
    (distinct left).Perm (distinct right) :=
  (List.perm_ext_iff_of_nodup (nodup_distinct left)
    (nodup_distinct right)).mpr (by simpa using same)

/-- Only membership in the seen values matters. -/
theorem distinctFrom_congr {left right : List α}
    (same : ∀ value, value ∈ left ↔ value ∈ right) (values : List α) :
    distinctFrom left values = distinctFrom right values := by
  induction values generalizing left right with
  | nil => rfl
  | cons head rest induction =>
      have extended :
          ∀ value, value ∈ head :: left ↔ value ∈ head :: right := by
        simp [same]
      simp only [distinctFrom, same head, induction same,
        induction extended]

theorem distinctFrom_append (seen left right : List α) :
    distinctFrom seen (left ++ right) =
      distinctFrom seen left ++ distinctFrom (left ++ seen) right := by
  induction left generalizing seen with
  | nil => simp [distinctFrom]
  | cons head rest induction =>
      rw [List.cons_append, distinctFrom, distinctFrom]
      by_cases known : head ∈ seen
      · rw [if_pos known, if_pos known, induction]
        congr 1
        exact distinctFrom_congr (by simp; grind) right
      · rw [if_neg known, if_neg known, induction, List.cons_append]
        congr 2
        exact distinctFrom_congr (by simp; grind) right

theorem distinct_append (left right : List α) :
    distinct (left ++ right) = distinct left ++ distinctFrom left right := by
  simp [distinct, distinctFrom_append]

/-- A value that was seen before is not counted again. -/
theorem distinct_append_cons_of_mem {left right : List α} {value : α}
    (known : value ∈ left) :
    distinct (left ++ value :: right) = distinct (left ++ right) := by
  rw [distinct_append, distinct_append, distinctFrom, if_pos known]

/-! ## Bounded acceptance -/

/-- The first `cap` distinct values. -/
def admitted (cap : Nat) (values : List α) : List α :=
  (distinct values).take cap

/-- Some admitted value is good. -/
def accepts (cap : Nat) (good : α → Bool) (values : List α) : Bool :=
  (admitted cap values).any good

/-- How many distinct values are bad. -/
def badCount (good : α → Bool) (values : List α) : Nat :=
  ((distinct values).filter (fun value => !good value)).length

variable {cap : Nat} {good : α → Bool}

theorem accepts_eq_true_iff {values : List α} :
    accepts cap good values = true ↔
      ∃ value ∈ admitted cap values, good value = true := by
  simp [accepts]

theorem admitted_ne_nil_of_accepts {values : List α}
    (accepted : accepts cap good values = true) :
    admitted cap values ≠ [] := by
  intro empty
  rw [accepts, empty] at accepted
  cases accepted

theorem mem_of_mem_admitted {values : List α} {value : α}
    (member : value ∈ admitted cap values) : value ∈ values :=
  mem_distinct.mp (List.mem_of_mem_take member)

/-- Acceptance always exhibits a good value of the list. -/
theorem exists_of_accepts {values : List α}
    (accepted : accepts cap good values = true) :
    ∃ value ∈ values, good value = true := by
  rcases accepts_eq_true_iff.mp accepted with ⟨value, member, isGood⟩
  exact ⟨value, mem_of_mem_admitted member, isGood⟩

/-- While there is a free place, every value is admitted. -/
theorem admitted_eq_distinct {values : List α}
    (bound : (distinct values).length ≤ cap) :
    admitted cap values = distinct values :=
  List.take_of_length_le bound

/-- Once every place is taken, what follows is not admitted. -/
theorem admitted_append_of_full {values : List α}
    (full : cap ≤ (distinct values).length) (rest : List α) :
    admitted cap (values ++ rest) = admitted cap values := by
  rw [admitted, distinct_append, List.take_append_of_le_length full]
  rfl

/-- An entry without a value of its own takes no place. -/
theorem admitted_filterMap_append_cons {decode : β → Option α}
    {before : List β} {entry : β}
    (repeated : ∀ value, decode entry = some value →
      ∃ earlier ∈ before, decode earlier = some value) (after : List β) :
    admitted cap ((before ++ entry :: after).filterMap decode) =
      admitted cap ((before ++ after).filterMap decode) := by
  rw [List.filterMap_append, List.filterMap_append]
  cases decoded : decode entry with
  | none => rw [List.filterMap_cons_none decoded]
  | some value =>
      have known : value ∈ before.filterMap decode :=
        List.mem_filterMap.mpr (repeated value decoded)
      rw [List.filterMap_cons_some decoded, admitted,
        distinct_append_cons_of_mem known, admitted]

/--
Fewer than `cap` distinct bad values cannot keep a good value out, wherever
it stands.
-/
theorem accepts_iff_exists_of_bad_lt {values : List α}
    (few : badCount good values < cap) :
    accepts cap good values = true ↔ ∃ value ∈ values, good value = true := by
  refine ⟨exists_of_accepts, ?_⟩
  rintro ⟨value, member, isGood⟩
  by_contra rejected
  have allBad : ∀ other ∈ admitted cap values, good other = false := by
    intro other otherMember
    by_contra notBad
    exact rejected (accepts_eq_true_iff.mpr
      ⟨other, otherMember, by simpa using notBad⟩)
  have inside :
      admitted cap values ⊆
        (distinct values).filter (fun value => !good value) := by
    intro other otherMember
    exact List.mem_filter.mpr
      ⟨List.mem_of_mem_take otherMember, by simp [allBad other otherMember]⟩
  have nodup : (admitted cap values).Nodup :=
    (nodup_distinct values).sublist (List.take_sublist _ _)
  have short : (admitted cap values).length < cap :=
    Nat.lt_of_le_of_lt (nodup.subperm inside).length_le few
  have whole : admitted cap values = distinct values := by
    refine admitted_eq_distinct ?_
    rw [admitted, List.length_take] at short
    omega
  have present : value ∈ admitted cap values := by
    rw [whole]
    exact mem_distinct.mpr member
  rw [allBad value present] at isGood
  cases isGood

theorem badCount_lt_of_length_le {values : List α}
    (bound : (distinct values).length ≤ cap)
    (exists_good : ∃ value ∈ values, good value = true) :
    badCount good values < cap := by
  rcases exists_good with ⟨value, member, isGood⟩
  refine Nat.lt_of_lt_of_le ?_ bound
  refine List.length_filter_lt_length_iff_exists.mpr
    ⟨value, mem_distinct.mpr member, by simp [isGood]⟩

/-- With at most `cap` distinct values acceptance is plain existence. -/
theorem accepts_iff_exists_of_length_le {values : List α}
    (bound : (distinct values).length ≤ cap) :
    accepts cap good values = true ↔ ∃ value ∈ values, good value = true := by
  refine ⟨exists_of_accepts, fun exists_good => ?_⟩
  exact (accepts_iff_exists_of_bad_lt
    (badCount_lt_of_length_le bound exists_good)).mpr exists_good

/-- Few entries all have a place. -/
theorem accepts_filterMap_iff_of_few {decode : β → Option α}
    {entries : List β} (few : entries.length ≤ cap) :
    accepts cap good (entries.filterMap decode) = true ↔
      ∃ entry ∈ entries, ∃ value, decode entry = some value ∧
        good value = true := by
  have bound : (distinct (entries.filterMap decode)).length ≤ cap :=
    Nat.le_trans (length_distinct_le _)
      (Nat.le_trans (List.length_filterMap_le _ _) few)
  rw [accepts_iff_exists_of_length_le bound]
  simp only [List.mem_filterMap]
  constructor
  · rintro ⟨value, ⟨entry, member, decoded⟩, isGood⟩
    exact ⟨entry, member, value, decoded, isGood⟩
  · rintro ⟨entry, member, value, decoded, isGood⟩
    exact ⟨value, ⟨entry, member, decoded⟩, isGood⟩

/-! ## Appending one good value -/

/--
A good value that is appended last is admitted exactly when it finds a free
place, unless the list was accepted without it.
-/
theorem accepts_append_singleton_iff {values : List α} {own : α}
    (isGood : good own = true) :
    accepts cap good (values ++ [own]) = true ↔
      (distinct values).length < cap ∨ accepts cap good values = true := by
  by_cases room : (distinct values).length < cap
  · have bound : (distinct (values ++ [own])).length ≤ cap := by
      rw [distinct_append, List.length_append]
      have single : (distinctFrom values [own]).length ≤ 1 := by
        simp only [distinctFrom]
        split <;> simp
      omega
    simp only [room, true_or, iff_true]
    exact (accepts_iff_exists_of_length_le bound).mpr
      ⟨own, by simp, isGood⟩
  · have unchanged : admitted cap (values ++ [own]) = admitted cap values :=
      admitted_append_of_full (Nat.le_of_not_lt room) [own]
    simp [accepts, unchanged, room]

/-- What follows takes no place from what was admitted. -/
theorem accepts_append_of_accepts {values : List α}
    (accepted : accepts cap good values = true) (rest : List α) :
    accepts cap good (values ++ rest) = true := by
  rcases accepts_eq_true_iff.mp accepted with ⟨value, member, isGood⟩
  refine accepts_eq_true_iff.mpr ⟨value, ?_, isGood⟩
  rw [admitted, distinct_append, List.take_append]
  exact List.mem_append_left _ member

/-- Whether a good value is admitted does not depend on what follows. -/
theorem accepts_append_cons_iff {values : List α} {own : α}
    (isGood : good own = true) (rest : List α) :
    accepts cap good (values ++ own :: rest) = true ↔
      (distinct values).length < cap ∨ accepts cap good values = true := by
  have split : values ++ own :: rest = (values ++ [own]) ++ rest := by
    simp
  constructor
  · intro accepted
    by_cases room : (distinct values).length < cap
    · exact Or.inl room
    · rw [accepts, admitted_append_of_full (Nat.le_of_not_lt room)]
        at accepted
      exact Or.inr accepted
  · intro free
    rw [split]
    exact accepts_append_of_accepts
      ((accepts_append_singleton_iff isGood).mpr free) rest

/-! ## Rearrangements -/

/--
`changed` is `original` in some order, with further copies of entries that
were already present.
-/
def Rearranges (original changed : List β) : Prop :=
  ∃ copies, copies ⊆ original ∧ changed.Perm (original ++ copies)

theorem Rearranges.of_perm {original changed : List β}
    (perm : changed.Perm original) : Rearranges original changed :=
  ⟨[], List.nil_subset _, by simpa using perm⟩

theorem Rearranges.refl (original : List β) : Rearranges original original :=
  Rearranges.of_perm (List.Perm.refl _)

theorem Rearranges.mem_iff {original changed : List β}
    (rearranges : Rearranges original changed) (entry : β) :
    entry ∈ changed ↔ entry ∈ original := by
  rcases rearranges with ⟨copies, inside, perm⟩
  rw [perm.mem_iff, List.mem_append]
  exact ⟨fun member => member.elim id (fun copy => inside copy), Or.inl⟩

omit [DecidableEq α] in
theorem Rearranges.mem_filterMap_iff {original changed : List β}
    (rearranges : Rearranges original changed) (decode : β → Option α)
    (value : α) :
    value ∈ changed.filterMap decode ↔ value ∈ original.filterMap decode := by
  simp only [List.mem_filterMap, rearranges.mem_iff]

/-- Rearranging changes neither the bad values nor their number. -/
theorem Rearranges.badCount_eq {original changed : List β}
    (rearranges : Rearranges original changed) (decode : β → Option α) :
    badCount good (changed.filterMap decode) =
      badCount good (original.filterMap decode) :=
  ((distinct_perm_of_mem_iff
    (rearranges.mem_filterMap_iff decode)).filter _).length_eq

/-- With few bad values a rearrangement is accepted as the original is. -/
theorem Rearranges.accepts_iff {original changed : List β}
    (rearranges : Rearranges original changed) {decode : β → Option α}
    (few : badCount good (original.filterMap decode) < cap) :
    accepts cap good (changed.filterMap decode) = true ↔
      accepts cap good (original.filterMap decode) = true := by
  have fewChanged : badCount good (changed.filterMap decode) < cap := by
    rwa [rearranges.badCount_eq decode]
  rw [accepts_iff_exists_of_bad_lt few,
    accepts_iff_exists_of_bad_lt fewChanged]
  simp only [rearranges.mem_filterMap_iff decode]

/-- Without a good value no rearrangement is accepted. -/
theorem Rearranges.not_accepts {original changed : List β}
    (rearranges : Rearranges original changed) {decode : β → Option α}
    (none_good : ¬ ∃ value ∈ original.filterMap decode, good value = true) :
    ¬ accepts cap good (changed.filterMap decode) = true := by
  intro accepted
  rcases exists_of_accepts accepted with ⟨value, member, isGood⟩
  exact none_good
    ⟨value, (rearranges.mem_filterMap_iff decode value).mp member, isGood⟩

theorem accepts_cons {rest : List α} {value : α}
    (positive : 0 < cap) (isGood : good value = true) :
    accepts cap good (value :: rest) = true := by
  refine accepts_eq_true_iff.mpr ⟨value, ?_, isGood⟩
  obtain ⟨places, rfl⟩ : ∃ places, cap = places + 1 :=
    ⟨cap - 1, by omega⟩
  simp [admitted, distinct, distinctFrom]

/-- Moving a good entry to the front is always enough to be accepted. -/
theorem exists_perm_accepts {entries : List β} {decode : β → Option α}
    (positive : 0 < cap)
    (exists_good : ∃ value ∈ entries.filterMap decode, good value = true) :
    ∃ changed : List β, changed.Perm entries ∧
      accepts cap good (changed.filterMap decode) = true := by
  rcases exists_good with ⟨value, member, isGood⟩
  rcases List.mem_filterMap.mp member with ⟨entry, entryMember, decoded⟩
  rcases List.append_of_mem entryMember with ⟨front, back, rfl⟩
  refine ⟨entry :: (front ++ back), List.perm_middle.symm, ?_⟩
  rw [List.filterMap_cons_some decoded]
  exact accepts_cons positive isGood

/-- Enough distinct bad values fill every place when they come first. -/
theorem exists_perm_not_accepts {entries : List β} {decode : β → Option α}
    (many : cap ≤ badCount good (entries.filterMap decode)) :
    ∃ changed : List β, changed.Perm entries ∧
      accepts cap good (changed.filterMap decode) = false := by
  let isBad : β → Bool := fun entry => (decode entry).any (fun v => !good v)
  refine ⟨entries.filter isBad ++ entries.filter (fun e => !isBad e),
    List.filter_append_perm isBad entries, ?_⟩
  have bads :
      ∀ value, value ∈ (entries.filter isBad).filterMap decode ↔
        value ∈ entries.filterMap decode ∧ good value = false := by
    intro value
    simp only [List.mem_filterMap, List.mem_filter, isBad]
    constructor
    · rintro ⟨entry, ⟨member, bad⟩, decoded⟩
      refine ⟨⟨entry, member, decoded⟩, ?_⟩
      simpa [decoded] using bad
    · rintro ⟨⟨entry, member, decoded⟩, bad⟩
      exact ⟨entry, ⟨member, by simp [decoded, bad]⟩, decoded⟩
  have full :
      cap ≤ (distinct ((entries.filter isBad).filterMap decode)).length := by
    refine Nat.le_trans many (List.Subperm.length_le ?_)
    refine ((nodup_distinct _).filter _).subperm fun value member => ?_
    rcases List.mem_filter.mp member with ⟨inside, bad⟩
    exact mem_distinct.mpr ((bads value).mpr
      ⟨mem_distinct.mp inside, by simpa using bad⟩)
  rw [accepts, List.filterMap_append, admitted_append_of_full full,
    List.any_eq_false]
  intro value member
  have bad := ((bads value).mp (mem_of_mem_admitted member)).2
  simp [bad]

/-! ## Two lists that must both be accepted -/

section Pairs

variable {α' β' : Type*} [DecidableEq α'] {good' : α' → Bool}
  {decode : β → Option α} {decode' : β' → Option α'}

/-- Every rearrangement of two lists gets the verdict of the lists. -/
def PairInvariant (cap : Nat) (good : α → Bool) (good' : α' → Bool)
    (decode : β → Option α) (decode' : β' → Option α')
    (entries : List β) (entries' : List β') : Prop :=
  ∀ changed changed', Rearranges entries changed →
    Rearranges entries' changed' →
      ((accepts cap good (changed.filterMap decode) = true ∧
          accepts cap good' (changed'.filterMap decode') = true) ↔
        accepts cap good (entries.filterMap decode) = true ∧
          accepts cap good' (entries'.filterMap decode') = true)

omit [DecidableEq α'] in
/-- A good value and a full list of bad ones allow both verdicts. -/
theorem exists_both_verdicts {entries : List β} (positive : 0 < cap)
    (exists_good : ∃ value ∈ entries.filterMap decode, good value = true)
    (many : cap ≤ badCount good (entries.filterMap decode)) :
    (∃ changed, Rearranges entries changed ∧
        accepts cap good (changed.filterMap decode) = true) ∧
      ∃ changed, Rearranges entries changed ∧
        ¬ accepts cap good (changed.filterMap decode) = true := by
  rcases exists_perm_accepts positive exists_good with
    ⟨front, frontPerm, accepted⟩
  rcases exists_perm_not_accepts many with ⟨back, backPerm, rejected⟩
  refine ⟨⟨front, .of_perm frontPerm, accepted⟩,
    ⟨back, .of_perm backPerm, ?_⟩⟩
  simp [rejected]

/--
The verdict on a pair is invariant exactly when one of the lists has no good
value or both have fewer bad values than places.
-/
theorem pairInvariant_iff {entries : List β} {entries' : List β'}
    (positive : 0 < cap) :
    PairInvariant cap good good' decode decode' entries entries' ↔
      (¬ ∃ value ∈ entries.filterMap decode, good value = true) ∨
        (¬ ∃ value ∈ entries'.filterMap decode', good' value = true) ∨
        badCount good (entries.filterMap decode) < cap ∧
          badCount good' (entries'.filterMap decode') < cap := by
  constructor
  · intro invariant
    by_contra exceeded
    simp only [not_or, not_not, not_and_or, Nat.not_lt] at exceeded
    rcases exceeded with ⟨first, second, many | many⟩
    · rcases exists_both_verdicts positive first many with
        ⟨⟨front, frontFrom, accepted⟩, ⟨back, backFrom, rejected⟩⟩
      rcases exists_perm_accepts positive second with
        ⟨other, otherPerm, otherAccepted⟩
      have original :=
        (invariant front other frontFrom (.of_perm otherPerm)).mp
          ⟨accepted, otherAccepted⟩
      exact rejected ((invariant back other backFrom
        (.of_perm otherPerm)).mpr original).1
    · rcases exists_both_verdicts positive second many with
        ⟨⟨front, frontFrom, accepted⟩, ⟨back, backFrom, rejected⟩⟩
      rcases exists_perm_accepts positive first with
        ⟨other, otherPerm, otherAccepted⟩
      have original :=
        (invariant other front (.of_perm otherPerm) frontFrom).mp
          ⟨otherAccepted, accepted⟩
      exact rejected ((invariant other back (.of_perm otherPerm)
        backFrom).mpr original).2
  · rintro (none_good | none_good | ⟨few, few'⟩)
    · intro changed changed' rearranges rearranges'
      exact iff_of_false
        (fun both => rearranges.not_accepts none_good both.1)
        (fun both => (Rearranges.refl entries).not_accepts none_good both.1)
    · intro changed changed' rearranges rearranges'
      exact iff_of_false
        (fun both => rearranges'.not_accepts none_good both.2)
        (fun both => (Rearranges.refl entries').not_accepts none_good both.2)
    · intro changed changed' rearranges rearranges'
      exact and_congr (rearranges.accepts_iff few)
        (rearranges'.accepts_iff few')

/-- Where every distinct value has a place, the verdict is invariant. -/
theorem pairInvariant_of_length_le {entries : List β} {entries' : List β'}
    (positive : 0 < cap)
    (bound : (distinct (entries.filterMap decode)).length ≤ cap)
    (bound' : (distinct (entries'.filterMap decode')).length ≤ cap) :
    PairInvariant cap good good' decode decode' entries entries' := by
  apply (pairInvariant_iff positive).mpr
  by_cases first : ∃ value ∈ entries.filterMap decode, good value = true
  · by_cases second :
        ∃ value ∈ entries'.filterMap decode', good' value = true
    · exact Or.inr (Or.inr ⟨badCount_lt_of_length_le bound first,
        badCount_lt_of_length_le bound' second⟩)
    · exact Or.inr (Or.inl second)
  · exact Or.inl first

end Pairs

end NixPqcCache.Foundation.Candidates
