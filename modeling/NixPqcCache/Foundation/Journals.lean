import NixPqcCache.Foundation.Stateful

/-!
# Journals

A journal only grows at its end.  If every new entry is a root or is vouched
for by an entry that is already there, then every entry of the journal goes
back to a root, through entries that stand before it.
-/

namespace NixPqcCache.Foundation.Journals

variable {α : Type*} {Root : α → Prop} {VouchedBy : α → α → Prop}

/-- An entry goes back to a root through entries of the journal. -/
def GoesBack (Root : α → Prop) (VouchedBy : α → α → Prop)
    (journal : List α) (entry : α) : Prop :=
  ∃ root ∈ journal, Root root ∧
    Relation.ReflTransGen
      (fun later earlier => earlier ∈ journal ∧ VouchedBy later earlier)
      entry root

theorem GoesBack.of_root {journal : List α} {entry : α}
    (member : entry ∈ journal) (root : Root entry) :
    GoesBack Root VouchedBy journal entry :=
  ⟨entry, member, root, .refl⟩

theorem GoesBack.of_vouchedBy {journal : List α} {entry earlier : α}
    (member : earlier ∈ journal) (vouched : VouchedBy entry earlier)
    (goesBack : GoesBack Root VouchedBy journal earlier) :
    GoesBack Root VouchedBy journal entry := by
  rcases goesBack with ⟨root, rootMember, isRoot, path⟩
  exact ⟨root, rootMember, isRoot, path.head ⟨member, vouched⟩⟩

/-- A longer journal keeps the ways back. -/
theorem GoesBack.mono {journal longer : List α} {entry : α}
    (goesBack : GoesBack Root VouchedBy journal entry)
    (keeps : ∀ other ∈ journal, other ∈ longer) :
    GoesBack Root VouchedBy longer entry := by
  rcases goesBack with ⟨root, member, isRoot, path⟩
  exact ⟨root, keeps root member, isRoot,
    path.lift id fun _ earlier step => ⟨keeps earlier step.1, step.2⟩⟩

/-- Every entry of a journal that grows in this way goes back to a root. -/
theorem goesBack_of_reached {step : List α → List α → Prop}
    (grows : ∀ journal after, step journal after →
      ∃ entry, after = journal ++ [entry] ∧
        (Root entry ∨ ∃ earlier ∈ journal, VouchedBy entry earlier))
    {journal : List α} (reached : Relation.ReflTransGen step [] journal)
    {entry : α} (member : entry ∈ journal) :
    GoesBack Root VouchedBy journal entry := by
  have preserved (before after : List α)
      (holds : ∀ entry ∈ before, GoesBack Root VouchedBy before entry)
      (taken : step before after) :
      ∀ entry ∈ after, GoesBack Root VouchedBy after entry := by
    rcases grows before after taken with ⟨new, rfl, source⟩
    have keeps : ∀ other ∈ before, other ∈ before ++ [new] :=
      fun _ old => List.mem_append_left _ old
    intro entry member
    rcases List.mem_append.mp member with old | isNew
    · exact (holds entry old).mono keeps
    · rcases List.mem_singleton.mp isNew with rfl
      rcases source with root | ⟨earlier, old, vouched⟩
      · exact .of_root member root
      · exact .of_vouchedBy (keeps earlier old) vouched
          ((holds earlier old).mono keeps)
  exact Stateful.invariant_of_reached preserved (by simp) reached entry
    member

end NixPqcCache.Foundation.Journals
