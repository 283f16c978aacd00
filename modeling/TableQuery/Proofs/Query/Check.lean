/-
What a checked selection is like. The checks are made before anything is read, and they succeed exactly
if no star stands where it has no meaning, no aggregate where there are no groups yet, and every item has
a name if any has.
-/
import TableQuery.Proofs.Except
import TableQuery.Query

namespace TableQuery.Select

variable {s : Select} {hasSource : Bool}

/-- The conditions under which a selection is run. -/
structure Checked (s : Select) (hasSource : Bool) : Prop where
  items : ∀ e ∈ s.items, e = .wildcard ∨ e.hasStrayWildcard = false
  source : hasSource = false → .wildcard ∉ s.items
  clauses : ∀ p ∈ s.clauses, p.2.hasStrayWildcard = false
  groupBy : ∀ e ∈ s.groupBy, e.containsAggregate = false
  filter : ∀ e ∈ s.filter, e.containsAggregate = false
  names : ∀ names ∈ s.names, names.length = s.items.length

theorem checkItems_eq_ok_iff : s.checkItems hasSource = .ok () ↔
    (∀ e ∈ s.items, e = .wildcard ∨ e.hasStrayWildcard = false) ∧ (hasSource = false → .wildcard ∉ s.items) := by
  have hstray : (s.items.find? fun e => e != .wildcard && e.hasStrayWildcard) = none ↔
      ∀ e ∈ s.items, e = .wildcard ∨ e.hasStrayWildcard = false := by
    rw [List.find?_eq_none]
    refine forall₂_congr fun e _ => ?_
    by_cases h : e = .wildcard <;> simp [h]
  rw [checkItems, ← hstray]
  cases s.items.find? fun e => e != .wildcard && e.hasStrayWildcard with
  | none => cases hasSource <;> simp
  | some e => simp

theorem checkClauses_eq_ok_iff : s.checkClauses = .ok () ↔ ∀ p ∈ s.clauses, p.2.hasStrayWildcard = false := by
  have hstray : s.clauses.find? (·.2.hasStrayWildcard) = none ↔ ∀ p ∈ s.clauses, p.2.hasStrayWildcard = false := by
    simp
  rw [checkClauses, ← hstray]
  cases s.clauses.find? (·.2.hasStrayWildcard) <;> simp

theorem checkAggregates_eq_ok_iff : s.checkAggregates = .ok () ↔
    (∀ e ∈ s.groupBy, e.containsAggregate = false) ∧ ∀ e ∈ s.filter, e.containsAggregate = false := by
  have hgroupBy : s.groupBy.find? (·.containsAggregate) = none ↔ ∀ e ∈ s.groupBy, e.containsAggregate = false := by
    simp
  have hfilter : s.filter.filter (·.containsAggregate) = none ↔ ∀ e ∈ s.filter, e.containsAggregate = false := by
    cases s.filter <;> simp
  rw [checkAggregates, ← hgroupBy, ← hfilter]
  cases s.groupBy.find? (·.containsAggregate) with
  | none => cases s.filter.filter (·.containsAggregate) <;> simp
  | some e => simp

theorem checkNames_eq_ok_iff : s.checkNames = .ok () ↔ ∀ names ∈ s.names, names.length = s.items.length := by
  unfold checkNames
  cases s.names <;> simp

/-- The checks succeed exactly under their conditions. -/
theorem check_eq_ok_iff : s.check hasSource = .ok () ↔ s.Checked hasSource := by
  constructor
  · intro h
    obtain ⟨_, hitems, h⟩ := bind_ok h
    obtain ⟨_, hclauses, h⟩ := bind_ok h
    obtain ⟨_, haggregates, hnames⟩ := bind_ok h
    obtain ⟨hstars, hsource⟩ := checkItems_eq_ok_iff.1 hitems
    obtain ⟨hgroupBy, hfilter⟩ := checkAggregates_eq_ok_iff.1 haggregates
    exact ⟨hstars, hsource, checkClauses_eq_ok_iff.1 hclauses, hgroupBy, hfilter, checkNames_eq_ok_iff.1 hnames⟩
  · intro h
    rw [check, checkItems_eq_ok_iff.2 ⟨h.items, h.source⟩, checkClauses_eq_ok_iff.2 h.clauses,
      checkAggregates_eq_ok_iff.2 ⟨h.groupBy, h.filter⟩, checkNames_eq_ok_iff.2 h.names]
    rfl

/-- What a check can report: a star, an aggregate, or names that are not as many as the items. -/
theorem check_error {e : Error} (h : s.check hasSource = .error e) :
    (∃ w, e = .wildcard w) ∨ (∃ f, e = .invalidArgument f) ∨
      ∃ names, s.names = some names ∧ names.length ≠ s.items.length ∧
        e = .shapeMismatch s.items.length names.length := by
  rcases bind_error h with h | ⟨_, -, h⟩
  · unfold checkItems at h
    split at h
    · exact .inl ⟨_, (Except.error.inj h).symm⟩
    · split at h
      · exact .inl ⟨_, (Except.error.inj h).symm⟩
      · cases h
  rcases bind_error h with h | ⟨_, -, h⟩
  · unfold checkClauses at h
    split at h
    · exact .inl ⟨_, (Except.error.inj h).symm⟩
    · cases h
  rcases bind_error h with h | ⟨_, -, h⟩
  · unfold checkAggregates at h
    split at h
    · exact .inr (.inl ⟨_, (Except.error.inj h).symm⟩)
    · split at h
      · exact .inr (.inl ⟨_, (Except.error.inj h).symm⟩)
      · cases h
  · unfold checkNames at h
    split at h
    · rename_i names hnames
      split at h
      · cases h
      · rename_i hne
        exact .inr (.inr ⟨names, hnames, hne, (Except.error.inj h).symm⟩)
    · cases h

end TableQuery.Select
