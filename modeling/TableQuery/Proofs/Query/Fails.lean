/-
How a checked selection fails. It comes upon no star, whatever it reads, and on a well-formed table no stage
has a fault of numbers of rows or values. The checks look at expressions alone; every stage of a run
evaluates expressions that passed them, or columns in place of a star, and has no other fault of this kind.
The tables that the stages make are well formed, so making them fails nowhere but at the rows of the source.
-/
import TableQuery.Proofs.Expr.Wildcard
import TableQuery.Proofs.Query.Answer
import TableQuery.Proofs.Query.Check

namespace TableQuery

variable {shape : Prop}

/-! ## Columns and filters -/

namespace Table

variable {t : Table}

theorem failsWithin_addNamed : ∀ (names : List String) (chosen : List Nat), FailsWithin shape (t.addNamed chosen names)
  | [], _ => by simp [addNamed]
  | name :: r, chosen => by
    rw [addNamed]
    cases t.columnIndex? name with
    | some i => exact failsWithin_addNamed r (addNew chosen i)
    | none => simp

theorem failsWithin_choose (chosen : List Nat) (es : List Expr) : FailsWithin shape (t.choose chosen es) := by
  unfold choose
  simp only
  split
  · simp
  · exact failsWithin_addNamed _ chosen

theorem failsWithin_keepTrue : ∀ (rows : List Row) (mask : List Value), FailsWithin shape (keepTrue rows mask)
  | [], mask => by simp [keepTrue]
  | row :: rows, [] => by simp [keepTrue]
  | row :: rows, v :: mask => by
    rw [keepTrue]
    exact v.failsWithin_truth.bind fun b _ => (failsWithin_keepTrue rows mask).bind fun rest _ => by simp

/-- Kept rows fail their check only in a table whose own rows would. -/
theorem failsWithin_filterBy {condition : Expr} (ht : shape ∨ t.WellFormed) (h : condition.hasStrayWildcard = false) :
    FailsWithin shape (t.filterBy condition) := by
  refine (Expr.failsWithin_evalRows h).bind fun mask _ => (failsWithin_keepTrue t.rows mask).bind fun rows hrows => ?_
  rcases ht with ht | ht
  · unfold ofRows checkRows
    split <;> simp [ht]
  · rw [ofRows_eq (ht.of_subset (keepTrue_sublist hrows).subset)]
    exact FailsWithin.ok _

end Table

/-! ## Groups and order -/

theorem failsWithin_allTrue : ∀ vs : List Value, FailsWithin shape (allTrue vs)
  | [] => by simp [allTrue]
  | v :: r => by
    rw [allTrue]
    refine v.failsWithin_truth.bind fun b _ => ?_
    split
    · exact failsWithin_allTrue r
    · simp

theorem Order.failsWithin_checkComparable (vs : List Value) : FailsWithin shape (checkComparable vs) := by
  unfold checkComparable
  split
  · simp
  · split <;> simp

section

variable {keys : List OrderKey} (h : ∀ k ∈ keys, k.expr.hasStrayWildcard = false)

include h

theorem Table.failsWithin_orderedBy (t : Table) : FailsWithin shape (t.orderedBy keys) :=
  (FailsWithin.mapM fun k hk => Expr.failsWithin_evalRows (h k hk)).bind fun _ _ =>
    (FailsWithin.forM fun vs _ => Order.failsWithin_checkComparable vs).bind fun _ _ => by simp

theorem Order.failsWithin_sortTables (ts : List Table) : FailsWithin shape (sortTables keys ts) := by
  unfold sortTables
  split
  · simp
  · refine (FailsWithin.mapM fun t _ => ?_).bind fun keyed _ => ?_
    · exact (FailsWithin.mapM fun k hk => Expr.failsWithin_evalWhole (h k hk)).bind fun vs _ => by simp
    · exact (FailsWithin.forM fun i _ => failsWithin_checkComparable _).bind fun _ _ => by simp

end

/-! ## Selections -/

namespace Select

variable {s : Select} {t : Table}

theorem failsWithin_groups (h : ∀ e ∈ s.groupBy, e.hasStrayWildcard = false) (t : Table) :
    FailsWithin shape (s.groups t) := by
  unfold groups
  split
  · simp
  · refine FailsWithin.bind ?_ fun _ _ => by simp
    exact (FailsWithin.mapM fun e he => Expr.failsWithin_evalRows (h e he)).bind fun _ _ => by simp

theorem failsWithin_keepGroups (h : ∀ e ∈ s.having, e.hasStrayWildcard = false) (keep : Nat) :
    ∀ gs : List Table, FailsWithin shape (s.keepGroups keep gs)
  | [] => by simp [keepGroups]
  | g :: gs => by
    have hholds : FailsWithin shape (s.holdsOn g) := by
      unfold holdsOn
      split
      · rename_i condition hs
        exact (Expr.failsWithin_evalRows (h condition hs)).bind fun vs _ => failsWithin_allTrue vs
      · simp
    rw [keepGroups_cons]
    exact hholds.bind fun holds _ => (failsWithin_keepGroups h keep gs).bind fun rest _ => by simp

theorem failsWithin_ordered (h : ∀ k ∈ s.orderBy, k.expr.hasStrayWildcard = false) (gs : List Table) :
    FailsWithin shape (s.ordered gs) := by
  unfold ordered
  split
  · simp
  · exact (FailsWithin.mapM fun g _ => Table.failsWithin_orderedBy h g).bind fun sorted _ =>
      Order.failsWithin_sortTables h sorted

theorem failsWithin_rowsOn {items : List Expr} (h : ∀ e ∈ items, e.hasStrayWildcard = false) (g : Table) :
    FailsWithin shape (s.rowsOn items g) :=
  (Expr.failsWithin_evalTable h).bind fun out _ => by simp

section

variable {hasSource : Bool} (h : s.Checked hasSource)

include h

theorem not_stray_filter : ∀ e ∈ s.filter, e.hasStrayWildcard = false := fun e he =>
  h.clauses (.filter, e) (by simp [clauses, Option.mem_def.1 he])

theorem not_stray_groupBy : ∀ e ∈ s.groupBy, e.hasStrayWildcard = false := fun e he =>
  h.clauses (.groupBy, e) (by simp [clauses, he])

theorem not_stray_having : ∀ e ∈ s.having, e.hasStrayWildcard = false := fun e he =>
  h.clauses (.having, e) (by simp [clauses, Option.mem_def.1 he])

theorem not_stray_orderBy : ∀ k ∈ s.orderBy, k.expr.hasStrayWildcard = false := fun k hk =>
  h.clauses (.orderBy, k.expr) (by
    simp only [clauses, List.mem_append, List.mem_map]
    exact .inr ⟨k, hk, rfl⟩)

/-- A star among the items is replaced by columns. -/
theorem not_stray_itemsOn (fields : List String) : ∀ e ∈ s.itemsOn fields, e.hasStrayWildcard = false := by
  intro e he
  obtain ⟨p, hp, rfl⟩ := List.mem_map.1 he
  obtain ⟨⟨item, name⟩, hitem, hp⟩ := List.mem_flatMap.1 hp
  simp only at hp
  split at hp
  · obtain ⟨f, -, rfl⟩ := List.mem_map.1 hp
    rfl
  · rename_i hne
    rw [List.mem_singleton.1 hp]
    exact (h.items item (List.of_mem_zip hitem).1).resolve_left hne

theorem failsWithin_kept (ht : shape ∨ t.WellFormed) : FailsWithin shape (s.kept t) := by
  unfold kept
  split
  · rename_i condition hs
    exact Table.failsWithin_filterBy ht (not_stray_filter h condition hs)
  · simp

/-- What is made of well-formed groups. -/
theorem failsWithin_answer {fields names : List String} {keep : Nat} {gs : List Table} (hw : ∀ g ∈ gs, g.WellFormed) :
    FailsWithin shape (s.answer (s.itemsOn fields) names keep gs) := by
  rw [answer_eq hw]
  refine (failsWithin_keepGroups (not_stray_having h) keep gs).bind fun kept _ => ?_
  refine (failsWithin_ordered (not_stray_orderBy h) kept).bind fun sorted _ => ?_
  exact (FailsWithin.mapM fun g _ => failsWithin_rowsOn (not_stray_itemsOn h fields) g).bind fun rows _ => by simp

/-- A checked selection comes upon no star, whatever it reads, and upon no fault of shape but in rows that do
not fit the fields of the table that it reads. -/
theorem failsWithin_run {source : Option Table} (hs : shape ∨ (source.getD dummy).WellFormed) :
    FailsWithin shape (s.run source) := by
  rw [run_eq]
  simp only
  split
  · simp
  · refine (failsWithin_kept h hs).bind fun k _ => ?_
    cases he : k.isEmpty with
    | true => simp
    | false =>
      simp only [Bool.false_eq_true, if_false]
      rw [finish_workingTable he (length_namesOn s _)]
      refine (Table.failsWithin_choose [] _).bind fun first _ => ?_
      refine (Table.failsWithin_choose first _).bind fun chosen _ => ?_
      refine (Table.failsWithin_choose chosen _).bind fun all _ => ?_
      refine (failsWithin_groups (not_stray_groupBy h) k).bind fun gs _ => failsWithin_answer h fun g hg => ?_
      obtain ⟨g', -, rfl⟩ := List.mem_map.1 hg
      exact g'.wellFormed_select all

end

end Select

end TableQuery
