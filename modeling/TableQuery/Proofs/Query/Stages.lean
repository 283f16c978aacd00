/-
A run of a selection cut into its stages: the items with every star replaced, the rows that the
filter keeps, the working table, and what is made of it. A query runs its selection on the table
that it reads.
-/
import TableQuery.Proofs.Query.Choice
import TableQuery.Proofs.Table.Shape

namespace TableQuery

/-! ## Filters -/

theorem keepTrue_sublist : ∀ {rows : List Row} {mask : List Value} {rows' : List Row},
    keepTrue rows mask = .ok rows' → rows'.Sublist rows
  | [], mask, rows', h => by cases mask <;> cases h <;> exact List.Sublist.refl _
  | row :: rows, [], rows', h => by cases h; exact List.nil_sublist _
  | row :: rows, v :: mask, rows', h => by
    rw [keepTrue] at h
    obtain ⟨b, -, h⟩ := bind_ok h
    obtain ⟨rest, hrest, h⟩ := bind_ok h
    have hs := keepTrue_sublist hrest
    cases h
    split
    · exact hs.cons_cons row
    · exact hs.cons row

/-- Some rows of a well-formed table pass the check of their width. -/
theorem Table.filterBy_eq {t : Table} (ht : t.WellFormed) (c : Expr) :
    t.filterBy c = (Expr.evalRows t c >>= keepTrue t.rows).map (Table.mk t.fields) := by
  unfold filterBy
  rcases Expr.evalRows t c with e | mask
  · rfl
  · rcases hk : keepTrue t.rows mask with e | rows
    · simp only [ok_bind, hk]
      rfl
    · simp only [ok_bind, hk]
      exact ofRows_eq (ht.of_subset (keepTrue_sublist hk).subset)

namespace Select

/-! ## Stages of a run -/

/-- The items, every star replaced by the columns under these fields. -/
def itemsOn (s : Select) (fields : List String) : List Expr := (s.expand fields).map (·.1)

/-- The names of the items, every star replaced by these fields. -/
def namesOn (s : Select) (fields : List String) : List String := (s.expand fields).map (·.2)

/-- The rows on which the filter is true. -/
def kept (s : Select) (t : Table) : Except Error Table :=
  match s.filter with
  | some condition => t.filterBy condition
  | none => .ok t

/-- The result made of a working table, whose first `keep` columns are for items and order. -/
def finish (s : Select) (items : List Expr) (names : List String) (working : Table) (keep : Nat) :
    Except Error Table := do
  let groups ← s.keepGroups keep (← Group.partition working s.groupBy.length)
  let groups ← s.orderGroups groups
  if groups.isEmpty then return .empty names
  return s.limited (← merge names (← s.evalGroups items groups))

theorem run_eq (s : Select) (source : Option Table) :
    s.run source =
      let t := source.getD dummy
      if source.isSome && t.isEmpty then .ok (.empty (s.namesOn t.fields))
      else s.kept t >>= fun k =>
        if k.isEmpty then .ok (.empty (s.namesOn t.fields))
        else s.workingTable (s.itemsOn t.fields) k >>= fun w =>
          s.finish (s.itemsOn t.fields) (s.namesOn t.fields) w.1 w.2 := by
  unfold run kept finish namesOn itemsOn
  simp only
  split
  · rfl
  · cases s.filter <;> rfl

/-- Filtering keeps the fields. -/
theorem fields_kept {s : Select} {t k : Table} (h : s.kept t = .ok k) : k.fields = t.fields := by
  unfold kept at h
  split at h
  · unfold Table.filterBy at h
    obtain ⟨mask, -, h⟩ := bind_ok h
    obtain ⟨rows, -, h⟩ := bind_ok h
    rw [(Table.ofRows_ok h).1]
  · cases h; rfl

theorem kept_sublist {s : Select} {t k : Table} (h : s.kept t = .ok k) : k.rows.Sublist t.rows := by
  unfold kept at h
  split at h
  · unfold Table.filterBy at h
    obtain ⟨mask, -, h⟩ := bind_ok h
    obtain ⟨rows, hrows, h⟩ := bind_ok h
    rw [(Table.ofRows_ok h).1]
    exact keepTrue_sublist hrows
  · cases h; exact List.Sublist.refl _

theorem wellFormed_kept {s : Select} {t k : Table} (ht : t.WellFormed) (h : s.kept t = .ok k) : k.WellFormed := by
  have hk := ht.of_subset (kept_sublist h).subset
  rwa [← fields_kept h] at hk

/-! ## Items -/

theorem length_namesOn (s : Select) (fields : List String) :
    (s.namesOn fields).length = (s.itemsOn fields).length := by
  simp [namesOn, itemsOn]

/-- Without a star the items are the same for every table. -/
theorem expand_of_not_mem {s : Select} (h : .wildcard ∉ s.items) (fields fields' : List String) :
    s.expand fields = s.expand fields' := by
  unfold expand
  refine List.flatMap_congr fun p hp => ?_
  have hne : p.1 ≠ .wildcard := fun hw => h (hw ▸ (List.of_mem_zip hp).1)
  simp only [if_neg hne]

theorem mem_itemsOn {s : Select} {fields : List String} {e : Expr} (h : e ∈ s.itemsOn fields) :
    e ∈ s.items ∨ ∃ f ∈ fields, e = .column f := by
  obtain ⟨⟨e, name⟩, hp, rfl⟩ := List.mem_map.1 h
  obtain ⟨⟨e', name'⟩, hq, hp⟩ := List.mem_flatMap.1 hp
  simp only at hp
  split at hp
  · obtain ⟨f, hf, hp⟩ := List.mem_map.1 hp
    cases hp; exact .inr ⟨_, hf, rfl⟩
  · cases List.mem_singleton.1 hp
    exact .inl (List.of_mem_zip hq).1

/-! ## Clauses -/

variable {s : Select}

theorem items_subset_exprs : s.items ⊆ s.exprs := fun e he => by simp [exprs, he]

theorem orderBy_subset_exprs : s.orderBy.map (·.expr) ⊆ s.exprs := fun e he => by
  unfold exprs; exact List.mem_append_right _ he

theorem having_subset_exprs : s.having.toList ⊆ s.exprs := fun e he => by simp [exprs] at he ⊢; simp [he]

theorem groupBy_subset_exprs : s.groupBy ⊆ s.exprs := fun e he => by simp [exprs, he]

theorem filter_subset_exprs : s.filter.toList ⊆ s.exprs := fun e he => by simp [exprs] at he ⊢; simp [he]

end Select

/-! ## Names that resolve -/

namespace Table

theorem columnIndex?_isSome_of_mem {t : Table} {f : String} (h : f ∈ t.fields) : (t.columnIndex? f).isSome := by
  unfold columnIndex?
  have : t.fields.any (· == f) = true := List.any_eq_true.2 ⟨f, h, beq_self_eq_true f⟩
  rw [Option.isSome_or, List.findIdx?_isSome, this, Bool.true_or]

end Table

/-- If all columns of the items resolve, so do those of the items with every star replaced. -/
theorem Select.resolves_itemsOn {s : Select} {t : Table} (h : t.Resolves (Expr.leavesOf s.items)) :
    t.Resolves (Expr.leavesOf (s.itemsOn t.fields)) := by
  intro name hn
  obtain ⟨e, he, hn⟩ := Expr.mem_leavesOf.1 hn
  rcases mem_itemsOn he with he | ⟨f, hf, rfl⟩
  · exact h name (Expr.mem_leavesOf.2 ⟨e, he, hn⟩)
  · rw [Expr.leaves, List.mem_singleton] at hn
    cases hn; exact t.columnIndex?_isSome_of_mem hf

/-! ## Queries -/

namespace Query

/-- The table that a query reads, if it reads any. -/
def source (fetch : Fetcher) : Query → Except Error (Option Table)
  | constant _ => .ok none
  | table s label => (fetch ⟨label, s.tokens⟩).map some
  | nested _ inner => (inner.execute fetch).map some

/-- A query is checked, its source read, and its selection run on the table there. -/
theorem execute_eq (fetch : Fetcher) (q : Query) :
    q.execute fetch = q.select.check q.hasSource >>= fun _ => q.source fetch >>= q.select.run := by
  cases q with
  | constant s =>
    show _ = s.check false >>= fun _ => s.run none
    unfold execute
    rw [runWith]
    cases s.check false <;> rfl
  | table s label =>
    show _ = s.check true >>= fun _ => (fetch ⟨label, s.tokens⟩).map some >>= s.run
    unfold execute
    rw [runWith]
    cases s.check true with
    | error e => rfl
    | ok u => cases fetch ⟨label, s.tokens⟩ <;> rfl
  | nested s inner =>
    show _ = s.check true >>= fun _ => (inner.execute fetch).map some >>= s.run
    unfold execute
    rw [runWith]
    cases s.check true with
    | error e => rfl
    | ok u =>
      generalize inner.runWith (m := Id) fetch = x
      cases x <;> rfl

theorem execute_of_source {fetch : Fetcher} {q : Query} {src : Option Table} (hc : q.select.check q.hasSource = .ok ())
    (hs : q.source fetch = .ok src) : q.execute fetch = q.select.run src := by
  rw [execute_eq, hc, ok_bind, hs, ok_bind]

end Query

end TableQuery
