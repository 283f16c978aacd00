/-
Selections that differ only in the letter case of column names: their checks, and the stages of a run
on groups with names that are pairwise different up to letter case.
-/
import TableQuery.Proofs.Expr.Spelling
import TableQuery.Proofs.Query.Answer

namespace TableQuery

namespace Select

/-! ## Alike selections -/

/-- The selection with all column names in lower case. -/
def lowerColumns (s : Select) : Select where
  items := s.items.map Expr.lowerColumns
  names := s.names
  filter := s.filter.map Expr.lowerColumns
  groupBy := s.groupBy.map Expr.lowerColumns
  having := s.having.map Expr.lowerColumns
  orderBy := s.orderBy.map fun k => { k with expr := k.expr.lowerColumns }
  limit := s.limit

/-- Two selections that differ at most in the letter case of column names. -/
def Alike (s s' : Select) : Prop := s.lowerColumns = s'.lowerColumns

instance (s s' : Select) : Decidable (s.Alike s') := inferInstanceAs (Decidable (s.lowerColumns = s'.lowerColumns))

end Select

def OrderKey.Alike (k k' : OrderKey) : Prop := k.expr.Alike k'.expr ∧ k.direction = k'.direction

namespace Select

variable {s s' : Select} {t : Table}

theorem Alike.names (h : s.Alike s') : s.names = s'.names := by
  have := congrArg Select.names h
  exact this

theorem Alike.limit (h : s.Alike s') : s.limit = s'.limit := by
  have := congrArg Select.limit h
  exact this

theorem Alike.items (h : s.Alike s') : List.Forall₂ Expr.Alike s.items s'.items :=
  Expr.forall₂_alike.2 (congrArg Select.items h)

theorem Alike.groupBy (h : s.Alike s') : List.Forall₂ Expr.Alike s.groupBy s'.groupBy :=
  Expr.forall₂_alike.2 (congrArg Select.groupBy h)

theorem Alike.orderBy (h : s.Alike s') : List.Forall₂ OrderKey.Alike s.orderBy s'.orderBy := by
  have h' : s.lowerColumns.orderBy = s'.lowerColumns.orderBy := congrArg Select.orderBy h
  simp only [lowerColumns] at h'
  rw [← List.forall₂_eq_eq_eq, List.forall₂_map_left_iff, List.forall₂_map_right_iff] at h'
  exact h'.imp fun _ _ hk => by rwa [OrderKey.mk.injEq] at hk

theorem option_alike {x y : Option Expr} (h : x.map Expr.lowerColumns = y.map Expr.lowerColumns) :
    (x = none ∧ y = none) ∨ ∃ e f, x = some e ∧ y = some f ∧ e.Alike f := by
  cases x with
  | none =>
    cases y with
    | none => exact .inl ⟨rfl, rfl⟩
    | some f => cases h
  | some e =>
    cases y with
    | none => cases h
    | some f => exact .inr ⟨e, f, rfl, rfl, Option.some.inj h⟩

theorem Alike.filter (h : s.Alike s') :
    (s.filter = none ∧ s'.filter = none) ∨ ∃ e f, s.filter = some e ∧ s'.filter = some f ∧ e.Alike f :=
  option_alike (congrArg Select.filter h)

theorem Alike.having (h : s.Alike s') :
    (s.having = none ∧ s'.having = none) ∨ ∃ e f, s.having = some e ∧ s'.having = some f ∧ e.Alike f :=
  option_alike (congrArg Select.having h)

theorem toList_alike {x y : Option Expr} (h : (x = none ∧ y = none) ∨ ∃ e f, x = some e ∧ y = some f ∧ e.Alike f) :
    List.Forall₂ Expr.Alike x.toList y.toList := by
  rcases h with ⟨rfl, rfl⟩ | ⟨e, f, rfl, rfl, hef⟩
  · exact .nil
  · exact .cons hef .nil

theorem Alike.orderExprs (h : s.Alike s') :
    List.Forall₂ Expr.Alike (s.orderBy.map (·.expr)) (s'.orderBy.map (·.expr)) := by
  rw [List.forall₂_map_left_iff, List.forall₂_map_right_iff]
  exact h.orderBy.imp fun _ _ hk => hk.1

theorem Alike.exprs (h : s.Alike s') : List.Forall₂ Expr.Alike s.exprs s'.exprs :=
  List.rel_append (List.rel_append (List.rel_append (List.rel_append h.items (toList_alike h.filter)) h.groupBy)
    (toList_alike h.having)) h.orderExprs

/-! ## Checks -/

theorem toOption_checkItems_lowerColumns (s : Select) (hasSource : Bool) :
    (s.lowerColumns.checkItems hasSource).toOption = (s.checkItems hasSource).toOption := by
  have hstray : (fun e : Expr => e != .wildcard && e.hasStrayWildcard) ∘ Expr.lowerColumns =
      fun e : Expr => e != .wildcard && e.hasStrayWildcard := by
    funext e
    have hw : (e.lowerColumns != .wildcard) = (e != .wildcard) := by
      rw [Bool.eq_iff_iff, bne_iff_ne, bne_iff_ne, ne_eq, Expr.lowerColumns_eq_wildcard]
    rw [Function.comp, hw, Expr.hasStrayWildcard_lowerColumns]
  have hstar : (s.items.map Expr.lowerColumns).contains .wildcard = s.items.contains .wildcard := by
    rw [Bool.eq_iff_iff, List.contains_iff_mem, List.contains_iff_mem, List.mem_map]
    constructor
    · rintro ⟨e, he, hw⟩
      rwa [← Expr.lowerColumns_eq_wildcard.1 hw]
    · exact fun hm => ⟨.wildcard, hm, rfl⟩
  unfold checkItems lowerColumns
  simp only [List.find?_map, hstray, hstar]
  cases s.items.find? fun e => e != .wildcard && e.hasStrayWildcard <;> rfl

theorem toOption_checkClauses_lowerColumns (s : Select) :
    s.lowerColumns.checkClauses.toOption = s.checkClauses.toOption := by
  have hmap : s.lowerColumns.clauses = s.clauses.map (Prod.map id Expr.lowerColumns) := by
    unfold clauses lowerColumns
    simp only [List.map_append, List.map_map]
    cases s.filter <;> cases s.having <;> rfl
  have hstray : (fun c : Clause × Expr => c.2.hasStrayWildcard) ∘ Prod.map id Expr.lowerColumns =
      fun c => c.2.hasStrayWildcard := funext fun c => Expr.hasStrayWildcard_lowerColumns c.2
  unfold checkClauses
  rw [hmap, List.find?_map, hstray]
  cases s.clauses.find? fun c => c.2.hasStrayWildcard <;> rfl

theorem toOption_checkAggregates_lowerColumns (s : Select) :
    s.lowerColumns.checkAggregates.toOption = s.checkAggregates.toOption := by
  have hcall : Expr.containsAggregate ∘ Expr.lowerColumns = Expr.containsAggregate :=
    funext Expr.containsAggregate_lowerColumns
  unfold checkAggregates lowerColumns
  simp only [List.find?_map, hcall]
  cases s.groupBy.find? Expr.containsAggregate with
  | some e => rfl
  | none =>
    cases s.filter with
    | none => rfl
    | some e =>
      simp only [Option.map_none, Option.map_some, Option.filter_some, Expr.containsAggregate_lowerColumns]
      cases e.containsAggregate <;> rfl

theorem check_alike (h : s.Alike s') (hasSource : Bool) :
    (s.check hasSource).toOption = (s'.check hasSource).toOption := by
  have hlower : ∀ s : Select, (s.lowerColumns.check hasSource).toOption = (s.check hasSource).toOption := by
    intro s
    have hnames : s.lowerColumns.checkNames = s.checkNames := by
      unfold checkNames lowerColumns
      simp only [List.length_map]
    unfold check
    rw [hnames]
    exact toOption_bind_congr (toOption_checkItems_lowerColumns s hasSource) fun _ _ =>
      toOption_bind_congr (toOption_checkClauses_lowerColumns s) fun _ _ =>
        toOption_bind_congr (toOption_checkAggregates_lowerColumns s) fun _ _ => rfl
  rw [← hlower s, h, hlower]

/-! ## Stages -/

theorem kept_alike (hd : Table.Distinct t.fields) (h : s.Alike s') : (s.kept t).toOption = (s'.kept t).toOption := by
  unfold kept
  rcases h.filter with ⟨hs, hs'⟩ | ⟨e, f, hs, hs', hef⟩
  · rw [hs, hs']
  · rw [hs, hs']
    exact toOption_bind_congr (hef.evalRows hd) fun _ _ => rfl

theorem groups_alike (hd : Table.Distinct t.fields) (h : s.Alike s') :
    (s.groups t).toOption = (s'.groups t).toOption := by
  have hkeys : (s.groupKeys t).toOption = (s'.groupKeys t).toOption :=
    toOption_bind_congr (toOption_mapM_congr (h.groupBy.imp fun _ _ hef => hef.evalRows hd)) fun _ _ => rfl
  unfold groups
  rw [isEmpty_of_forall₂ h.groupBy]
  split
  · rfl
  · exact toOption_bind_congr hkeys fun _ _ => rfl

theorem holdsOn_alike (hd : Table.Distinct t.fields) (h : s.Alike s') :
    (s.holdsOn t).toOption = (s'.holdsOn t).toOption := by
  unfold holdsOn
  rcases h.having with ⟨hs, hs'⟩ | ⟨e, f, hs, hs', hef⟩
  · rw [hs, hs']
  · rw [hs, hs']
    exact toOption_bind_congr (hef.evalRows hd) fun _ _ => rfl

theorem keepGroups_alike (h : s.Alike s') (keep : Nat) : ∀ {gs : List Table}, (∀ g ∈ gs, Table.Distinct g.fields) →
    (s.keepGroups keep gs).toOption = (s'.keepGroups keep gs).toOption
  | [], _ => rfl
  | g :: gs, hd => by
    rw [keepGroups_cons, keepGroups_cons]
    exact toOption_bind_congr (holdsOn_alike (hd g (List.mem_cons_self ..)) h) fun _ _ =>
      toOption_bind_congr (keepGroups_alike h keep fun g' hg => hd g' (List.mem_cons_of_mem _ hg)) fun _ _ => rfl

end Select

theorem directions_alike {ks ks' : List OrderKey} (h : List.Forall₂ OrderKey.Alike ks ks') :
    Order.directions ks = Order.directions ks' := by
  induction h with
  | nil => rfl
  | cons hk _ ih => exact congrArg₂ List.cons hk.2 ih

theorem Table.orderedBy_alike {t : Table} {ks ks' : List OrderKey} (hd : Distinct t.fields)
    (h : List.Forall₂ OrderKey.Alike ks ks') : (t.orderedBy ks).toOption = (t.orderedBy ks').toOption := by
  have hless : Order.keyLess ks = Order.keyLess ks' := by
    unfold Order.keyLess
    rw [directions_alike h]
  unfold orderedBy
  rw [hless]
  exact toOption_bind_congr (toOption_mapM_congr (h.imp fun _ _ hk => hk.1.evalRows hd)) fun _ _ => rfl

theorem Order.sortTables_alike {ts : List Table} {ks ks' : List OrderKey} (hd : ∀ t ∈ ts, Table.Distinct t.fields)
    (h : List.Forall₂ OrderKey.Alike ks ks') : (sortTables ks ts).toOption = (sortTables ks' ts).toOption := by
  have hless : keyLess ks = keyLess ks' := by
    unfold keyLess
    rw [directions_alike h]
  unfold sortTables
  rw [hless, isEmpty_of_forall₂ h, h.length_eq]
  split
  · rfl
  · refine toOption_bind_congr (toOption_mapM_congr (List.forall₂_same.2 fun t ht => ?_)) fun _ _ => rfl
    exact toOption_bind_congr (toOption_mapM_congr (h.imp fun _ _ hk => hk.1.evalWhole (hd t ht))) fun _ _ => rfl

namespace Select

variable {s s' : Select} {t : Table} {gs : List Table}

theorem ordered_alike (h : s.Alike s') (hd : ∀ g ∈ gs, Table.Distinct g.fields) :
    (s.ordered gs).toOption = (s'.ordered gs).toOption := by
  unfold ordered
  rw [isEmpty_of_forall₂ h.orderBy]
  split
  · rfl
  · refine toOption_bind_congr (toOption_mapM_congr (List.forall₂_same.2 fun g hg =>
      Table.orderedBy_alike (hd g hg) h.orderBy)) fun sorted hs => Order.sortTables_alike ?_ h.orderBy
    intro g hg
    obtain ⟨g', hg', hgo⟩ := mem_of_mapM_ok hs g hg
    rw [Table.fields_orderedBy hgo]
    exact hd g' hg'

theorem rowsOn_alike {items items' : List Expr} (hd : Table.Distinct t.fields)
    (hi : List.Forall₂ Expr.Alike items items') (hc : s.collapses items = s'.collapses items') :
    (s.rowsOn items t).toOption = (s'.rowsOn items' t).toOption := by
  have hrows : ∀ (s : Select) (items : List Expr), s.rowsOn items t =
      ((Expr.evalTable t items).map (·.rows)).map fun rows => if s.collapses items then rows.take 1 else rows := by
    intro s items
    unfold rowsOn
    cases Expr.evalTable t items <;> rfl
  rw [hrows, hrows, hc]
  exact toOption_map_congr _ (Expr.rows_evalTable_alike hd hi)

end Select

end TableQuery
