/-
Distinct rows by groups. A selection whose items are its group keys as well gives the first row of each
group, and these are the rows of the selection without group keys, less those that repeat an earlier one.
It rests on three facts: without aggregates the items have on a group the values that they have among all
rows, a group has one row only, as no item stands beside the keys, and groups come in the order of their
first rows. Items without columns give one row in any case, which repeats nothing.
-/
import TableQuery.Proofs.Query.Check
import TableQuery.Proofs.Query.Pushdown
import TableQuery.Proofs.Query.Reading
import TableQuery.Proofs.Expr.Rowwise
import TableQuery.Proofs.Expr.Wildcard

namespace TableQuery

/-! ## Rows without repetition -/

/-- The table without the rows of which an earlier one has the same values, in the form in which equal
values are equal. -/
def Table.withoutRepeats (t : Table) : Table :=
  { t with rows := t.rows.eraseDupsBy fun a b => a.map Value.groupKey == b.map Value.groupKey }

section

variable {α β : Type} [BEq β] [LawfulBEq β] {key : α → β}

/-- Without repetition remains the first element under each key. -/
theorem eraseDupsBy_eq_flatMap (key : α → β) (xs : List α) :
    xs.eraseDupsBy (fun a b => key a == key b) =
      (xs.map key).eraseDups.flatMap fun k => (xs.filter (key · == k)).take 1 := by
  induction hn : xs.length using Nat.strong_induction_on generalizing xs with
  | _ n ih =>
    cases xs with
    | nil => rfl
    | cons a as =>
      let rest := as.filter fun b => !key b == key a
      have hle : rest.length ≤ as.length := List.length_filter_le _ _
      have hlen : rest.length < n := by
        rw [List.length_cons] at hn
        omega
      have hkeys : (as.map key).filter (fun k => !k == key a) = rest.map key := List.filter_map
      have hfirst : ((a :: as).filter (key · == key a)).take 1 = [a] := by simp
      have hrepeats : (as.filter fun b => (key b == key a) = false) = rest := by simp [rest]
      rw [List.eraseDupsBy_cons, List.map_cons, List.eraseDups_cons, List.flatMap_cons, hfirst, hkeys, hrepeats,
        ih rest.length hlen rest rfl, List.singleton_append]
      refine congrArg (a :: ·) (List.flatMap_congr fun k hk => ?_)
      -- another key than that of the first element, so its elements are not left out
      obtain ⟨b, hb, rfl⟩ := List.mem_map.1 (List.mem_eraseDups.1 hk)
      have hne : key b ≠ key a := by simpa [rest] using (List.mem_filter.1 hb).2
      have hsame : (a :: as).filter (key · == key b) = rest.filter (key · == key b) := by
        rw [List.filter_cons, if_neg (by simpa using Ne.symm hne), List.filter_filter]
        refine List.filter_congr fun c _ => ?_
        by_cases hc : key c = key b
        · simp [hc, hne]
        · simp [hc]
      rw [hsame]

/-- Equal elements are repetitions of the first one. -/
theorem eraseDupsBy_take_one {xs : List α} (h : ∀ a ∈ xs, ∀ b ∈ xs, a = b) :
    (xs.take 1).eraseDupsBy (fun a b => key a == key b) = xs.eraseDupsBy fun a b => key a == key b := by
  cases xs with
  | nil => rfl
  | cons a as =>
    have hnone : (as.filter fun b => (key b == key a) = false) = [] :=
      List.filter_eq_nil_iff.2 fun b hb => by
        simp [h b (List.mem_cons_of_mem _ hb) a (List.mem_cons_self ..)]
    rw [List.take_succ_cons, List.take_zero, List.eraseDupsBy_cons, List.eraseDupsBy_cons, hnone]
    rfl

end

/-! ## Names that resolve -/

/-- Where columns are chosen, all names were found. -/
theorem Table.resolves_of_choose {t : Table} {chosen is : List Nat} {es : List Expr}
    (h : t.choose chosen es = .ok is) (hw : .wildcard ∉ Expr.leavesOf es) : t.Resolves (Expr.leavesOf es) := by
  rw [choose_of_not_mem hw] at h
  intro name hn
  obtain ⟨_, -, -, hnames⟩ := addNamed_ok h
  obtain ⟨i, -, hi⟩ := hnames name ((Expr.mem_columns hw).2 hn)
  rw [hi]
  rfl

namespace Select

variable {s : Select} {k r : Table}

/-! ## Runs on filtered rows -/

theorem keepGroups_filter (s : Select) (keep : Nat) : ∀ gs : List Table,
    { s with filter := none }.keepGroups keep gs = s.keepGroups keep gs
  | [] => rfl
  | g :: gs => by
    rw [keepGroups_cons, keepGroups_cons, keepGroups_filter s keep gs]
    rfl

/-- A run is the run without the filter on the rows that the filter keeps. -/
theorem run_eq_filtered (s : Select) (source : Option Table) :
    s.run source =
      let t := source.getD dummy
      if source.isSome && t.isEmpty then .ok (.empty (s.namesOn t.fields))
      else s.kept t >>= fun k => { s with filter := none }.run (some k) := by
  rw [run_eq]
  simp only
  split
  · rfl
  · refine bind_congr_ok fun k hk => ?_
    rw [run_eq, ← fields_kept hk]
    simp only [Option.getD_some, Option.isSome_some, Bool.true_and]
    by_cases he : k.isEmpty = true
    · simp only [if_pos he]
      rfl
    · simp only [if_neg he, kept, ok_bind, finish, keepGroups_filter]
      rfl

theorem groupsWhere_of_none (h : s.having = none) : ∀ gs : List Table, s.groupsWhere gs = .ok gs
  | [] => rfl
  | g :: gs => by
    have hholds : s.holdsOn g = .ok true := by rw [holdsOn, h]
    rw [groupsWhere, hholds, ok_bind, groupsWhere_of_none h gs]
    rfl

/-- Without further clauses the rows that the items give on the groups are put together. -/
theorem meaning_eq_groups (hf : s.filter = none) (hh : s.having = none) (ho : s.orderBy = []) (hl : s.limit = none)
    (hk : k.isEmpty = false) :
    s.meaning (some k) = s.groups k >>= fun gs =>
      (gs.mapM (s.rowsOn (s.itemsOn k.fields))).map fun rows => ⟨s.namesOn k.fields, rows.flatten⟩ := by
  have hkept : s.kept k = .ok k := by rw [kept, hf]
  unfold meaning
  simp only [Option.getD_some, Option.isSome_some, Bool.true_and, hk, hkept, ok_bind, Bool.false_eq_true, if_false]
  refine bind_congr_ok fun gs _ => ?_
  have hordered : s.ordered gs = .ok gs := by rw [ordered, ho]; rfl
  rw [groupsWhere_of_none hh, ok_bind, hordered, ok_bind]
  unfold limited
  rw [hl]
  cases gs.mapM (s.rowsOn (s.itemsOn k.fields)) <;> rfl

/-! ## Items with a value on each row -/

/-- There are items, and none of them has an aggregate or a star. -/
structure Rowwise (s : Select) : Prop where
  nonempty : s.items ≠ []
  aggregates : ∀ e ∈ s.items, e.containsAggregate = false
  stars : ∀ e ∈ s.items, e.hasStrayWildcard = false

theorem Rowwise.containsAggregates (h : s.Rowwise) : Expr.containsAggregates s.items = false := by
  rw [Expr.containsAggregates_eq_any, List.any_eq_false]
  exact fun e he => by simp [h.aggregates e he]

theorem Rowwise.wildcard_not_mem (h : s.Rowwise) : .wildcard ∉ Expr.leavesOf s.items := by
  intro hm
  obtain ⟨e, he, hm⟩ := Expr.mem_leavesOf.1 hm
  exact Expr.wildcard_not_mem_leaves e (h.stars e he) (h.aggregates e he) hm

theorem Rowwise.itemsOn (h : s.Rowwise) (hn : s.checkNames = .ok ()) (fields : List String) :
    s.itemsOn fields = s.items :=
  itemsOn_eq hn (fun hm => Bool.noConfusion (h.stars .wildcard hm)) fields

/-- Without group keys and aggregates the rows collapse if no column stands in the items. -/
theorem collapses_of_ungrouped {items : List Expr} (hg : s.groupBy = []) (ha : Expr.containsAggregates items = false) :
    s.collapses items = !Expr.haveBareToken items := by
  have hall : items.filter (!s.groupBy.contains ·) = items :=
    List.filter_eq_self.2 fun e _ => by rw [hg]; rfl
  rw [collapses, hall, ← Expr.containsAggregates_eq_any, ha, Bool.or_false]
  rfl

/-- Where a run without a filter succeeds on a table that has rows, the columns of the items are there. -/
theorem resolves_of_run (hs : s.Rowwise) (hn : s.checkNames = .ok ()) (hf : s.filter = none) (hk : k.isEmpty = false)
    (h : s.run (some k) = .ok r) : k.Resolves (Expr.leavesOf s.items) := by
  rw [run_eq] at h
  simp only [Option.getD_some, Option.isSome_some, Bool.true_and, hk, kept, hf, ok_bind, hs.itemsOn hn,
    Bool.false_eq_true, if_false] at h
  obtain ⟨w, hworking, -⟩ := bind_ok h
  rw [workingTable_eq] at hworking
  obtain ⟨chosen, hchosen, -⟩ := bind_ok hworking
  exact Table.resolves_of_choose hchosen hs.wildcard_not_mem

/-- Without a filter and further clauses the items give the values on the rows, or on the first row only
if no column stands in them. -/
theorem rows_of_run (h : s.Plain) (hs : s.Rowwise) (hn : s.checkNames = .ok ()) (hf : s.filter = none)
    (hd : Table.Distinct k.fields) (hk : k.isEmpty = false) (hr : s.run (some k) = .ok r) :
    ∃ rows, Expr.evalTable k s.items = .ok ⟨Expr.labels s.items, rows⟩ ∧
      r = ⟨s.namesOn k.fields, if Expr.haveBareToken s.items then rows else rows.take 1⟩ := by
  have hexprs : s.exprs = s.items := by simp [exprs, hf, h.groupBy, h.having, h.orderBy]
  have hresolves : k.Resolves (Expr.leavesOf s.exprs) := hexprs ▸ resolves_of_run hs hn hf hk hr
  have hgroups : s.groups k = .ok [k] := by rw [groups, h.groupBy]; rfl
  have hcollapses := collapses_of_ungrouped h.groupBy hs.containsAggregates
  have hmeaning : s.run (some k) = s.meaning (some k) := run_eq_meaning hd hresolves
  rw [hr, meaning_eq_groups hf h.having h.orderBy h.limit hk, hs.itemsOn hn, hgroups, ok_bind] at hmeaning
  obtain ⟨parts, hparts, rfl⟩ := map_eq_ok hmeaning.symm
  obtain _ | ⟨hrow, hnil⟩ := mapM_ok_forall₂ hparts
  cases hnil
  obtain ⟨out, hout, hrow⟩ := bind_ok hrow
  cases hrow
  refine ⟨out.rows, hout.trans (congrArg Except.ok ?_), ?_⟩
  · rw [← Expr.fields_evalTable hout]
  · rw [hcollapses]
    cases Expr.haveBareToken s.items <;> simp

/-! ## Groups by all items -/

/-- The selection with all its items as group keys. -/
def distinct (s : Select) : Select := { s with groupBy := s.items }

/-- No item stands beside the keys, so each group gives one row. -/
theorem collapses_distinct (s : Select) : s.distinct.collapses s.items = true := by
  have hnone : s.items.filter (!s.items.contains ·) = [] := List.filter_eq_nil_iff.2 fun e he => by simp [he]
  have hall : Expr.allInAggregate (s.items.filter (!s.items.contains ·)) = true := by rw [hnone]; rfl
  exact (congrArg (· || s.items.any (·.containsAggregate)) hall).trans (Bool.true_or _)

theorem groupKeys_eq (hk : k.isEmpty = false) :
    s.groupKeys k = (Expr.evalTable k s.groupBy).map fun out => out.rows.map (·.map Value.groupKey) := by
  rw [Expr.evalTable_eq hk, groupKeys]
  cases s.groupBy.mapM (Expr.evalRows k) <;> rfl

end Select

/-- Groups by keys that are computed from the rows. -/
theorem Table.groupsBy_map (t : Table) (key : Row → List Value) :
    t.groupsBy (t.rows.map key) =
      (t.rows.map key).eraseDups.map fun v => { t with rows := t.rows.filter (key · == v) } := by
  have hzip : (t.rows.map key).zip t.rows = t.rows.map fun row => (key row, row) := List.map_prod_right_eq_zip.symm
  unfold groupsBy
  refine List.map_congr_left fun v _ => congrArg (Table.mk t.fields) ?_
  rw [hzip, List.filter_map, List.map_map]
  exact List.map_id _

namespace Select

variable {s : Select} {k r : Table}

/-- The groups under the values of the items on the rows. -/
theorem groups_distinct (hne : s.items ≠ []) (hk : k.isEmpty = false) {value : Row → Row}
    (hrows : Expr.evalTable k s.items = .ok ⟨Expr.labels s.items, k.rows.map value⟩) :
    let key (row : Row) : List Value := (value row).map Value.groupKey
    s.distinct.groups k = .ok ((k.rows.map key).eraseDups.map fun v => ⟨k.fields, k.rows.filter (key · == v)⟩) := by
  intro key
  have hkeys : s.distinct.groupKeys k = .ok (k.rows.map key) := by
    rw [groupKeys_eq hk, distinct, hrows, map_ok, List.map_map]
    rfl
  have hkeyed : s.distinct.groupBy.isEmpty = false := List.isEmpty_eq_false_iff.2 hne
  rw [groups, hkeyed, hkeys, ok_bind, Table.groupsBy_map]
  rfl

/-- Some of the rows give the values of the first of them. -/
theorem rowsOn_distinct (hs : s.Rowwise) {rows : List Row} (hne : k.rows ≠ [])
    (hrows : Expr.evalTable k s.items = .ok ⟨Expr.labels s.items, rows⟩) {part : List Row} (hpart : part ≠ [])
    (hsub : part ⊆ k.rows) :
    s.distinct.rowsOn s.items ⟨k.fields, part⟩ = .ok ((part.map (Expr.rowOf k s.items)).take 1) := by
  have hout := Expr.evalTable_part (u := ⟨k.fields, part⟩) hs.containsAggregates hne hrows rfl hpart hsub
  rw [rowsOn, hout, ok_bind, collapses_distinct]
  rfl

/-- Without a filter and further clauses, grouping by all items leaves the rows that repeat none. -/
theorem run_distinct_rows (h : s.Plain) (hs : s.Rowwise) (hn : s.checkNames = .ok ()) (hf : s.filter = none)
    (hd : Table.Distinct k.fields) (hk : k.isEmpty = false) (hresolves : k.Resolves (Expr.leavesOf s.items))
    {rows : List Row} (hrows : Expr.evalTable k s.items = .ok ⟨Expr.labels s.items, rows⟩) :
    s.distinct.run (some k) = .ok (Table.withoutRepeats ⟨s.namesOn k.fields, rows⟩) := by
  have hne : k.rows ≠ [] := List.isEmpty_eq_false_iff.1 hk
  have hall := Expr.evalTable_part hs.containsAggregates hne hrows rfl hne (List.Subset.refl _)
  cases hrows.symm.trans hall
  let value := Expr.rowOf k s.items
  let key (row : Row) : List Value := (value row).map Value.groupKey
  have hexprs : s.distinct.exprs = s.items ++ s.items := by simp [exprs, distinct, hf, h.having, h.orderBy]
  have hsubset : Expr.leavesOf s.distinct.exprs ⊆ Expr.leavesOf s.items :=
    Expr.leavesOf_subset fun e he => by simpa [hexprs] using he
  have hmeaning : s.distinct.run (some k) = s.distinct.meaning (some k) :=
    run_eq_meaning hd (hresolves.mono hsubset)
  have hitems : s.distinct.itemsOn k.fields = s.items := hs.itemsOn hn k.fields
  have hfirst : ∀ g ∈ (k.rows.map key).eraseDups.map fun v => Table.mk k.fields (k.rows.filter (key · == v)),
      s.distinct.rowsOn s.items g = .ok ((g.rows.map value).take 1) := by
    intro g hg
    obtain ⟨v, hv, rfl⟩ := List.mem_map.1 hg
    obtain ⟨row, hrow, hkey⟩ := List.mem_map.1 (List.mem_eraseDups.1 hv)
    have hmem : row ∈ k.rows.filter (key · == v) := List.mem_filter.2 ⟨hrow, by simp [hkey]⟩
    exact rowsOn_distinct hs hne hall (List.ne_nil_of_mem hmem) List.filter_sublist.subset
  rw [hmeaning, meaning_eq_groups (s := s.distinct) hf h.having h.orderBy h.limit hk,
    groups_distinct hs.nonempty hk hall, ok_bind, hitems, mapM_eq_ok hfirst]
  -- the first row of each group is the first one with its key
  have hrepeats := eraseDupsBy_eq_flatMap (fun row : Row => row.map Value.groupKey) (k.rows.map value)
  refine congrArg (fun rows => Except.ok (Table.mk (s.namesOn k.fields) rows)) ?_
  refine Eq.trans ?_ hrepeats.symm
  simp only [List.map_map, List.flatMap_def, List.filter_map]
  rfl

/-- Without a filter, grouping by all items leaves of the rows of a selection those that repeat none. -/
theorem run_distinct_whole (h : s.Plain) (hs : s.Rowwise) (hn : s.checkNames = .ok ()) (hf : s.filter = none)
    (hd : Table.Distinct k.fields) (hk : k.isEmpty = false) (hr : s.run (some k) = .ok r) :
    s.distinct.run (some k) = .ok r.withoutRepeats := by
  obtain ⟨rows, hrows, rfl⟩ := rows_of_run h hs hn hf hd hk hr
  rw [run_distinct_rows h hs hn hf hd hk (resolves_of_run hs hn hf hk hr) hrows]
  refine congrArg Except.ok (congrArg (Table.mk _) ?_)
  by_cases hb : Expr.haveBareToken s.items = true
  · rw [if_pos hb]
  · -- without columns all rows are the same
    have hne : k.rows ≠ [] := List.isEmpty_eq_false_iff.1 hk
    have hall := Expr.evalTable_part hs.containsAggregates hne hrows rfl hne (List.Subset.refl _)
    cases hrows.symm.trans hall
    rw [if_neg hb]
    refine (eraseDupsBy_take_one fun a ha b hb' => ?_).symm
    obtain ⟨row, -, rfl⟩ := List.mem_map.1 ha
    obtain ⟨row', -, rfl⟩ := List.mem_map.1 hb'
    exact Expr.rowOf_of_not_bare hs.containsAggregates (Bool.not_eq_true _ ▸ hb) row row'

/-- Grouping by all items leaves of the rows of a selection those that repeat none. -/
theorem run_distinct {source : Option Table} (h : s.Plain) (hs : s.Rowwise) (hn : s.checkNames = .ok ())
    (hd : Table.Distinct (source.getD dummy).fields) (hr : s.run source = .ok r) :
    s.distinct.run source = .ok r.withoutRepeats := by
  rw [run_eq_filtered] at hr ⊢
  simp only at hr ⊢
  split at hr
  · rename_i hempty
    cases hr
    exact if_pos hempty
  · rename_i hempty
    obtain ⟨k, hkept, hr⟩ := bind_ok hr
    have hkept' : s.distinct.kept (source.getD dummy) = .ok k := hkept
    rw [if_neg hempty, hkept', ok_bind]
    by_cases hk : k.isEmpty = true
    · rw [run_eq] at hr ⊢
      simp only [Option.getD_some, Option.isSome_some, Bool.true_and, hk, if_true] at hr ⊢
      cases hr
      rfl
    · have h' : Plain { s with filter := none } := ⟨h.groupBy, h.having, h.orderBy, h.limit⟩
      have hs' : Rowwise { s with filter := none } := ⟨hs.nonempty, hs.aggregates, hs.stars⟩
      exact run_distinct_whole h' hs' hn rfl (fields_kept hkept ▸ hd) (Bool.not_eq_true _ ▸ hk) hr

/-! ## Checks and requests -/

/-- Items without aggregates pass the checks of group keys. -/
theorem check_distinct {hasSource : Bool} (h : s.Plain) (hs : s.Rowwise) (hc : s.check hasSource = .ok ()) :
    s.distinct.check hasSource = .ok () := by
  have hchecked := check_eq_ok_iff.1 hc
  refine check_eq_ok_iff.2 ⟨hchecked.items, hchecked.source, fun p hp => ?_, hs.aggregates, hchecked.filter,
    hchecked.names⟩
  simp only [clauses, distinct, h.having, h.orderBy, List.mem_append] at hp
  rcases hp with ((hp | hp) | hp) | hp
  · exact hchecked.clauses p (by simp only [clauses, List.mem_append]; exact .inl (.inl (.inl hp)))
  · obtain ⟨e, he, rfl⟩ := List.mem_map.1 hp
    exact hs.stars e he
  · cases hp
  · cases hp

/-- The group keys refer to no further columns. -/
theorem tokens_distinct (h : s.Plain) : s.distinct.tokens = s.tokens := by
  have hexprs : s.distinct.exprs = s.exprs ++ s.items := by
    simp [exprs, distinct, h.groupBy, h.having, h.orderBy]
  unfold tokens
  rw [hexprs]
  exact Expr.tokens_append (Expr.leavesOf_subset items_subset_exprs)

end Select

/-! ## Queries -/

/-- A query that reads a table with names that are pairwise different up to letter case gives, with all its
items as group keys, its rows without repetition. -/
theorem Query.execute_distinct {fetch : Fetcher} {s : Select} {label : String} {r : Table} (h : s.Plain)
    (hs : s.Rowwise) (hd : ∀ t, fetch ⟨label, s.tokens⟩ = .ok t → Table.Distinct t.fields)
    (hr : (Query.table s label).execute fetch = .ok r) :
    (Query.table s.distinct label).execute fetch = .ok r.withoutRepeats := by
  rw [execute_eq] at hr ⊢
  obtain ⟨_, hc, hr⟩ := bind_ok hr
  obtain ⟨source, hsource, hr⟩ := bind_ok hr
  have hsource' : (Query.table s.distinct label).source fetch = .ok source := by
    rw [Query.source, Select.tokens_distinct h]
    exact hsource
  obtain ⟨t, ht, rfl⟩ := map_eq_ok hsource
  have hc' : s.distinct.check true = .ok () := Select.check_distinct h hs hc
  rw [hsource']
  show (s.distinct.check true >>= fun _ => s.distinct.run (some t)) = _
  rw [hc', ok_bind]
  exact Select.run_distinct h hs (Select.checkNames_of_check hc) (hd t ht) hr

end TableQuery
