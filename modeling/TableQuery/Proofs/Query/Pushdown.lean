/-
Projection pushdown: a selection gives the same result, or the same error, on a table and on any
part of it that keeps the order of the columns and holds all columns that the selection refers to.
In particular it gives the same on the projection that a fetcher makes for it.

The proof follows the stages. A name finds in the part the column that it finds in the table, so
filters keep the same rows, and the places chosen in the part are those chosen in the table. Hence
both runs have the same working table, and what comes after it does not see the source.
-/
import TableQuery.Proofs.Query.Stages
import Mathlib.Data.List.Nodup
import Mathlib.Data.List.Perm.Subperm

namespace TableQuery

/-! ## Parts of a table -/

namespace Table

/-- Whether all columns that the tokens refer to are among these; a star refers to every column. -/
def Covers (t : Table) (cols : List Nat) (tokens : TokenSet) : Prop :=
  (tokens.isWildcard = true → ∀ i < t.width, i ∈ cols) ∧
    ∀ name ∈ tokens.columns, ∃ i ∈ cols, t.columnIndex? name = some i

variable {t : Table} {cols : List Nat}

theorem eq_range_of_sublist {n : Nat} (hc : cols.Sublist (List.range n)) (h : ∀ i < n, i ∈ cols) :
    cols = List.range n := by
  refine hc.eq_of_length_le ?_
  exact (List.nodup_range.subperm fun i hi => h i (List.mem_range.1 hi)).length_le

theorem select_range (ht : t.WellFormed) : t.select (List.range t.width) = t := by
  have hrows : t.rows.map (fun r => (List.range t.width).map (r.getD · .null)) = t.rows := by
    conv_rhs => rw [← List.map_id t.rows]
    refine List.map_congr_left fun r hr => ?_
    rw [show t.width = r.length from (ht r hr).symm, map_getD_range]; rfl
  have hfields : (List.range t.width).map t.fieldAt = t.fields := map_getD_range t.fields ""
  unfold select
  rw [hfields, hrows]

/-- Choosing places in a part of a table is choosing the columns at these places. -/
theorem select_select (t : Table) {cols ps : List Nat} (hp : ∀ p ∈ ps, p < cols.length) :
    (t.select cols).select ps = t.select (ps.map (cols.getD · 0)) := by
  unfold select
  simp only [List.map_map, mk.injEq]
  constructor
  · refine List.map_congr_left fun p h => ?_
    rw [Function.comp, List.getD_eq_getElem _ _ (hp p h)]
    exact fieldAt_select t (hp p h)
  · refine List.map_congr_left fun r _ => List.map_congr_left fun p h => ?_
    simp [List.getD_eq_getElem?_getD, hp p h]

/-- Where a name finds its column in a part of a table. -/
theorem columnIndex?_select (hc : cols.Sublist (List.range t.width)) {name : String} {i : Nat}
    (h : t.columnIndex? name = some i) (hi : i ∈ cols) :
    ∃ p, (t.select cols).columnIndex? name = some p ∧ p < cols.length ∧ cols.getD p 0 = i := by
  have hm : ((t.select cols).columnIndex? name).map (cols.getD · 0) = t.among? cols name := by
    have hf : (t.select cols).fields = cols.map t.fieldAt := rfl
    unfold columnIndex? among?
    rw [hf, List.findIdx?_map, List.findIdx?_map, Option.map_or,
      map_findIdx?_eq (g := id) fun p hp => List.getD_eq_getElem _ _ hp,
      map_findIdx?_eq (g := id) fun p hp => List.getD_eq_getElem _ _ hp, Option.map_id]
    rfl
  rw [among?_of_sublist hc h hi] at hm
  obtain ⟨p, hp, hpi⟩ := Option.map_eq_some_iff.1 hm
  refine ⟨p, hp, ?_, hpi⟩
  have := columnIndex?_lt hp
  simpa [select, width] using this

/-- A part with the columns that the tokens name agrees with the table on them. -/
theorem agree_select (hc : cols.Sublist (List.range t.width)) {ts : List Token} (h : t.Holds cols ts) :
    (t.select cols).Agree ts t := by
  refine ⟨by simp [size, select], fun name hn => ?_⟩
  obtain ⟨i, hi, hti⟩ := h name hn
  rw [valuesOf?_select, among?_of_sublist hc hti hi, valuesOf?, hti]

/-! ## Choosing columns in a part -/

/-- Without a star the places chosen in the part are those of the columns chosen in the table. -/
theorem choose_select (hc : cols.Sublist (List.range t.width)) {es : List Expr}
    (hw : .wildcard ∉ Expr.leavesOf es) (h : t.Holds cols (Expr.leavesOf es)) {ps : List Nat}
    (hp : ∀ p ∈ ps, p < cols.length) :
    ∃ ps', (t.select cols).choose ps es = .ok ps' ∧
      t.choose (ps.map (cols.getD · 0)) es = .ok (ps'.map (cols.getD · 0)) ∧ ∀ p ∈ ps', p < cols.length := by
  have hplace : ∀ name ∈ (Expr.tokens es).columns,
      (t.select cols).columnIndex? name = some (((t.select cols).columnIndex? name).getD 0) ∧
      ((t.select cols).columnIndex? name).getD 0 < cols.length ∧
      t.columnIndex? name = some (cols.getD (((t.select cols).columnIndex? name).getD 0) 0) := by
    intro name hn
    obtain ⟨i, hi, hti⟩ := h name ((Expr.mem_columns hw).1 hn)
    obtain ⟨p, hp, hpl, hpi⟩ := columnIndex?_select hc hti hi
    rw [hp, hti]
    exact ⟨rfl, hpl, by rw [Option.getD_some, hpi]⟩
  -- `f` is the place of a name in the part; only what `hplace` says of it is needed
  generalize hf : (fun name => ((t.select cols).columnIndex? name).getD 0) = f at hplace
  simp only [funext_iff] at hf
  simp only [hf] at hplace
  have hl : ∀ p ∈ ps ++ (Expr.tokens es).columns.map f, p < cols.length := by
    intro p hm
    rcases List.mem_append.1 hm with hm | hm
    · exact hp p hm
    · obtain ⟨name, hn, rfl⟩ := List.mem_map.1 hm
      exact (hplace name hn).2.1
  refine ⟨_, (choose_of_not_mem hw ps).trans (addNamed_eq fun name hn => (hplace name hn).1), ?_, fun p hm => ?_⟩
  · rw [choose_of_not_mem hw, addNamed_eq fun name hn => (hplace name hn).2.2]
    have hg := foldl_addOnce_map (cols.getD · 0) ((Expr.tokens es).columns.map f) ps fun a ha b hb hab => by
      rw [List.getD_eq_getElem _ _ (hl a ha), List.getD_eq_getElem _ _ (hl b hb)] at hab
      exact (List.Nodup.getElem_inj_iff (hc.nodup List.nodup_range)).1 hab
    rw [List.map_map] at hg
    exact congrArg Except.ok hg
  · exact hl p (List.mem_append.2 (mem_foldl_addOnce.1 hm))

end Table

/-! ## Stages on a part -/

theorem keepTrue_map (f : Row → Row) : ∀ (rows : List Row) (mask : List Value),
    keepTrue (rows.map f) mask = (keepTrue rows mask).map (List.map f)
  | [], mask => by cases mask <;> rfl
  | row :: rows, [] => rfl
  | row :: rows, v :: mask => by
    rw [List.map_cons, keepTrue, keepTrue, keepTrue_map f rows mask]
    rcases v.truth with e | b
    · rfl
    · rcases keepTrue rows mask with e | rest
      · rfl
      · simp only [ok_bind, map_ok, pure_eq_ok]
        split <;> rfl

theorem Table.filterBy_select {t : Table} {cols : List Nat} {c : Expr} (ht : t.WellFormed)
    (h : (t.select cols).Agree (Expr.leaves c) t) :
    (t.select cols).filterBy c = (t.filterBy c).map (·.select cols) := by
  rw [filterBy_eq (t.wellFormed_select cols), filterBy_eq ht, Expr.evalRows_agree h]
  rcases Expr.evalRows t c with e | mask
  · rfl
  · simp only [ok_bind]
    rw [show (t.select cols).rows = t.rows.map fun r => cols.map (r.getD · .null) from rfl, keepTrue_map]
    cases keepTrue t.rows mask <;> rfl

namespace Select

variable {s : Select} {t : Table} {cols : List Nat}

theorem kept_select (ht : t.WellFormed) (hc : cols.Sublist (List.range t.width))
    (h : t.Holds cols (Expr.leavesOf s.exprs)) :
    s.kept (t.select cols) = (s.kept t).map (·.select cols) := by
  unfold kept
  cases hf : s.filter with
  | none => rfl
  | some c =>
    have hsub : Expr.leaves c ⊆ Expr.leavesOf s.exprs :=
      Expr.leaves_subset_leavesOf (filter_subset_exprs (by simp [hf]))
    exact Table.filterBy_select ht (Table.agree_select hc (h.mono (List.Subset.refl _) hsub))

/-- Both runs have the same working table. -/
theorem workingTable_select (hc : cols.Sublist (List.range t.width)) (hw : .wildcard ∉ Expr.leavesOf s.exprs)
    (h : t.Holds cols (Expr.leavesOf s.exprs)) {items : List Expr} (hi : items ⊆ s.exprs) :
    s.workingTable items (t.select cols) = s.workingTable items t := by
  have part : ∀ es, es ⊆ s.exprs → ∀ ps : List Nat, (∀ p ∈ ps, p < cols.length) →
      ∃ ps', (t.select cols).choose ps es = .ok ps' ∧
        t.choose (ps.map (cols.getD · 0)) es = .ok (ps'.map (cols.getD · 0)) ∧ ∀ p ∈ ps', p < cols.length :=
    fun es hs ps hp => Table.choose_select hc (fun hm => hw (Expr.leavesOf_subset hs hm))
      (h.mono (List.Subset.refl _) (Expr.leavesOf_subset hs)) hp
  obtain ⟨p1, n1, t1, l1⟩ := part items hi [] (by simp)
  obtain ⟨p2, n2, t2, l2⟩ := part (s.orderBy.map (·.expr)) orderBy_subset_exprs p1 l1
  obtain ⟨p3, n3, t3, l3⟩ := part s.having.toList having_subset_exprs p2 l2
  have hk : Expr.evalTable (t.select cols) s.groupBy = Expr.evalTable t s.groupBy :=
    Expr.evalTable_agree
      (Table.agree_select hc (h.mono (List.Subset.refl _) (Expr.leavesOf_subset groupBy_subset_exprs)))
  unfold workingTable
  rw [List.map_nil] at t1
  simp only [n1, n2, n3, t1, t2, t3, ok_bind, hk, Table.select_select t l3, List.length_map]

/-- A selection does not see the columns of its source that it does not refer to. -/
theorem run_select (ht : t.WellFormed) (hc : cols.Sublist (List.range t.width)) (hcov : t.Covers cols s.tokens) :
    s.run (some (t.select cols)) = s.run (some t) := by
  by_cases hw : .wildcard ∈ Expr.leavesOf s.exprs
  · -- a star needs every column, so the part is the table itself
    rw [Table.eq_range_of_sublist hc (hcov.1 (Expr.isWildcard_tokens.2 hw)), Table.select_range ht]
  · have h : t.Holds cols (Expr.leavesOf s.exprs) := fun name hn => hcov.2 name ((Expr.mem_columns hw).2 hn)
    have hstar : .wildcard ∉ s.items := fun hm =>
      hw (Expr.leaves_subset_leavesOf (items_subset_exprs hm) (by simp [Expr.leaves]))
    have hx := expand_of_not_mem hstar (t.select cols).fields t.fields
    have hitems : s.itemsOn (t.select cols).fields = s.itemsOn t.fields := by unfold itemsOn; rw [hx]
    have hnames : s.namesOn (t.select cols).fields = s.namesOn t.fields := by unfold namesOn; rw [hx]
    have hsub : s.itemsOn t.fields ⊆ s.exprs := by
      intro e he
      rw [itemsOn, expand_of_not_mem hstar t.fields []] at he
      rcases mem_itemsOn he with he | ⟨f, hf, -⟩
      · exact items_subset_exprs he
      · cases hf
    have hempty : ∀ u : Table, (u.select cols).isEmpty = u.isEmpty := fun u => by simp [Table.isEmpty, Table.select]
    rw [run_eq, run_eq]
    simp only [Option.getD_some, Option.isSome_some, Bool.true_and, hitems, hnames, hempty, kept_select ht hc h,
      map_bind_eq]
    split
    · rfl
    · refine bind_congr_ok fun k hk => ?_
      have hf := fields_kept hk
      have hkc : cols.Sublist (List.range k.width) := by unfold Table.width at hc ⊢; rwa [hf]
      rw [workingTable_select hkc hw (h.congr hf.symm) hsub]

end Select

/-! ## Pushdown -/

namespace Table

/-- A projection is a part of the table that holds all columns asked for. -/
theorem covers_of_project {t p : Table} {es : List Expr} (ht : t.WellFormed)
    (h : t.project (Expr.tokens es) = .ok p) :
    ∃ cols, p = t.select cols ∧ cols.Sublist (List.range t.width) ∧ t.Covers cols (Expr.tokens es) := by
  unfold project at h
  by_cases hw : .wildcard ∈ Expr.leavesOf es
  · rw [Expr.tokens_of_mem hw] at h ⊢
    cases h
    exact ⟨List.range t.width, (select_range ht).symm, List.Sublist.refl _,
      fun _ i hi => List.mem_range.2 hi, fun name hn => by cases hn⟩
  · rw [if_neg fun hs => hw (Expr.isWildcard_tokens.1 hs)] at h
    obtain ⟨named, hnamed, h⟩ := bind_ok h
    cases h
    refine ⟨_, rfl, List.filter_sublist, fun hs => absurd (Expr.isWildcard_tokens.1 hs) hw, fun name hn => ?_⟩
    obtain ⟨js, rfl, -, hnames⟩ := addNamed_ok hnamed
    obtain ⟨i, hi, hti⟩ := hnames name hn
    have hmem : i ∈ js.foldl addOnce [] := subset_foldl_addOnce js [] hi
    exact ⟨i, List.mem_filter.2 ⟨List.mem_range.2 (columnIndex?_lt hti), List.contains_iff_mem.2 hmem⟩, hti⟩

end Table

/-- Asked for some columns under a label, the fetcher gives the whole table or its projection. -/
def Fetcher.Serves (fetch : Fetcher) (label : String) (t : Table) : Prop :=
  ∀ tokens, fetch ⟨label, tokens⟩ = .ok t ∨ fetch ⟨label, tokens⟩ = t.project tokens

namespace Query

variable {fetch : Fetcher} {s : Select} {label : String} {t r : Table}

/-- A query that succeeds on a served table has run on the whole of it. -/
theorem run_of_serves (ht : t.WellFormed) (h : fetch.Serves label t)
    (hr : (Query.table s label).execute fetch = .ok r) : s.check true = .ok () ∧ s.run (some t) = .ok r := by
  rw [execute_eq] at hr
  obtain ⟨_, hc, hr⟩ := bind_ok hr
  obtain ⟨source, hsource, hr⟩ := bind_ok hr
  obtain ⟨u, hu, rfl⟩ := map_eq_ok hsource
  refine ⟨hc, ?_⟩
  rcases h s.tokens with hwhole | hpart
  · cases hu.symm.trans hwhole
    exact hr
  · obtain ⟨cols, rfl, hcols, hcov⟩ := Table.covers_of_project ht (hpart.symm.trans hu)
    rw [← hr]
    exact (Select.run_select ht hcols hcov).symm

/-- A star asks for the whole table. -/
theorem execute_of_serves (h : fetch.Serves label t) (hc : s.check true = .ok ())
    (hw : .wildcard ∈ Expr.leavesOf s.exprs) : (Query.table s label).execute fetch = s.run (some t) := by
  have hall : fetch ⟨label, s.tokens⟩ = .ok t := by
    rw [Select.tokens, Expr.tokens_of_mem hw]
    exact (h .all).elim id fun hpart => hpart
  refine execute_of_source hc ?_
  rw [source, hall]
  rfl

end Query

/-- Projection pushdown is sound. Where the projection of a table to the columns that a query refers
to exists, a fetcher that gives the projection, and one that gives any part of the table in its
order with these columns, lead to the result or the error of a fetcher that gives the whole table. -/
theorem execute_of_part {s : Select} {label : String} {t p : Table} {whole : Fetcher} (ht : t.WellFormed)
    (hp : t.project s.tokens = .ok p) (hwhole : whole ⟨label, s.tokens⟩ = .ok t) :
    (∀ fetch : Fetcher, fetch ⟨label, s.tokens⟩ = .ok p →
      (Query.table s label).execute fetch = (Query.table s label).execute whole) ∧
    ∀ cols : List Nat, cols.Sublist (List.range t.width) → t.Covers cols s.tokens →
      ∀ fetch : Fetcher, fetch ⟨label, s.tokens⟩ = .ok (t.select cols) →
        (Query.table s label).execute fetch = (Query.table s label).execute whole := by
  have hpart : ∀ cols : List Nat, cols.Sublist (List.range t.width) → t.Covers cols s.tokens →
      ∀ fetch : Fetcher, fetch ⟨label, s.tokens⟩ = .ok (t.select cols) →
        (Query.table s label).execute fetch = (Query.table s label).execute whole := by
    intro cols hc hcov fetch hf
    rw [Query.execute_eq, Query.execute_eq]
    simp only [Query.source, hf, hwhole, map_ok, ok_bind, Query.select, Select.run_select ht hc hcov]
  obtain ⟨cols, rfl, hc, hcov⟩ := Table.covers_of_project ht hp
  exact ⟨hpart cols hc hcov, hpart⟩

/-- Two columns of one name in different letter case, one of which only the order refers to. -/
theorem execute_of_part_people :
    let people : Table := ⟨["id", "Name", "NAME", "age"],
      [[.int 1, .text "a", .text "x", .int 30], [.int 2, .text "b", .text "y", .int 20]]⟩
    let s : Select := {
      items := [.column "name", .call "sum" [.column "age"]]
      groupBy := [.column "name"]
      orderBy := [⟨.column "NAME", .desc⟩] }
    let part := people.select [1, 2, 3]
    people.WellFormed ∧ people.project s.tokens = .ok part ∧ people.Covers [1, 2, 3] s.tokens ∧
      (Query.table s "people").execute (fun _ => .ok part) =
        (Query.table s "people").execute (fun _ => .ok people) := by
  intro people s part
  have ht : people.WellFormed := by decide
  have hp : people.project s.tokens = .ok part := rfl
  have hcov : people.Covers [1, 2, 3] s.tokens := ⟨by decide, by decide⟩
  exact ⟨ht, hp, hcov, (execute_of_part ht hp rfl).2 [1, 2, 3] (by decide) hcov _ rfl⟩

end TableQuery
