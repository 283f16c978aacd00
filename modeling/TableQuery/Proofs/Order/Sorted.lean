/-
The sorts of rows and tables. Each of them fails if and only if a key cannot be evaluated or the values of a key are
of different classes, and else gives what it sorts in lexicographic order of the keys, what has equal keys
in the order in which it was. The three differ only in where the key columns come from.
-/
import TableQuery.Proofs.Expr.Rowwise
import TableQuery.Proofs.Order.Keys
import TableQuery.Proofs.Order.Stable
import TableQuery.Proofs.Query.KeyColumns

namespace TableQuery

namespace Order

variable {α : Type} {ds : List Direction} {cs : List (List Value)} {xs ys : List α}

/-! ## Specification -/

/-- Elements with their keys and places, of which the first one has to come first. -/
def ComesFirst (ds : List Direction) (a b : (List Value × α) × Nat) : Prop :=
  Precedes ds a.1.1 b.1.1 ∨ (Ties a.1.1 b.1.1 ∧ a.2 < b.2)

/-- The second list is the first one, whose elements have these keys, in lexicographic order of the keys, those with
equal keys in the order in which they were. -/
def StablySorted (ds : List Direction) (keys : List (List Value)) (xs ys : List α) : Prop :=
  ∃ sorted : List ((List Value × α) × Nat), sorted.Perm (keys.zip xs).zipIdx ∧ sorted.Pairwise (ComesFirst ds) ∧
    ys = sorted.map (·.1.2)

/-- What is required of a sort by key columns, each of which may have failed to evaluate. -/
structure Sorts (ds : List Direction) (columns : List (Except Error (List Value))) (xs : List α)
    (result : Except Error (List α)) : Prop where
  /-- A column is missing, or holds two values other than null that are of different classes. -/
  fails : (∃ e, result = .error e) ↔
    ∃ column ∈ columns, (∃ e, column = .error e) ∨ ∃ c, column = .ok c ∧ ¬Comparable c
  sorted : ∀ ys, result = .ok ys →
    ∃ cs : List (List Value), columns = cs.map .ok ∧ ys.Perm xs ∧
      StablySorted ds (rowsOfColumns xs.length cs) xs ys
  /-- No two values are taken as equal because they do not compare. -/
  compares : ∀ ys, result = .ok ys → ∀ c, .ok c ∈ columns → ∀ a ∈ c, ∀ b ∈ c, ∃ o, a.compare b = .ok o

/-! ## Sorting by columns -/

/-- Rows of columns have their keys from these columns. -/
theorem inColumns_of_mem : ∀ {n : Nat} {cs : List (List Value)} {row : Row}, (∀ c ∈ cs, c.length = n) →
    row ∈ rowsOfColumns n cs → InColumns cs row
  | 0, _, _, _, h => by cases h
  | n + 1, cs, row, hlen, h => by
    rw [rowsOfColumns] at h
    unfold InColumns
    obtain rfl | h := List.mem_cons.1 h
    · rw [List.forall₂_map_left_iff, List.forall₂_same]
      intro c hc
      obtain ⟨v, vs, rfl⟩ := List.exists_cons_of_length_eq_add_one (hlen c hc)
      exact List.mem_cons_self ..
    · have htails : ∀ c ∈ cs.map List.tail, c.length = n := by
        intro c hc
        obtain ⟨c', hc', rfl⟩ := List.mem_map.1 hc
        rw [List.length_tail, hlen c' hc', Nat.add_sub_cancel]
      have hrest := inColumns_of_mem htails h
      unfold InColumns at hrest
      rw [List.forall₂_map_right_iff] at hrest
      exact hrest.imp fun _ _ => List.mem_of_mem_tail

/-- The elements ordered by the keys that stand beside them. -/
def sortKeyed (ds : List Direction) (cs : List (List Value)) (xs : List α) : List α :=
  (stableSort (fun a b => (compareKeys ds a.1 b.1).isLT) ((rowsOfColumns xs.length cs).zip xs)).map (·.2)

theorem sortKeyed_perm (ds : List Direction) (cs : List (List Value)) (xs : List α) : (sortKeyed ds cs xs).Perm xs := by
  have hxs : ((rowsOfColumns xs.length cs).zip xs).map (·.2) = xs :=
    List.map_snd_zip (Nat.le_of_eq (length_rowsOfColumns ..).symm)
  have hperm := (stableSort_perm (fun a b => (compareKeys ds a.1 b.1).isLT)
    ((rowsOfColumns xs.length cs).zip xs)).map (·.2)
  rwa [hxs] at hperm

theorem stablySorted_sortKeyed (hd : ds.length = cs.length) (hlen : ∀ c ∈ cs, c.length = xs.length)
    (hcs : ∀ c ∈ cs, Sortable c) : StablySorted ds (rowsOfColumns xs.length cs) xs (sortKeyed ds cs xs) := by
  have hkeys : ∀ p ∈ (rowsOfColumns xs.length cs).zip xs, InColumns cs p.1 :=
    fun p hp => inColumns_of_mem hlen (List.of_mem_zip hp).1
  have hnot : ∀ p q : List Value, (compareKeys ds p q).isLT = false ↔ (compareKeys ds q p).isLE = true := by
    intro p q
    rw [compareKeys_swap ds p q]
    cases compareKeys ds p q <;> simp
  have hstrict : IsStrict fun a b : {p // p ∈ (rowsOfColumns xs.length cs).zip xs} =>
      (compareKeys ds a.1.1 b.1.1).isLT := by
    refine ⟨fun {a b} h => ?_, fun {a b c} hab hbc => ?_⟩
    · rw [hnot]
      revert h
      cases compareKeys ds a.1.1 b.1.1 <;> simp
    · rw [hnot] at hab hbc ⊢
      exact compareKeys_trans hcs (hkeys _ a.2) (hkeys _ b.2) (hkeys _ c.2) hab hbc
  obtain ⟨sorted, hperm, hpairs, hsort⟩ :=
    exists_stableSort_of_mem (fun a b : List Value × α => (compareKeys ds a.1 b.1).isLT) hstrict
  have hmem : ∀ a ∈ sorted, InColumns cs a.1.1 :=
    fun a ha => hkeys _ (List.fst_mem_of_mem_zipIdx (hperm.subset ha))
  refine ⟨sorted, hperm, hpairs.imp_of_mem fun {a b} ha hb h => ?_, ?_⟩
  · have hcomparable := fun c hc => (hcs c hc).comparable
    have hlt : compareKeys ds a.1.1 b.1.1 = .lt ↔ Precedes ds a.1.1 b.1.1 :=
      compareKeys_eq_lt_iff hcomparable (hmem a ha) (hmem b hb)
    by_cases hab : compareKeys ds a.1.1 b.1.1 = .lt
    · exact .inl (hlt.1 hab)
    · obtain h | ⟨hba, hplace⟩ := h
      · exact absurd (Ordering.isLT_iff_eq_lt.1 h) hab
      · refine .inr ⟨ties_of_compareKeys hd hcomparable (hmem a ha) (hmem b hb) ?_, hplace⟩
        rw [hnot] at hba
        revert hab hba
        cases compareKeys ds a.1.1 b.1.1 <;> simp
  · rw [sortKeyed, hsort, List.map_map]
    rfl

/-! ## Checks -/

theorem forM_checkComparable_iff : ∀ {cs : List (List Value)}, cs.forM checkComparable = .ok () ↔ ∀ c ∈ cs, Comparable c
  | [] => by simp [List.forM]
  | c :: cs => by
    rw [List.forall_mem_cons, ← forM_checkComparable_iff, ← checkComparable_eq_ok_iff, List.forM_eq_forM,
      List.forM_cons, ← List.forM_eq_forM]
    cases checkComparable c with
    | error e => exact iff_of_false (by simp) (by simp)
    | ok u => simp

variable {columns : List (Except Error (List Value))} {result : Except Error (List α)}

theorem exists_columns_iff : (∃ cs : List (List Value), columns = cs.map .ok ∧ ∀ c ∈ cs, Comparable c) ↔
    ∀ column ∈ columns, ∃ c, column = .ok c ∧ Comparable c := by
  constructor
  · rintro ⟨cs, rfl, hcs⟩ column hm
    obtain ⟨c, hc, rfl⟩ := List.mem_map.1 hm
    exact ⟨c, rfl, hcs c hc⟩
  · intro h
    induction columns with
    | nil => exact ⟨[], rfl, by simp⟩
    | cons column columns ih =>
      obtain ⟨c, rfl, hc⟩ := h column (List.mem_cons_self ..)
      obtain ⟨cs, rfl, hcs⟩ := ih fun column hm => h column (List.mem_cons_of_mem _ hm)
      exact ⟨c :: cs, rfl, List.forall_mem_cons.2 ⟨hc, hcs⟩⟩

/-- No column holds both integers and floats. -/
def UnmixedColumns (columns : List (Except Error (List Value))) : Prop := ∀ c, .ok c ∈ columns → Unmixed c

/-- Sorting by columns: all of them are evaluated, then checked. -/
def sortColumns (ds : List Direction) (columns : List (Except Error (List Value))) (xs : List α) :
    Except Error (List α) := do
  let cs ← columns.mapM id
  cs.forM checkComparable
  return sortKeyed ds cs xs

theorem sortColumns_eq_ok_iff : sortColumns ds columns xs = .ok ys ↔
    ∃ cs : List (List Value), columns = cs.map .ok ∧ (∀ c ∈ cs, Comparable c) ∧ ys = sortKeyed ds cs xs := by
  constructor
  · intro h
    obtain ⟨cs, hcs, h⟩ := bind_ok h
    obtain ⟨_, hcheck, h⟩ := bind_ok h
    refine ⟨cs, ?_, forM_checkComparable_iff.1 hcheck, (Except.ok.inj h).symm⟩
    rw [← List.forall₂_eq_eq_eq, List.forall₂_map_right_iff]
    exact mapM_ok_forall₂ hcs
  · rintro ⟨cs, rfl, hcs, rfl⟩
    have heval : (cs.map Except.ok).mapM id = (.ok cs : Except Error _) := by
      rw [List.mapM_map]
      exact (mapM_eq_ok (g := id) fun _ _ => rfl).trans (congrArg Except.ok (List.map_id cs))
    unfold sortColumns
    rw [heval, ok_bind, forM_checkComparable_iff.2 hcs]
    rfl

/-- Sorting by columns fails if one of them is missing or cannot be ordered. -/
theorem sortColumns_fails_iff : (∃ e, sortColumns ds columns xs = .error e) ↔
    ∃ column ∈ columns, (∃ e, column = .error e) ∨ ∃ c, column = .ok c ∧ ¬Comparable c := by
  have hfails : (∃ e, sortColumns ds columns xs = .error e) ↔
      ¬∃ cs : List (List Value), columns = cs.map .ok ∧ ∀ c ∈ cs, Comparable c := by
    cases hsort : sortColumns ds columns xs with
    | error e =>
      refine iff_of_true ⟨e, rfl⟩ ?_
      rintro ⟨cs, hcs, hc⟩
      cases hsort.symm.trans (sortColumns_eq_ok_iff.2 ⟨cs, hcs, hc, rfl⟩)
    | ok ys =>
      obtain ⟨cs, hcs, hc, -⟩ := sortColumns_eq_ok_iff.1 hsort
      exact iff_of_false (by simp) fun h => h ⟨cs, hcs, hc⟩
  rw [hfails, exists_columns_iff]
  constructor
  · intro h
    simp only [not_forall] at h
    obtain ⟨column, hm, h⟩ := h
    refine ⟨column, hm, ?_⟩
    cases column with
    | error e => exact .inl ⟨e, rfl⟩
    | ok c => exact .inr ⟨c, rfl, fun hc => h ⟨c, rfl, hc⟩⟩
  · rintro ⟨column, hm, ⟨e, rfl⟩ | ⟨c, rfl, hnot⟩⟩ h
    · obtain ⟨c, hc, -⟩ := h _ hm
      cases hc
    · obtain ⟨c', hc', hcomparable⟩ := h _ hm
      cases hc'
      exact hnot hcomparable

/-- Sorting by columns of unmixed numbers sorts as required. -/
theorem sorts_sortColumns (hd : ds.length = columns.length) (hlen : ∀ c, .ok c ∈ columns → c.length = xs.length)
    (hu : UnmixedColumns columns) : Sorts ds columns xs (sortColumns ds columns xs) := by
  refine ⟨sortColumns_fails_iff, fun ys hys => ?_, fun ys hys c hm a ha b hb => ?_⟩
  · obtain ⟨cs, rfl, hc, rfl⟩ := sortColumns_eq_ok_iff.1 hys
    have hmem : ∀ c ∈ cs, Except.ok c ∈ cs.map (Except.ok : _ → Except Error _) := fun c => List.mem_map_of_mem
    have hsortable : ∀ c ∈ cs, Sortable c := fun c h => ⟨hc c h, hu c (hmem c h)⟩
    exact ⟨cs, rfl, sortKeyed_perm ds cs xs,
      stablySorted_sortKeyed (by simpa using hd) (fun c h => hlen c (hmem c h)) hsortable⟩
  · obtain ⟨cs, rfl, hc, -⟩ := sortColumns_eq_ok_iff.1 hys
    obtain ⟨c', hc', h⟩ := List.mem_map.1 hm
    cases h
    exact (hc c hc').exists_compare ha hb

/-- The error that a sort fails with does not matter. -/
theorem Sorts.of_toOption {result' : Except Error (List α)} (h : Sorts ds columns xs result)
    (hr : result'.toOption = result.toOption) : Sorts ds columns xs result' where
  fails := by
    rw [← h.fails]
    cases result <;> cases result' <;> simp [Except.toOption] at hr ⊢
  sorted ys hys := h.sorted ys (eq_ok_of_toOption hr hys)
  compares ys hys := h.compares ys (eq_ok_of_toOption hr hys)

/-- Without keys nothing changes its place. -/
theorem sortKeyed_nil (xs : List α) : sortKeyed [] [] xs = xs := by
  have hnot : ∀ a b : List Value × α, (compareKeys [] a.1 b.1).isLT = false := fun _ _ => rfl
  rw [sortKeyed, stableSort_of_not_less hnot]
  exact List.map_snd_zip (Nat.le_of_eq (length_rowsOfColumns ..).symm)

/-! ## Rows -/

section

variable {keys : List OrderKey} {t u : Table}

/-- The values of the keys on the rows. -/
def rowColumns (keys : List OrderKey) (t : Table) : List (Except Error (List Value)) :=
  keys.map fun k => Expr.evalRows t k.expr

theorem sortRows_eq_sortColumns (ht : t.WellFormed) :
    (sortRows keys t).map (·.rows) = sortColumns (directions keys) (rowColumns keys t) t.rows := by
  cases hk : keys.isEmpty with
  | true =>
    rw [List.isEmpty_iff.1 hk]
    exact congrArg Except.ok (sortKeyed_nil t.rows).symm
  | false =>
    have heval : (rowColumns keys t).mapM id = keys.mapM fun k => Expr.evalRows t k.expr := List.mapM_map
    rw [sortRows_eq ht hk, Table.orderedBy, sortColumns, heval]
    cases keys.mapM fun k => Expr.evalRows t k.expr with
    | error e => rfl
    | ok cs =>
      simp only [ok_bind]
      cases cs.forM checkComparable <;> rfl

theorem fields_sortRows (ht : t.WellFormed) (h : sortRows keys t = .ok u) : u.fields = t.fields := by
  cases hk : keys.isEmpty with
  | true =>
    rw [sortRows, hk, if_pos rfl] at h
    cases h
    rfl
  | false => exact Table.fields_orderedBy (sortRows_eq ht hk ▸ h)

/-! ## Rows with appended keys -/

/-- The last columns, one for each key. -/
def lastColumns (keys : List OrderKey) (t : Table) : List (Except Error (List Value)) :=
  (List.range' (t.width - keys.length) keys.length).map fun i => .ok (t.column i)

theorem map_getD_range' {row : Row} {s n : Nat} (h : row.length = s + n) :
    (List.range' s n).map (row.getD · .null) = row.drop s := by
  refine List.ext_getElem (by simp [h]) fun i h1 h2 => ?_
  simp only [List.length_map, List.length_range'] at h1
  rw [List.getElem_map, List.getElem_range', List.getElem_drop, List.getD_eq_getElem _ _ (by omega)]
  simp

theorem rowsOfColumns_lastColumns (ht : t.WellFormed) (hw : keys.length ≤ t.width) :
    rowsOfColumns t.rows.length ((List.range' (t.width - keys.length) keys.length).map t.column) =
      t.rows.map (·.drop (t.width - keys.length)) := by
  have hrows := rowsOfColumns_map ((List.range' (t.width - keys.length) keys.length).map
    fun i (row : Row) => row.getD i .null) t.rows
  rw [List.map_map] at hrows
  refine Eq.trans hrows (List.map_congr_left fun row hr => ?_)
  rw [List.map_map]
  refine map_getD_range' ((ht row hr).trans ?_)
  have : t.width = t.fields.length := rfl
  omega

theorem sortTrailing_eq_sortColumns (ht : t.WellFormed) (hw : keys.length ≤ t.width) (keep : Nat) :
    sortTrailing keys t keep = (sortColumns (directions keys) (lastColumns keys t) (t.rows.map (·.take keep))).map
      fun rows => ⟨t.fields.take keep, rows⟩ := by
  let start := t.width - keys.length
  have heval : (lastColumns keys t).mapM id = .ok ((List.range' start keys.length).map t.column) := by
    rw [lastColumns, List.mapM_map]
    exact mapM_eq_ok fun _ _ => rfl
  have hcheck : ((List.range' start keys.length).map t.column).forM checkComparable =
      (List.range' start keys.length).forM fun i => checkComparable (t.column i) := by
    rw [List.forM_eq_forM, List.forM_map]
    rfl
  -- the keys of a row are its last values, and what is kept of it its first ones
  have hsort : sortKeyed (directions keys) ((List.range' start keys.length).map t.column) (t.rows.map (·.take keep)) =
      (stableSort (fun a b => keyLess keys (a.drop start) (b.drop start)) t.rows).map (·.take keep) := by
    have hmap : stableSort (fun a b => (compareKeys (directions keys) a.1 b.1).isLT)
        (t.rows.map fun row => (row.drop start, row.take keep)) =
        (stableSort (fun a b => keyLess keys (a.drop start) (b.drop start)) t.rows).map
          fun row => (row.drop start, row.take keep) :=
      stableSort_map fun _ _ _ _ => rfl
    rw [sortKeyed, List.length_map, rowsOfColumns_lastColumns ht hw, List.zip_map', hmap, List.map_map]
    rfl
  have hrows : Table.ofRows t.fields (stableSort (fun a b => keyLess keys (a.drop start) (b.drop start)) t.rows) =
      .ok ⟨t.fields, stableSort (fun a b => keyLess keys (a.drop start) (b.drop start)) t.rows⟩ :=
    Table.ofRows_eq fun row hr => ht row ((stableSort_perm _ _).subset hr)
  unfold sortTrailing
  rw [if_neg (by omega), sortColumns, heval, ok_bind, hcheck, hsort, bind_map_eq]
  refine bind_congr_ok fun _ _ => ?_
  exact congrArg (· >>= fun u => .ok (u.sliceColumns 0 keep)) hrows

end

/-! ## Tables -/

/-- The values of the keys on the tables, each taken as a whole. -/
def tableColumns (keys : List OrderKey) (ts : List Table) : List (Except Error (List Value)) :=
  keys.map fun k => ts.mapM fun t => Expr.evalWhole t k.expr

/-- Values beside the elements that they were computed from. -/
theorem mapM_zip {β γ : Type} (g : β → Option γ) : ∀ xs : List β,
    (xs.mapM g).map (·.zip xs) = xs.mapM fun x => (g x).map (·, x)
  | [] => rfl
  | x :: xs => by
    rw [List.mapM_cons, List.mapM_cons, ← mapM_zip g xs]
    cases g x with
    | none => rfl
    | some y => cases xs.mapM g <;> rfl

/-- Evaluating all keys on each table is evaluating each key on all tables. -/
theorem toOption_keyed (keys : List OrderKey) (ts : List Table) :
    (ts.mapM fun t => do return (← keys.mapM fun k => Expr.evalWhole t k.expr, t) : Except Error _).toOption =
      (((tableColumns keys ts).mapM id).map fun cs => (rowsOfColumns ts.length cs).zip ts).toOption := by
  let value (k : OrderKey) (t : Table) : Option Value := (Expr.evalWhole t k.expr).toOption
  have hcolumns : ((tableColumns keys ts).mapM id).toOption = keys.mapM fun k => ts.mapM (value k) := by
    rw [tableColumns, List.mapM_map, toOption_mapM]
    exact congrArg (keys.mapM ·) (funext fun k => toOption_mapM _ ts)
  have hkeys : ∀ t, (do return (← keys.mapM fun k => Expr.evalWhole t k.expr, t) : Except Error _).toOption =
      (keys.mapM fun k => value k t).map (·, t) := by
    intro t
    have hvalues : (keys.mapM fun k => Expr.evalWhole t k.expr).toOption = keys.mapM fun k => value k t :=
      toOption_mapM _ keys
    rw [← hvalues]
    cases keys.mapM fun k => Expr.evalWhole t k.expr <;> rfl
  have hmap : ∀ (x : Except Error (List (List Value))) (f : List (List Value) → List (List Value × Table)),
      (x.map f).toOption = x.toOption.map f := by
    intro x f
    cases x <;> rfl
  rw [toOption_mapM, hmap, hcolumns]
  simp only [hkeys]
  rw [← mapM_zip, ← rowsOfColumns_mapM, Option.map_map]
  rfl

theorem toOption_sortTables {keys : List OrderKey} {ts : List Table} (hts : 2 ≤ ts.length) :
    (sortTables keys ts).toOption = (sortColumns (directions keys) (tableColumns keys ts) ts).toOption := by
  cases hk : keys.isEmpty with
  | true =>
    rw [List.isEmpty_iff.1 hk]
    exact congrArg some (sortKeyed_nil ts).symm
  | false =>
    have hmany : (keys.isEmpty || decide (ts.length < 2)) = false := by
      rw [hk, Bool.false_or, decide_eq_false_iff_not]
      omega
    unfold sortTables
    rw [hmany, if_neg Bool.false_ne_true]
    refine (toOption_bind_congr (toOption_keyed keys ts) fun _ _ => rfl).trans ?_
    rw [map_bind_eq, sortColumns]
    refine congrArg Except.toOption (bind_congr_ok fun cs hcs => ?_)
    rw [tableColumns, List.mapM_map] at hcs
    have hlen : keys.length = cs.length := (mapM_ok_forall₂ hcs).length_eq
    have hcheck : ((List.range keys.length).forM fun i =>
        checkComparable (((rowsOfColumns ts.length cs).zip ts).map fun p => p.1.getD i .null)) =
        cs.forM checkComparable := by
      rw [hlen]
      refine forM_checkComparable_zip fun c hc => ?_
      obtain ⟨k, -, hk⟩ := mem_of_mapM_ok hcs c hc
      exact (mapM_ok_forall₂ hk).length_eq.symm
    rw [hcheck]
    rfl

/-! ## The three sorts -/

theorem length_of_mem_rowColumns {keys : List OrderKey} {t : Table} {c : List Value} (h : .ok c ∈ rowColumns keys t) :
    c.length = t.rows.length := by
  obtain ⟨k, -, hk⟩ := List.mem_map.1 h
  exact Expr.length_evalRows hk

theorem length_of_mem_lastColumns {keys : List OrderKey} {t : Table} {c : List Value} (h : .ok c ∈ lastColumns keys t) :
    c.length = t.rows.length := by
  obtain ⟨i, -, hi⟩ := List.mem_map.1 h
  cases hi
  exact List.length_map _

theorem length_of_mem_tableColumns {keys : List OrderKey} {ts : List Table} {c : List Value}
    (h : .ok c ∈ tableColumns keys ts) : c.length = ts.length := by
  obtain ⟨k, -, hk⟩ := List.mem_map.1 h
  exact (mapM_ok_forall₂ hk).length_eq.symm

/-- Sorting the rows of a table, sorting by its last columns and sorting tables are stable sorts in lexicographic
order of the keys, if no key has both integers and floats. Ascending, null comes first, descending last. -/
theorem sorts_stably (keys : List OrderKey) :
    (∀ t : Table, t.WellFormed → UnmixedColumns (rowColumns keys t) →
      Sorts (directions keys) (rowColumns keys t) t.rows ((sortRows keys t).map (·.rows)) ∧
        ∀ u, sortRows keys t = .ok u → u.fields = t.fields) ∧
    (∀ (t : Table) (keep : Nat), t.WellFormed → keys.length ≤ t.width → UnmixedColumns (lastColumns keys t) →
      Sorts (directions keys) (lastColumns keys t) (t.rows.map (·.take keep))
          ((sortTrailing keys t keep).map (·.rows)) ∧
        ∀ u, sortTrailing keys t keep = .ok u → u.fields = t.fields.take keep) ∧
    (∀ ts : List Table, 2 ≤ ts.length → UnmixedColumns (tableColumns keys ts) →
      Sorts (directions keys) (tableColumns keys ts) ts (sortTables keys ts)) ∧
    ∀ v : Value, (Direction.asc.Before .null v ↔ v ≠ .null) ∧ (Direction.desc.Before v .null ↔ v ≠ .null) := by
  refine ⟨fun t ht hu => ⟨?_, fun u => fields_sortRows ht⟩, fun t keep ht hw hu => ⟨?_, ?_⟩, fun ts hts hu => ?_,
    Direction.null_before⟩
  · rw [sortRows_eq_sortColumns ht]
    exact sorts_sortColumns (by simp [directions, rowColumns]) (fun _ => length_of_mem_rowColumns) hu
  · have hrows : (sortTrailing keys t keep).map (·.rows) =
        sortColumns (directions keys) (lastColumns keys t) (t.rows.map (·.take keep)) := by
      rw [sortTrailing_eq_sortColumns ht hw]
      cases sortColumns (directions keys) (lastColumns keys t) (t.rows.map (·.take keep)) <;> rfl
    rw [hrows]
    exact sorts_sortColumns (by simp [directions, lastColumns])
      (fun _ h => (length_of_mem_lastColumns h).trans (List.length_map _).symm) hu
  · intro u h
    rw [sortTrailing_eq_sortColumns ht hw] at h
    obtain ⟨rows, -, rfl⟩ := map_eq_ok h
    rfl
  · have hsorts : Sorts (directions keys) (tableColumns keys ts) ts _ :=
      sorts_sortColumns (by simp [directions, tableColumns]) (fun _ => length_of_mem_tableColumns) hu
    exact hsorts.of_toOption (toOption_sortTables hts)

end Order

/-! ## An example -/

namespace Sample

/-- Runs in the order in which they ended, of which one has no points. -/
def runs : Table := ⟨["name", "points"],
  [[.text "a", .int 2], [.text "b", .null], [.text "c", .int 1], [.text "d", .int 2], [.text "e", .int 1]]⟩

def byPoints (d : Direction) : List OrderKey := [⟨.column "points", d⟩]

/-- The first runs and the later ones. -/
def parts : List Table := [⟨runs.fields, runs.rows.take 2⟩, ⟨runs.fields, runs.rows.drop 2⟩]

end Sample

open Sample in
/-- Runs of equal points stay in their order, in both directions, also where the points are the last column that is
taken off. -/
theorem Order.sorts_stably_runs :
    Sorts [.asc] [.ok [.int 2, .null, .int 1, .int 2, .int 1]] runs.rows (.ok [[.text "b", .null],
        [.text "c", .int 1], [.text "e", .int 1], [.text "a", .int 2], [.text "d", .int 2]]) ∧
      Sorts [.desc] [.ok [.int 2, .null, .int 1, .int 2, .int 1]] (runs.rows.map (·.take 1)) (.ok [[.text "a"],
        [.text "d"], [.text "c"], [.text "e"], [.text "b"]]) ∧
      Sorts [.asc] [.ok [.int 2, .int 1]] parts (.ok parts.reverse) := by
  have hrows : rowColumns (byPoints .asc) runs = [.ok [.int 2, .null, .int 1, .int 2, .int 1]] := rfl
  have hlast : lastColumns (byPoints .desc) runs = [.ok [.int 2, .null, .int 1, .int 2, .int 1]] := rfl
  have htables : tableColumns (byPoints .asc) parts = [.ok [.int 2, .int 1]] := rfl
  have hunmixed : UnmixedColumns [.ok [.int 2, .null, .int 1, .int 2, .int 1]] := by
    intro c hc
    cases List.mem_singleton.1 hc
    decide
  have hunmixed' : UnmixedColumns [.ok [.int 2, .int 1]] := by
    intro c hc
    cases List.mem_singleton.1 hc
    decide
  have hsorted := ((sorts_stably (byPoints .asc)).1 runs (by decide) (hrows ▸ hunmixed)).1
  have hcut := ((sorts_stably (byPoints .desc)).2.1 runs 1 (by decide) (by decide) (hlast ▸ hunmixed)).1
  have hparts := (sorts_stably (byPoints .asc)).2.2.1 parts (by decide) (htables ▸ hunmixed')
  exact ⟨hsorted, hcut, hparts⟩

end TableQuery
