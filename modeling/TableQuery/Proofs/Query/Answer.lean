/-
What is made of the rows that a filter keeps, without key columns: columns are chosen, and the groups of
whole rows cut to them; those that the group filter lets pass are ordered, and the items evaluated on each.
-/
import TableQuery.Proofs.Query.KeyColumns

namespace TableQuery

theorem Table.groupsBy_select (t : Table) (cols : List Nat) (keys : List (List Value)) :
    (t.select cols).groupsBy keys = (t.groupsBy keys).map (·.select cols) := by
  unfold groupsBy
  rw [List.map_map]
  refine List.map_congr_left fun key _ => ?_
  unfold select
  simp only [Function.comp, List.zip_map_right, List.filter_map, List.map_map]
  rfl

namespace Select

variable {s : Select} {items : List Expr} {t : Table} {gs : List Table} {chosen all : List Nat}

/-! ## Working tables -/

theorem workingTable_eq (s : Select) (items : List Expr) (t : Table) :
    s.workingTable items t = t.choose [] items >>= fun first => t.choose first (s.orderBy.map (·.expr)) >>=
      fun chosen => t.choose chosen s.having.toList >>= fun all =>
        if s.groupBy.isEmpty then .ok (t.select all, chosen.length)
        else (Expr.evalTable t s.groupBy >>= (t.select all).chain).map (·, chosen.length) := by
  unfold workingTable
  refine bind_congr_ok fun first _ => bind_congr_ok fun chosen _ => bind_congr_ok fun all _ => ?_
  split
  · rfl
  · cases Expr.evalTable t s.groupBy with
    | error e => rfl
    | ok keys =>
      simp only [ok_bind]
      cases (t.select all).chain keys <;> rfl

/-- The groups of a working table are the groups of whole rows, cut to the chosen columns. -/
theorem partition_workingTable (ht : t.isEmpty = false) (h : s.workingTable items t =
      if s.groupBy.isEmpty then .ok (t.select all, chosen.length)
      else (Expr.evalTable t s.groupBy >>= (t.select all).chain).map (·, chosen.length))
    (f : List Table → Nat → Except Error Table) :
    (s.workingTable items t >>= fun w => Group.partition w.1 s.groupBy.length >>= fun gs => f gs w.2) =
      s.groups t >>= fun gs => f (gs.map (·.select all)) chosen.length := by
  rw [h]
  unfold groups groupKeys
  cases hg : s.groupBy.isEmpty with
  | true =>
    rw [List.isEmpty_iff.1 hg]
    rfl
  | false =>
    have hne : s.groupBy.length ≠ 0 := by
      intro hl
      rw [List.length_eq_zero_iff.1 hl] at hg; cases hg
    simp only [Bool.false_eq_true, if_false, Expr.evalTable_eq ht, map_bind_eq]
    rcases hc : s.groupBy.mapM (Expr.evalRows t) with e | columns
    · rfl
    · have hsize : (rowsOfColumns t.size columns).length = (t.select all).size := by
        rw [length_rowsOfColumns]; simp [Table.size, Table.select]
      have hpart := Group.partition_keys (t.wellFormed_select all) hsize (Expr.length_labels s.groupBy ▸ hne)
      rw [Expr.length_labels, Table.groupsBy_select] at hpart
      simp only [ok_bind, Table.chain_keys hsize, hpart, pure_eq_ok]

/-! ## Groups -/

theorem keepGroups_cons (s : Select) (keep : Nat) (g : Table) (gs : List Table) :
    s.keepGroups keep (g :: gs) = s.holdsOn g >>= fun holds => s.keepGroups keep gs >>= fun rest =>
      .ok (if holds then g.sliceColumns 0 keep :: rest else rest) := by
  rw [keepGroups, holdsOn]
  cases s.having with
  | none => rfl
  | some condition =>
    simp only
    rcases Expr.evalRows g condition with e | vs
    · rfl
    · simp only [ok_bind]; rfl

theorem evalGroups_shape {outs : List Table} (h : s.evalGroups items gs = .ok outs) :
    ∀ out ∈ outs, out.fields = Expr.labels items ∧ out.WellFormed := by
  intro out hm
  obtain ⟨g, -, hg⟩ := mem_of_mapM_ok h out hm
  obtain ⟨u, hu, hg⟩ := bind_ok hg
  cases hg
  have hf := Expr.fields_evalTable hu
  have hw := Expr.wellFormed_evalTable hu
  split
  · exact ⟨hf, Table.wellFormed_truncate hw 1⟩
  · exact ⟨hf, hw⟩

/-- Well-formed tables with as many fields as there are names are put together. -/
theorem merge_eq {names : List String} {out : Table} {outs : List Table}
    (h : ∀ o ∈ out :: outs, o.fields.length = names.length ∧ o.WellFormed) :
    merge names (out :: outs) = .ok ⟨names, (out :: outs).flatMap (·.rows)⟩ := by
  have hout := (h out (List.mem_cons_self ..)).1
  have hrows : Table.checkRows out.width (outs.flatMap (·.rows)) = .ok () := by
    refine Table.checkRows_eq_ok_iff.2 fun row hr => ?_
    obtain ⟨o, ho, hr⟩ := List.mem_flatMap.1 hr
    obtain ⟨hlen, hw⟩ := h o (List.mem_cons_of_mem out ho)
    exact (hw row hr).trans (hlen.trans hout.symm)
  rw [merge, hrows, ok_bind, List.flatMap_cons]
  exact if_pos hout.symm

/-- The tables of all groups put together. -/
theorem merge_evalGroups {names : List String} (hn : names.length = items.length) (hg : gs ≠ []) :
    (s.evalGroups items gs >>= merge names) = (gs.mapM (s.rowsOn items)).map fun rows => ⟨names, rows.flatten⟩ := by
  have hrows : gs.mapM (s.rowsOn items) = (s.evalGroups items gs).map (List.map (·.rows)) := by
    refine mapM_eq_map fun g _ => ?_
    unfold rowsOn
    rcases Expr.evalTable g items with e | out
    · rfl
    · simp only [ok_bind]
      split <;> rfl
  rw [hrows]
  rcases he : s.evalGroups items gs with e | outs
  · rfl
  · have hlen : outs.length = gs.length := (mapM_ok_forall₂ he).length_eq.symm
    cases outs with
    | nil => exact absurd (List.length_eq_zero_iff.1 hlen.symm) hg
    | cons out outs =>
      have hshape : ∀ o ∈ out :: outs, o.fields.length = names.length ∧ o.WellFormed := fun o ho =>
        ⟨by rw [(evalGroups_shape he o ho).1, Expr.length_labels, hn], (evalGroups_shape he o ho).2⟩
      rw [ok_bind, merge_eq hshape, List.flatMap_def]
      rfl

/-- No group at all gives no row, which is what the tables of no group put together are. -/
theorem assemble_eq {names : List String} (hn : names.length = items.length) (gs : List Table) :
    (if gs.isEmpty then .ok (.empty names)
      else s.evalGroups items gs >>= fun outs => merge names outs >>= fun out => .ok (s.limited out)) =
      gs.mapM (s.rowsOn items) >>= fun rows => .ok (s.limited ⟨names, rows.flatten⟩) := by
  cases gs with
  | nil =>
    have hlimited : s.limited (.empty names) = .empty names := by
      unfold limited
      split
      · exact congrArg (Table.mk names) List.take_nil
      · rfl
    exact congrArg Except.ok hlimited.symm
  | cons g gs =>
    rw [List.isEmpty_cons, if_neg Bool.false_ne_true, ← bind_assoc, merge_evalGroups hn (List.cons_ne_nil g gs),
      map_bind_eq]

/-! ## Answers -/

/-- The result made of groups, whose first `keep` columns are for items and order. -/
def answer (s : Select) (items : List Expr) (names : List String) (keep : Nat) (gs : List Table) :
    Except Error Table := do
  let gs ← s.orderGroups (← s.keepGroups keep gs)
  let rows ← gs.mapM (s.rowsOn items)
  return s.limited ⟨names, rows.flatten⟩

theorem finish_eq {names : List String} (hn : names.length = items.length) (w : Table)
    (keep : Nat) : s.finish items names w keep = Group.partition w s.groupBy.length >>= s.answer items names keep := by
  unfold finish answer
  refine bind_congr_ok fun gs _ => bind_congr_ok fun kept _ => bind_congr_ok fun sorted _ => ?_
  exact assemble_eq hn sorted

/-- What is made of the rows that the filter keeps: columns are chosen, and the groups of whole rows
are cut to them. -/
theorem finish_workingTable {names : List String} (ht : t.isEmpty = false)
    (hn : names.length = items.length) :
    (s.workingTable items t >>= fun w => s.finish items names w.1 w.2) =
      t.choose [] items >>= fun first => t.choose first (s.orderBy.map (·.expr)) >>= fun chosen =>
        t.choose chosen s.having.toList >>= fun all => s.groups t >>= fun gs =>
          s.answer items names chosen.length (gs.map (·.select all)) := by
  simp only [finish_eq hn]
  have hworking := workingTable_eq s items t
  rcases h1 : t.choose [] items with e | first
  · rw [hworking, h1]
    rfl
  rcases h2 : t.choose first (s.orderBy.map (·.expr)) with e | chosen
  · rw [hworking, h1, ok_bind, ok_bind, h2]
    rfl
  rcases h3 : t.choose chosen s.having.toList with e | all
  · rw [hworking, h1, ok_bind, ok_bind, h2, ok_bind, ok_bind, h3]
    rfl
  · rw [h1, ok_bind, h2, ok_bind, h3, ok_bind] at hworking
    rw [ok_bind, h2, ok_bind, h3, ok_bind]
    exact partition_workingTable ht hworking fun gs keep => s.answer items names keep gs

theorem mem_keepGroups {keep : Nat} : ∀ {gs kept : List Table}, s.keepGroups keep gs = .ok kept → ∀ k ∈ kept,
    ∃ g ∈ gs, k = g.sliceColumns 0 keep
  | [], _, h, _, hk => by cases h; cases hk
  | g :: gs, kept, h, k, hk => by
    rw [keepGroups_cons] at h
    obtain ⟨holds, -, h⟩ := bind_ok h
    obtain ⟨rest, hrest, h⟩ := bind_ok h
    have hmem : k ∈ rest → ∃ g' ∈ g :: gs, k = g'.sliceColumns 0 keep := by
      intro hk
      obtain ⟨g', hg', hs⟩ := mem_keepGroups hrest k hk
      exact ⟨g', List.mem_cons_of_mem _ hg', hs⟩
    cases h
    split at hk
    · rcases List.mem_cons.1 hk with rfl | hk
      · exact ⟨g, List.mem_cons_self .., rfl⟩
      · exact hmem hk
    · exact hmem hk

/-- On well-formed groups the keys may stand beside the rows. -/
theorem orderGroups_eq_ordered (hw : ∀ g ∈ gs, g.WellFormed) : s.orderGroups gs = s.ordered gs := by
  unfold orderGroups ordered
  cases ho : s.orderBy.isEmpty with
  | true => rfl
  | false => rw [mapM_congr_ok fun g hg => Order.sortRows_eq (hw g hg) ho]

/-- The groups may be ordered by keys beside their rows, if those are well formed. -/
theorem answer_eq {names : List String} {keep : Nat} (hw : ∀ g ∈ gs, g.WellFormed) :
    s.answer items names keep gs =
      s.keepGroups keep gs >>= fun kept => s.ordered kept >>= fun sorted =>
        sorted.mapM (s.rowsOn items) >>= fun rows => .ok (s.limited ⟨names, rows.flatten⟩) := by
  unfold answer
  refine bind_congr_ok fun kept hk => ?_
  have hkept : ∀ k ∈ kept, k.WellFormed := by
    intro k hm
    obtain ⟨g, hg, rfl⟩ := mem_keepGroups hk k hm
    exact Table.wellFormed_sliceColumns (hw g hg) 0 keep
  rw [orderGroups_eq_ordered hkept]
  rfl

end Select

end TableQuery
