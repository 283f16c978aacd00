/-
Which columns a list of names reads. A run looks up every name twice: in the source, to choose the
columns of the working table, in the order of the list, and in the working table. A name that is
spelled like a field finds the same column both times. Any other name finds in the working table
the column that was chosen first for a name that is equal to it up to letter case.

So columns are read as the source has them exactly if each name of the list is spelled like a
field, or refers to the same column as the first name that is equal to it up to letter case.
-/
import TableQuery.Proofs.Query.Pruning
import Mathlib.Data.List.Find

namespace TableQuery

/-! ## Columns found twice -/

namespace Table

/-- The column under which the run of a list of names sees a name of the list. -/
def seenAt? (t : Table) (names : List String) (name : String) : Option Nat :=
  if name ∈ t.fields then t.columnIndex? name
  else (names.find? (Text.sameLetters · name)).bind t.columnIndex?

/-- The places of the columns that a list of names refers to, each once. -/
def placesOf (t : Table) (names : List String) : List Nat :=
  ((names.foldl addOnce []).map fun name => (t.columnIndex? name).getD 0).foldl addOnce []

variable {t : Table} {names : List String} {name : String}

/-- A column found under some name is found under its own. -/
theorem columnIndex?_fieldAt {i : Nat} (h : t.columnIndex? name = some i) :
    t.columnIndex? (t.fieldAt i) = some i := by
  have hl := columnIndex?_lt h
  rw [columnIndex?_eq_among?] at h ⊢
  unfold among? at h ⊢
  refine Option.or_eq_some_iff.2 (.inl (List.find?_range_eq_some.2 ⟨beq_self_eq_true _, List.mem_range.2 hl, ?_⟩))
  intro j hj
  rcases Option.or_eq_some_iff.1 h with h | ⟨-, h⟩
  · obtain ⟨hi, -, hm⟩ := List.find?_range_eq_some.1 h
    rw [beq_iff_eq.1 hi]; exact hm j hj
  · obtain ⟨hi, -, hm⟩ := List.find?_range_eq_some.1 h
    rw [Bool.not_eq_true', beq_eq_false_iff_ne]
    intro he
    have := hm j hj
    rw [he, hi] at this; cases this

theorem columnIndex?_of_mem (h : name ∈ t.fields) : t.columnIndex? name = some (t.fields.idxOf name) := by
  have hf : t.fields.findIdx? (· == name) = some (t.fields.idxOf name) :=
    List.findIdx?_eq_some_iff_findIdx_eq.2 ⟨List.idxOf_lt_length_of_mem h, rfl⟩
  unfold columnIndex?
  rw [hf, Option.some_or]

theorem fieldAt_idxOf (h : name ∈ t.fields) : t.fieldAt (t.fields.idxOf name) = name := by
  have hl := List.idxOf_lt_length_of_mem h
  rw [fieldAt, List.getD_eq_getElem _ _ hl, List.getElem_idxOf hl]

theorem fieldAt_mem {i : Nat} (h : i < t.width) : t.fieldAt i ∈ t.fields := by
  rw [fieldAt, List.getD_eq_getElem _ _ h]; exact List.getElem_mem h

/-- In the columns chosen for a list of names, a name of the list finds the column it is seen at. -/
theorem among?_placesOf (hr : t.Resolves (names.map .column)) (hn : name ∈ names) :
    t.among? (t.placesOf names) name = t.seenAt? names name := by
  have hplace : ∀ n ∈ names, t.columnIndex? n = some ((t.columnIndex? n).getD 0) := by
    intro n hm
    obtain ⟨i, hi⟩ := Option.isSome_iff_exists.1 (hr n (List.mem_map_of_mem hm))
    rw [hi]; rfl
  have hfind : ∀ p : Nat → Bool, (t.placesOf names).find? p =
      (names.find? fun n => p ((t.columnIndex? n).getD 0)).map fun n => (t.columnIndex? n).getD 0 := by
    intro p
    rw [placesOf, find?_foldl_addOnce, List.nil_append, List.find?_map, find?_foldl_addOnce, List.nil_append]
    rfl
  unfold among? seenAt?
  rw [hfind, hfind]
  split
  · rename_i hmem
    -- whatever name of the list finds a column of this spelling, it is the first such column
    rcases hf : names.find? (fun n => t.fieldAt ((t.columnIndex? n).getD 0) == name) with _ | n
    · have := List.find?_eq_none.1 hf name hn
      rw [columnIndex?_of_mem hmem, Option.getD_some, fieldAt_idxOf hmem] at this
      exact absurd (beq_self_eq_true name) this
    · have hi := hplace n (List.mem_of_find?_eq_some hf)
      have hname := columnIndex?_fieldAt hi
      have he := List.find?_some hf
      rw [beq_iff_eq.1 he] at hname
      rw [hname]; rfl
  · rename_i hmem
    have hexact : names.find? (fun n => t.fieldAt ((t.columnIndex? n).getD 0) == name) = none := by
      refine List.find?_eq_none.2 fun n hm he => hmem ?_
      rw [← beq_iff_eq.1 he]; exact fieldAt_mem (columnIndex?_lt (hplace n hm))
    have hletters : names.find? (fun n => Text.sameLetters (t.fieldAt ((t.columnIndex? n).getD 0)) name) =
        names.find? (Text.sameLetters · name) := by
      refine List.find?_congr fun n hm => ?_
      have hs := (columnIndex?_sameLetters (hplace n hm)).2
      rw [Bool.eq_iff_iff]
      exact ⟨Text.sameLetters_trans (Text.sameLetters_symm hs), Text.sameLetters_trans hs⟩
    rw [hexact, hletters, Option.map_none, Option.none_or]
    rcases hf : names.find? (Text.sameLetters · name) with _ | n
    · rfl
    · exact (hplace n (List.mem_of_find?_eq_some hf)).symm

theorem seenAt?_isSome (hr : t.Resolves (names.map .column)) (hn : name ∈ names) : (t.seenAt? names name).isSome := by
  unfold seenAt?
  split
  · exact hr name (List.mem_map_of_mem hn)
  · rcases hf : names.find? (Text.sameLetters · name) with _ | n
    · exact absurd (Text.sameLetters_refl name) (List.find?_eq_none.1 hf name hn)
    · exact hr n (List.mem_map_of_mem (List.mem_of_find?_eq_some hf))

theorem seenAt?_congr {u : Table} (hf : t.fields = u.fields) : t.seenAt? names name = u.seenAt? names name := by
  have hc : t.columnIndex? = u.columnIndex? := funext (columnIndex?_congr hf)
  unfold seenAt?
  rw [hf, hc]

end Table

/-! ## Lists of columns -/

namespace Expr

theorem leavesOf_columns : ∀ names : List String, leavesOf (names.map .column) = names.map .column
  | [] => rfl
  | _ :: names => congrArg (_ :: ·) (leavesOf_columns names)

theorem columns_tokens (names : List String) : (tokens (names.map .column)).columns = names.foldl addOnce [] := by
  have hfold : (names.map Token.column).foldl addOnce [] = (names.foldl addOnce []).map .column :=
    foldl_addOnce_map Token.column names [] fun _ _ _ _ h => Token.column.inj h
  rw [tokens_of_not_mem (by simp [leavesOf_columns]), leavesOf_columns, TokenSet.columns, hfold]
  simp [List.filterMap_map]

theorem haveBareToken_columns : ∀ names : List String, haveBareToken (names.map .column) = !names.isEmpty
  | [] => rfl
  | _ :: _ => rfl

end Expr

theorem Table.choose_columns {t : Table} {names : List String} (hr : t.Resolves (names.map .column)) :
    t.choose [] (names.map .column) = .ok (t.placesOf names) := by
  rw [choose_of_not_mem (by simp [Expr.leavesOf_columns]), Expr.columns_tokens]
  refine addNamed_eq fun name hn => ?_
  have hmem : name ∈ names := by simpa [mem_foldl_addOnce] using hn
  obtain ⟨i, hi⟩ := Option.isSome_iff_exists.1 (hr name (List.mem_map_of_mem hmem))
  rw [hi]; rfl

/-- The rows of the working table of a list of columns. -/
theorem Table.evalTable_columns {t : Table} {names : List String} (ht : t.isEmpty = false)
    (hr : t.Resolves (names.map .column)) :
    (Expr.evalTable (t.select (t.placesOf names)) (names.map .column)).map (·.rows) =
      .ok (t.rows.map fun row => names.map fun name => row.getD ((t.seenAt? names name).getD 0) .null) := by
  have hu : (t.select (t.placesOf names)).isEmpty = false := by rw [← ht]; simp [isEmpty, select]
  have hsize : (t.select (t.placesOf names)).size = t.rows.length := by simp [size, select]
  have hcolumns : (names.map Expr.column).mapM (Expr.evalRows (t.select (t.placesOf names))) =
      .ok (names.map fun name => t.rows.map (·.getD ((t.seenAt? names name).getD 0) .null)) := by
    rw [List.mapM_map]
    refine mapM_eq_ok fun name hn => ?_
    obtain ⟨i, hi⟩ := Option.isSome_iff_exists.1 (seenAt?_isSome hr hn)
    rw [Function.comp, Expr.evalRows, Expr.eval_column, valuesOf?_select, among?_placesOf hr hn, hi]
    rfl
  have hrows := rowsOfColumns_map (names.map fun name row => List.getD row ((t.seenAt? names name).getD 0) .null) t.rows
  rw [List.map_map] at hrows
  rw [Expr.evalTable_eq hu, hcolumns, hsize]
  simp only [map_ok]
  refine congrArg Except.ok (hrows.trans ?_)
  simp only [List.map_map]
  rfl

namespace Select

/-! ## Selections of columns -/

/-- No clause other than items and filter. -/
structure Plain (s : Select) : Prop where
  groupBy : s.groupBy = []
  having : s.having = none
  orderBy : s.orderBy = []
  limit : s.limit = none

variable {s : Select} {t k : Table} {names : List String}

theorem collapses_columns (h : s.Plain) : s.collapses (names.map .column) = names.isEmpty := by
  have hitems : (names.map Expr.column).filter (!s.groupBy.contains ·) = names.map .column :=
    List.filter_eq_self.2 fun e _ => by rw [h.groupBy]; rfl
  have hnone : (names.map Expr.column).any (·.containsAggregate) = false :=
    List.any_eq_false.2 fun e he => by
      obtain ⟨name, -, rfl⟩ := List.mem_map.1 he
      simp [Expr.containsAggregate]
  unfold collapses Expr.allInAggregate
  rw [hitems, hnone, Expr.haveBareToken_columns, Bool.not_not, Bool.or_false]

/-- Without further clauses the rows of the result are those of the working table. -/
theorem finish_plain (h : s.Plain) {items : List Expr} (hn : names.length = items.length) (w : Table) (keep : Nat) :
    s.finish items names w keep = (s.rowsOn items (w.sliceColumns 0 keep)).map fun rows => ⟨names, rows⟩ := by
  have hpart : Group.partition w s.groupBy.length = .ok [w] := by rw [h.groupBy]; rfl
  have hholds : s.holdsOn w = .ok true := by rw [holdsOn, h.having]
  have hkeep : s.keepGroups keep [w] = .ok [w.sliceColumns 0 keep] := by
    rw [keepGroups_cons, hholds]; rfl
  have horder : s.orderGroups [w.sliceColumns 0 keep] = .ok [w.sliceColumns 0 keep] := by
    rw [orderGroups, h.orderBy]; rfl
  have hlimit : s.limited = id := by
    funext t
    rw [limited, h.limit]; rfl
  unfold finish
  simp only [hpart, hkeep, horder, ok_bind]
  refine (assemble_eq hn [w.sliceColumns 0 keep]).trans ?_
  rw [List.mapM_cons, List.mapM_nil, hlimit]
  rcases s.rowsOn items (w.sliceColumns 0 keep) with e | rows
  · rfl
  · simp

/-- The rows under a list of columns: of each kept row the values at which the names are seen. No
name at all gives one row only. -/
theorem run_columns (h : s.Plain) (hi : s.itemsOn t.fields = names.map .column)
    (hr : t.Resolves (names.map .column)) (hk : s.kept t = .ok k) :
    s.run (some t) = .ok ⟨s.namesOn t.fields,
      let rows := k.rows.map fun row => names.map fun name => row.getD ((t.seenAt? names name).getD 0) .null
      if names.isEmpty then rows.take 1 else rows⟩ := by
  have hf : k.fields = t.fields := fields_kept hk
  have hrk : k.Resolves (names.map .column) := hr.congr hf.symm
  have hnames : (s.namesOn t.fields).length = (names.map Expr.column).length := by rw [length_namesOn, hi]
  have hnone : ∀ u : Table, u.isEmpty = true → u.rows = [] := fun u hu => List.isEmpty_iff.1 hu
  rw [run_eq]
  simp only [Option.getD_some, Option.isSome_some, Bool.true_and, hk, ok_bind, hi]
  -- no rows in the source, or none that the filter keeps, give none in the result
  cases ht : t.isEmpty with
  | true =>
    have hs := kept_sublist hk
    rw [hnone t ht] at hs
    rw [List.sublist_nil.1 hs]
    simp [Table.empty]
  | false =>
    cases he : k.isEmpty with
    | true =>
      rw [hnone k he]
      simp [Table.empty]
    | false =>
      have hworking : s.workingTable (names.map .column) k =
          .ok (k.select (k.placesOf names), (k.placesOf names).length) := by
        unfold workingTable
        rw [h.groupBy, h.having, h.orderBy, Table.choose_columns hrk]
        rfl
      obtain ⟨out, hout, hrows⟩ := map_eq_ok (Table.evalTable_columns he hrk)
      simp only [Table.seenAt?_congr hf] at hrows
      simp only [Bool.false_eq_true, if_false, hworking, ok_bind, finish_plain h hnames,
        Table.sliceColumns_select k (List.prefix_refl (k.placesOf names)), rowsOn, hout, collapses_columns h, hrows]
      rfl

end Select

end TableQuery
