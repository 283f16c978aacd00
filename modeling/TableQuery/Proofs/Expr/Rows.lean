/-
Rows read off a list of columns, and the number of values that an evaluation gives: one for each
row of the table. A list of expressions is evaluated to columns, of which the rows of a table are read
off.
-/
import TableQuery.Query.Execute
import TableQuery.Proofs.Table.Shape
import Mathlib.Data.List.GetD

namespace TableQuery

/-! ## Rows of columns -/

@[simp] theorem length_rowsOfColumns : ∀ (n : Nat) (columns : List (List Value)), (rowsOfColumns n columns).length = n
  | 0, _ => rfl
  | n + 1, columns => by rw [rowsOfColumns, List.length_cons, length_rowsOfColumns n]

theorem length_of_mem_rowsOfColumns : ∀ {n : Nat} {columns : List (List Value)} {r : Row},
    r ∈ rowsOfColumns n columns → r.length = columns.length
  | n + 1, columns, r, h => by
    rw [rowsOfColumns] at h
    rcases List.mem_cons.1 h with rfl | h
    · exact List.length_map _
    · rw [length_of_mem_rowsOfColumns h, List.length_map]

/-- One column for each field gives rows that pass their check. -/
theorem ofRows_rowsOfColumns {fields : List String} (n : Nat) {columns : List (List Value)}
    (h : columns.length = fields.length) :
    Table.ofRows fields (rowsOfColumns n columns) = .ok ⟨fields, rowsOfColumns n columns⟩ :=
  Table.ofRows_eq fun _ hr => (length_of_mem_rowsOfColumns hr).trans h

/-- Columns that are read off a list of rows give rows in the same order. -/
theorem rowsOfColumns_map {α : Type} (fs : List (α → Value)) :
    ∀ (xs : List α), rowsOfColumns xs.length (fs.map fun f => xs.map f) = xs.map fun x => fs.map fun f => f x
  | [] => rfl
  | x :: xs => by
    rw [List.length_cons, rowsOfColumns, List.map_cons, List.map_map, List.map_map]
    congr 1
    exact rowsOfColumns_map fs xs

/-- A column is found again in the rows. -/
theorem column_rowsOfColumns : ∀ {n : Nat} {columns : List (List Value)} {j : Nat} {vs : List Value},
    columns[j]? = some vs → vs.length = n → (rowsOfColumns n columns).map (·.getD j .null) = vs
  | 0, _, _, vs, _, hn => by rw [List.length_eq_zero_iff.1 hn]; rfl
  | n + 1, columns, j, vs, hj, hn => by
    obtain ⟨v, vs, rfl⟩ := List.exists_cons_of_length_eq_add_one hn
    have ih : (rowsOfColumns n (columns.map List.tail)).map (·.getD j .null) = vs :=
      column_rowsOfColumns (by simp [hj]) (by simpa using hn)
    rw [rowsOfColumns, List.map_cons, ih]
    simp [List.getD_eq_getElem?_getD, hj]

namespace Expr

/-! ## Evaluation -/

theorem length_column (t : Table) (i : Nat) : (t.column i).length = t.size := by
  simp [Table.column, Table.size]

theorem length_applyScalar {op : Scalar} {n : Nat} {args : List Evaluated} {vs : List Value}
    (h : applyScalar op n args = .ok (.column vs)) : vs.length = n := by
  unfold applyScalar at h
  split at h
  · obtain ⟨v, -, h⟩ := bind_ok h; cases h
  · obtain ⟨vs', hv, h⟩ := bind_ok h
    cases h
    rw [← (mapM_ok_forall₂ hv).length_eq, length_rowsOfColumns]

/-- A call of a scalar function applies it to the values of its arguments. -/
theorem eval_scalar {t : Table} {name : String} {op : Scalar} {args : List Expr}
    (hf : Function.lookup name = some (.scalar op)) :
    eval t (.call name args) =
      if op.arity.accepts args.length then evalList t args >>= applyScalar op t.size
      else .error (.invalidArgument (.arity op.name args.length)) := by
  rw [eval, hf]
  simp only [Function.checkArity]
  rw [show (Function.scalar op).arity = op.arity from rfl]
  split <;> rfl

/-- A call of an aggregate has one value for all rows. -/
theorem eval_aggregate_ok {t : Table} {name : String} {op : Aggregate} {args : List Expr} {x : Evaluated}
    (hf : Function.lookup name = some (.aggregate op)) (h : eval t (.call name args) = .ok x) :
    ∃ v, x = .scalar v := by
  rw [eval, hf] at h
  obtain ⟨_, -, h⟩ := bind_ok h
  split at h
  · split at h
    · cases h
    · split at h
      · cases h
        exact ⟨_, rfl⟩
      · cases h
      · obtain ⟨_, -, h⟩ := bind_ok h
        obtain ⟨v, -, h⟩ := bind_ok h
        cases h
        exact ⟨v, rfl⟩
  · cases h
  · cases ‹Function.aggregate op = Function.scalar _›

theorem length_eval {t : Table} {e : Expr} {vs : List Value} (h : eval t e = .ok (.column vs)) :
    vs.length = t.size := by
  cases e with
  | lit v => rw [eval] at h; cases h
  | column name =>
    rw [eval] at h
    split at h
    · cases h; exact length_column t _
    · cases h
  | wildcard => rw [eval] at h; cases h
  | call name args =>
    rcases hf : Function.lookup name with _ | op | op
    · rw [eval, hf] at h
      cases h
    · obtain ⟨v, hv⟩ := eval_aggregate_ok hf h
      cases hv
    · rw [eval_scalar hf] at h
      split at h
      · obtain ⟨_, -, h⟩ := bind_ok h
        exact length_applyScalar h
      · cases h

theorem length_evalRows {t : Table} {e : Expr} {vs : List Value} (h : evalRows t e = .ok vs) : vs.length = t.size := by
  unfold evalRows at h
  obtain ⟨x, hx, h⟩ := bind_ok h
  cases h
  cases x with
  | scalar v => exact List.length_replicate
  | column vs => exact length_eval hx

/-! ## Values of a list of expressions -/

theorem length_labels : ∀ es : List Expr, (labels es).length = es.length
  | [] => rfl
  | _ :: es => congrArg (· + 1) (length_labels es)

theorem evalList_eq (t : Table) : ∀ es : List Expr, evalList t es = es.mapM (eval t)
  | [] => by rw [evalList]; rfl
  | e :: es => by rw [evalList, List.mapM_cons, evalList_eq t es]

theorem length_evalList {t : Table} {es : List Expr} {vs : List Evaluated} (h : evalList t es = .ok vs) :
    vs.length = es.length := by
  rw [evalList_eq] at h
  exact (mapM_ok_forall₂ h).length_eq.symm

theorem mapM_evalRows (t : Table) (es : List Expr) :
    es.mapM (evalRows t) = (es.mapM (eval t)).map (List.map (Evaluated.spread t.size)) := by
  refine mapM_eq_map fun e _ => ?_
  unfold evalRows
  cases eval t e <;> rfl

theorem fields_evalTable {t out : Table} {es : List Expr} (h : evalTable t es = .ok out) :
    out.fields = labels es := by
  unfold evalTable at h
  obtain ⟨vs, -, h⟩ := bind_ok h
  rw [(Table.ofRows_ok h).1]

theorem wellFormed_evalTable {t out : Table} {es : List Expr} (h : evalTable t es = .ok out) : out.WellFormed := by
  unfold evalTable at h
  obtain ⟨vs, -, h⟩ := bind_ok h
  exact (Table.ofRows_ok h).2

/-- The rows of expressions on a table that is not empty: a value of each for every row of the table. -/
theorem evalTable_eq {t : Table} (ht : t.isEmpty = false) (es : List Expr) :
    evalTable t es = (es.mapM (evalRows t)).map fun columns => ⟨labels es, rowsOfColumns t.size columns⟩ := by
  unfold evalTable
  rw [mapM_evalRows, ← evalList_eq, ht]
  rcases hv : evalList t es with e | vs
  · rfl
  · have hlen : (vs.map (Evaluated.spread t.size)).length = (labels es).length := by
      rw [List.length_map, length_evalList hv, length_labels]
    simp [ofRows_rowsOfColumns _ hlen]

end Expr

end TableQuery
