/-
What the value of an expression depends on: the number of rows of the table, and the values under
the names of the columns that the expression refers to. Nothing else of a table is seen: neither
the order of its columns nor any other column.
-/
import TableQuery.Proofs.Except
import TableQuery.Proofs.Table.Lookup

namespace TableQuery

/-- Two tables of as many rows that have the same values under each of the names. -/
structure Table.Agree (ts : List Token) (t u : Table) : Prop where
  size : t.size = u.size
  values : ∀ name, .column name ∈ ts → t.valuesOf? name = u.valuesOf? name

namespace Table.Agree

variable {t u : Table} {ts ts' : List Token}

theorem mono (h : Agree ts t u) (hs : ts' ⊆ ts) : Agree ts' t u := ⟨h.size, fun name hn => h.values name (hs hn)⟩

theorem isEmpty (h : Agree ts t u) : t.isEmpty = u.isEmpty := by
  have := h.size
  unfold Table.size at this
  unfold Table.isEmpty
  rw [Bool.eq_iff_iff, List.isEmpty_iff, List.isEmpty_iff, ← List.length_eq_zero_iff, this, List.length_eq_zero_iff]

end Table.Agree

namespace Expr

/-! ## Evaluation -/

theorem eval_column (t : Table) (name : String) :
    eval t (.column name) =
      match t.valuesOf? name with
      | some vs => .ok (.column vs)
      | none => .error (.unknownColumn name) := by
  rw [eval, Table.valuesOf?]
  cases t.columnIndex? name <;> rfl

mutual

theorem eval_agree {t u : Table} : ∀ (e : Expr), Table.Agree (leaves e) t u → eval t e = eval u e
  | .lit v, _ => by rw [eval, eval]
  | .column name, h => by rw [eval_column, eval_column, h.values name (by simp [leaves])]
  | .wildcard, _ => by rw [eval, eval]
  | .call name args, h => by
    have hl : evalList t args = evalList u args := evalList_agree args h
    have h1 : ∀ arg, args = [arg] → eval t arg = eval u arg := by
      rintro arg rfl
      exact eval_agree arg (h.mono (by simp [leaves, leavesOf]))
    rw [eval, eval]
    cases Function.lookup name with
    | none => rfl
    | some f =>
      simp only
      congr 1
      funext _
      -- an aggregate evaluates its one argument, a scalar function all of them
      split
      · have ha := h1 _ rfl
        rw [h.size]
        split
        · rfl
        · split
          · rfl
          · rfl
          · rw [ha]
      · rfl
      · rw [hl, h.size]

theorem evalList_agree {t u : Table} : ∀ (es : List Expr), Table.Agree (leavesOf es) t u → evalList t es = evalList u es
  | [], _ => by rw [evalList, evalList]
  | e :: r, h => by
    rw [evalList, evalList, eval_agree e (h.mono (by simp [leavesOf])),
      evalList_agree r (h.mono (by simp [leavesOf]))]

end

variable {t u : Table}

theorem evalRows_agree {e : Expr} (h : Table.Agree (leaves e) t u) : evalRows t e = evalRows u e := by
  unfold evalRows; rw [eval_agree e h, h.size]

theorem evalWhole_agree {e : Expr} (h : Table.Agree (leaves e) t u) : evalWhole t e = evalWhole u e := by
  unfold evalWhole; rw [eval_agree e h]

theorem evalTable_agree {es : List Expr} (h : Table.Agree (leavesOf es) t u) : evalTable t es = evalTable u es := by
  unfold evalTable; rw [evalList_agree es h, h.size, h.isEmpty]

/-! ## Tokens of a list of expressions -/

theorem mem_leavesOf {x : Token} {es : List Expr} : x ∈ leavesOf es ↔ ∃ e ∈ es, x ∈ leaves e := by
  induction es with
  | nil => simp [leavesOf]
  | cons e es ih => rw [leavesOf, List.mem_append, ih, List.exists_mem_cons_iff]

theorem leaves_subset_leavesOf {es : List Expr} {e : Expr} (h : e ∈ es) : leaves e ⊆ leavesOf es :=
  fun _ hx => mem_leavesOf.2 ⟨e, h, hx⟩

theorem leavesOf_subset {es fs : List Expr} (h : es ⊆ fs) : leavesOf es ⊆ leavesOf fs := by
  intro x hx
  obtain ⟨e, he, hx⟩ := mem_leavesOf.1 hx
  exact mem_leavesOf.2 ⟨e, h he, hx⟩

end Expr

end TableQuery
