/-
The spelling of column names. Expressions that differ only in the letter case of column names have
the same shape, and the same values on every table whose names are pairwise different up to letter
case.
-/
import TableQuery.Proofs.Expr.Rows
import TableQuery.Proofs.Table.Lookup

namespace TableQuery

/-! ## Expressions in lower case -/

def Token.lowerColumn : Token → Token
  | column name => column (Text.lowerAscii name)
  | wildcard => wildcard

namespace Expr

mutual

/-- The expression with all column names in lower case. -/
def lowerColumns : Expr → Expr
  | lit v => lit v
  | column name => column (Text.lowerAscii name)
  | wildcard => wildcard
  | call name args => call name (lowerColumnsOf args)

def lowerColumnsOf : List Expr → List Expr
  | [] => []
  | e :: r => lowerColumns e :: lowerColumnsOf r

end

theorem lowerColumnsOf_eq_map (es : List Expr) : lowerColumnsOf es = es.map lowerColumns := by
  induction es with
  | nil => rfl
  | cons e es ih => rw [lowerColumnsOf, List.map_cons, ih]

theorem length_lowerColumnsOf (es : List Expr) : (lowerColumnsOf es).length = es.length := by
  rw [lowerColumnsOf_eq_map, List.length_map]

theorem lowerColumns_eq_wildcard {e : Expr} : e.lowerColumns = .wildcard ↔ e = .wildcard := by
  cases e <;> simp [lowerColumns]

/-! ## Shape -/

mutual

theorem leaves_lowerColumns : ∀ e : Expr, leaves e.lowerColumns = (leaves e).map Token.lowerColumn
  | .lit _ | .column _ | .wildcard => rfl
  | .call _ args => leavesOf_lowerColumns args

theorem leavesOf_lowerColumns : ∀ es : List Expr, leavesOf (lowerColumnsOf es) = (leavesOf es).map Token.lowerColumn
  | [] => rfl
  | e :: es => by
    rw [lowerColumnsOf, leavesOf, leavesOf, List.map_append, leaves_lowerColumns e, leavesOf_lowerColumns es]

end

mutual

theorem containsAggregate_lowerColumns : ∀ e : Expr, e.lowerColumns.containsAggregate = e.containsAggregate
  | .lit _ | .column _ | .wildcard => rfl
  | .call name args => congrArg (Function.isAggregateName name || ·) (containsAggregates_lowerColumns args)

theorem containsAggregates_lowerColumns :
    ∀ es : List Expr, containsAggregates (lowerColumnsOf es) = containsAggregates es
  | [] => rfl
  | e :: es => by
    rw [lowerColumnsOf, containsAggregates, containsAggregates, containsAggregate_lowerColumns e,
      containsAggregates_lowerColumns es]

end

theorem hasStrayWildcard_call {name : String} {args : List Expr} (h : args ≠ [.wildcard]) :
    (call name args).hasStrayWildcard = haveStrayWildcard args := by
  rw [hasStrayWildcard]
  exact h

mutual

theorem hasStrayWildcard_lowerColumns : ∀ e : Expr, e.lowerColumns.hasStrayWildcard = e.hasStrayWildcard
  | .lit _ | .column _ | .wildcard => rfl
  | .call name args => by
    have hl := haveStrayWildcard_lowerColumns args
    by_cases h : args = [.wildcard]
    · rw [h]
      rfl
    · have h' : lowerColumnsOf args ≠ [.wildcard] := by
        intro hw
        obtain ⟨a, rfl⟩ := List.length_eq_one_iff.1 ((length_lowerColumnsOf args).symm.trans (congrArg List.length hw))
        exact h (congrArg (fun a => [a]) (lowerColumns_eq_wildcard.1 (List.head_eq_of_cons_eq hw)))
      rw [lowerColumns, hasStrayWildcard_call h, hasStrayWildcard_call h', hl]

theorem haveStrayWildcard_lowerColumns : ∀ es : List Expr, haveStrayWildcard (lowerColumnsOf es) = haveStrayWildcard es
  | [] => rfl
  | e :: es => by
    rw [lowerColumnsOf, haveStrayWildcard, haveStrayWildcard, hasStrayWildcard_lowerColumns e,
      haveStrayWildcard_lowerColumns es]

end

/-! ## Values -/

mutual

theorem eval_lowerColumns {t : Table} (hd : Table.Distinct t.fields) :
    ∀ e : Expr, (eval t e.lowerColumns).toOption = (eval t e).toOption
  | .lit _ | .wildcard => rfl
  | .column name => by
    rw [lowerColumns, eval, eval, Table.columnIndex?_of_sameLetters hd (Text.sameLetters_lowerAscii name)]
    cases t.columnIndex? name <;> rfl
  | .call name args => by
    have hl := evalList_lowerColumns hd args
    have h1 : ∀ arg, args = [arg] → (eval t arg.lowerColumns).toOption = (eval t arg).toOption := by
      rintro arg rfl
      exact eval_lowerColumns hd arg
    rw [lowerColumns, eval, eval]
    cases Function.lookup name with
    | none => rfl
    | some f =>
      rw [length_lowerColumnsOf]
      refine toOption_bind_congr rfl fun _ _ => ?_
      cases f with
      | scalar op =>
        exact toOption_bind_congr hl fun _ _ => rfl
      | aggregate op =>
        match args, h1 with
        | [], _ => rfl
        | a :: b :: r, _ => rfl
        | [arg], h1 =>
          simp only [lowerColumnsOf, containsAggregate_lowerColumns]
          split
          · rfl
          · have ha := h1 arg rfl
            cases arg with
            | wildcard => rfl
            | lit v => rfl
            | column n => cases op <;> exact toOption_bind_congr ha fun _ _ => rfl
            | call n as => cases op <;> exact toOption_bind_congr ha fun _ _ => rfl

theorem evalList_lowerColumns {t : Table} (hd : Table.Distinct t.fields) :
    ∀ es : List Expr, (evalList t (lowerColumnsOf es)).toOption = (evalList t es).toOption
  | [] => rfl
  | e :: es => by
    rw [lowerColumnsOf, evalList, evalList]
    exact toOption_bind_congr (eval_lowerColumns hd e) fun _ _ =>
      toOption_bind_congr (evalList_lowerColumns hd es) fun _ _ => rfl

end

/-! ## Alike expressions -/

/-- Two expressions that differ at most in the letter case of column names. -/
def Alike (e f : Expr) : Prop := e.lowerColumns = f.lowerColumns

theorem forall₂_alike {es fs : List Expr} :
    List.Forall₂ Alike es fs ↔ es.map lowerColumns = fs.map lowerColumns := by
  rw [← List.forall₂_eq_eq_eq, List.forall₂_map_left_iff, List.forall₂_map_right_iff]
  rfl

theorem leavesOf_alike {es fs : List Expr} (h : List.Forall₂ Alike es fs) :
    (leavesOf es).map Token.lowerColumn = (leavesOf fs).map Token.lowerColumn := by
  rw [← leavesOf_lowerColumns, ← leavesOf_lowerColumns, lowerColumnsOf_eq_map, lowerColumnsOf_eq_map,
    forall₂_alike.1 h]

variable {t : Table} {e f : Expr} {es fs : List Expr}

theorem Alike.containsAggregate (h : e.Alike f) : e.containsAggregate = f.containsAggregate := by
  rw [← containsAggregate_lowerColumns e, h, containsAggregate_lowerColumns]

theorem Alike.eval (hd : Table.Distinct t.fields) (h : e.Alike f) : (eval t e).toOption = (eval t f).toOption := by
  rw [← eval_lowerColumns hd e, h, eval_lowerColumns hd]

theorem Alike.evalRows (hd : Table.Distinct t.fields) (h : e.Alike f) :
    (evalRows t e).toOption = (evalRows t f).toOption :=
  toOption_bind_congr (h.eval hd) fun _ _ => rfl

theorem Alike.evalWhole (hd : Table.Distinct t.fields) (h : e.Alike f) :
    (evalWhole t e).toOption = (evalWhole t f).toOption :=
  toOption_bind_congr (h.eval hd) fun _ _ => rfl

theorem all_containsAggregate_alike (h : List.Forall₂ Alike es fs) :
    es.all containsAggregate = fs.all containsAggregate := by
  induction h with
  | nil => rfl
  | cons h _ ih => rw [List.all_cons, List.all_cons, h.containsAggregate, ih]

/-- The rows of two lists of alike expressions. Only the fields tell the lists apart. -/
theorem rows_evalTable_alike (hd : Table.Distinct t.fields) (h : List.Forall₂ Alike es fs) :
    ((evalTable t es).map (·.rows)).toOption = ((evalTable t fs).map (·.rows)).toOption := by
  have hvalues : (evalList t es).toOption = (evalList t fs).toOption := by
    rw [evalList_eq, evalList_eq]
    exact toOption_mapM_congr (h.imp fun _ _ hef => hef.eval hd)
  have hlen : (labels es).length = (labels fs).length := by
    rw [length_labels, length_labels, h.length_eq]
  unfold evalTable Table.ofRows
  rw [isEmpty_of_forall₂ h, all_containsAggregate_alike h, hlen, bind_map_eq, bind_map_eq]
  refine toOption_bind_congr hvalues fun vs _ => ?_
  simp only [bind_map_eq]
  exact toOption_bind_congr rfl fun _ _ => rfl

end Expr

end TableQuery
