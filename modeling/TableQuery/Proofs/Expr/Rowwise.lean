/-
The value of an expression on one row. Evaluation goes column by column, and applies a function of
scalars once for all rows. On a table that has rows this gives for each of them the value that the
expression has there. An aggregate has the same value on every row, made of the values that its
argument has on all of them.
-/
import TableQuery.Proofs.Expr.Rows

namespace TableQuery

/-! ## Functions by name -/

theorem Function.lookup_name (f : Function) : lookup f.name = some f := by
  rcases f with op | op
  · cases op <;> rfl
  · cases op with
    | arith o => cases o <;> rfl
    | relation r => cases r <;> rfl
    | _ => rfl

theorem Scalar.lookup_name (op : Scalar) : Function.lookup op.name = some (.scalar op) :=
  Function.lookup_name (.scalar op)

theorem Function.isAggregateName_name (f : Function) : isAggregateName f.name = f.isAggregate := by
  unfold isAggregateName
  rw [f.lookup_name]
  rfl

/-! ## Columns and rows -/

/-- Columns of computed values, read off row by row, are the rows of computed values. -/
theorem rowsOfColumns_mapM {α β : Type} (f : α → β → Option Value) (xs : List α) (rows : List β) :
    (xs.mapM fun x => rows.mapM (f x)).map (rowsOfColumns rows.length) =
      rows.mapM fun row => xs.mapM fun x => f x row := by
  by_cases h : ∀ x ∈ xs, ∀ row ∈ rows, (f x row).isSome
  · have hvalue : ∀ x ∈ xs, ∀ row ∈ rows, f x row = some ((f x row).getD .null) := by
      intro x hx row hr
      obtain ⟨v, hv⟩ := Option.isSome_iff_exists.1 (h x hx row hr)
      rw [hv]
      rfl
    have hcolumns : (xs.mapM fun x => rows.mapM (f x)) =
        some (xs.map fun x => rows.map fun row => (f x row).getD .null) :=
      mapM_eq_some_map fun x hx => mapM_eq_some_map fun row hr => hvalue x hx row hr
    have hrows : (rows.mapM fun row => xs.mapM fun x => f x row) =
        some (rows.map fun row => xs.map fun x => (f x row).getD .null) :=
      mapM_eq_some_map fun row hr => mapM_eq_some_map fun x hx => hvalue x hx row hr
    have htranspose := rowsOfColumns_map (xs.map fun x row => (f x row).getD .null) rows
    simp only [List.map_map] at htranspose
    rw [hcolumns, hrows, Option.map_some]
    exact congrArg some htranspose
  · -- a value that is missing leaves neither a column nor a row
    simp only [not_forall] at h
    obtain ⟨x, hx, row, hr, hn⟩ := h
    have hnone : f x row = none := by simpa using hn
    have hcolumns : (xs.mapM fun x => rows.mapM (f x)) = none := mapM_eq_none hx (mapM_eq_none hr hnone)
    have hrows : (rows.mapM fun row => xs.mapM fun x => f x row) = none := mapM_eq_none hr (mapM_eq_none hx hnone)
    rw [hcolumns, hrows]
    rfl

namespace Expr

theorem rowsOfColumns_replicate (vs : List Value) :
    ∀ n : Nat, rowsOfColumns n (vs.map (List.replicate n)) = List.replicate n vs
  | 0 => rfl
  | n + 1 => by
    rw [rowsOfColumns, List.map_map, List.map_map, List.replicate_succ]
    refine congrArg₂ List.cons (List.map_id vs) ?_
    exact rowsOfColumns_replicate vs n

/-- Scalars have the same value on each row. -/
theorem map_spread_of_scalar {args : List Evaluated} (h : args.all Evaluated.isScalar = true) (n : Nat) :
    args.map (Evaluated.spread n) = (args.map Evaluated.first).map (List.replicate n) := by
  rw [List.map_map]
  refine List.map_congr_left fun x hx => ?_
  have := List.all_eq_true.1 h x hx
  cases x with
  | scalar v => rfl
  | column vs => cases this

/-- Applying a function once to scalars is as good as applying it to each row. -/
theorem spread_applyScalar {op : Scalar} {n : Nat} (hn : n ≠ 0) (args : List Evaluated) :
    ((applyScalar op n args).map (Evaluated.spread n)).toOption =
      ((rowsOfColumns n (args.map (Evaluated.spread n))).mapM op.apply).toOption := by
  unfold applyScalar
  split
  · rename_i hall
    have hreplicate : List.replicate n (args.map Evaluated.first) =
        (List.replicate n ()).map fun _ => args.map Evaluated.first := by
      rw [List.map_replicate]
    have hne : List.replicate n () ≠ [] := by simpa using hn
    rw [map_spread_of_scalar hall, rowsOfColumns_replicate, toOption_mapM, hreplicate, List.mapM_map]
    refine Eq.trans ?_ (mapM_const hne _).symm
    rw [List.length_replicate]
    cases op.apply (args.map Evaluated.first) <;> rfl
  · cases (rowsOfColumns n (args.map (Evaluated.spread n))).mapM op.apply <;> rfl

/-! ## Values on a row -/

mutual

/-- The value on a row of a table, where there is one. -/
def value? (t : Table) : Expr → Row → Option Value
  | lit v, _ => some v
  | column name, row => (t.columnIndex? name).map fun i => row.getD i .null
  | wildcard, _ => none
  | call name args, row =>
    match Function.lookup name with
    | none => none
    | some (.aggregate op) =>
      match op, args with
      | .count, [wildcard] => some (.int (Int64.ofNat t.size))
      | op, [arg] =>
        if arg.containsAggregate then none
        else (t.rows.mapM (value? t arg)).bind fun vs => (op.reduce vs).toOption
      | _, _ => none
    | some (.scalar op) =>
      if op.arity.accepts args.length then (values? t args row).bind fun vs => (op.apply vs).toOption else none

def values? (t : Table) : List Expr → Row → Option (List Value)
  | [], _ => some []
  | e :: r, row => do
    let v ← value? t e row
    let vs ← values? t r row
    return v :: vs

end

theorem values?_eq_mapM (t : Table) (row : Row) : ∀ es : List Expr, values? t es row = es.mapM fun e => value? t e row
  | [] => by rw [values?]; rfl
  | e :: es => by rw [values?, List.mapM_cons, values?_eq_mapM t row es]

variable {t : Table}

theorem toOption_evalRows (t : Table) (e : Expr) :
    (evalRows t e).toOption = (eval t e).toOption.map (Evaluated.spread t.size) := by
  unfold evalRows
  cases eval t e <;> rfl

/-- A call of a scalar function applies it to the values of its arguments row by row. -/
theorem evalRows_scalar (ht : t.rows ≠ []) {name : String} {op : Scalar} {args : List Expr}
    (hf : Function.lookup name = some (.scalar op)) :
    (evalRows t (.call name args)).toOption =
      if op.arity.accepts args.length then
        ((args.mapM fun e => (evalRows t e).toOption).map (rowsOfColumns t.size)).bind fun rows =>
          rows.mapM fun vs => (op.apply vs).toOption
      else none := by
  have hn : t.size ≠ 0 := fun h => ht (List.length_eq_zero_iff.1 h)
  have hcolumns : (args.mapM fun e => (evalRows t e).toOption) =
      ((evalList t args).map (List.map (Evaluated.spread t.size))).toOption := by
    rw [← toOption_mapM, mapM_evalRows, evalList_eq]
  rw [toOption_evalRows, eval_scalar hf, hcolumns]
  split
  · rcases evalList t args with e | vs
    · rfl
    · have hs := @spread_applyScalar op _ hn vs
      rw [toOption_mapM] at hs
      refine Eq.trans ?_ hs
      simp only [ok_bind]
      cases applyScalar op t.size vs <;> rfl
  · rfl

/-- A call of an aggregate reduces the values of its argument, and has the result on every row. -/
theorem evalRows_aggregate {name : String} {op : Aggregate} {arg : Expr}
    (hf : Function.lookup name = some (.aggregate op)) (hw : arg ≠ .wildcard) :
    (evalRows t (.call name [arg])).toOption =
      (if arg.containsAggregate then none
        else (evalRows t arg).toOption.bind fun vs => (op.reduce vs).toOption).map (List.replicate t.size) := by
  have harity : (Function.aggregate op).checkArity [arg].length = .ok () := rfl
  rw [toOption_evalRows t (.call name [arg]), eval, hf]
  simp only [harity, ok_bind]
  split
  · rfl
  · have hscalar : (eval t arg >>= fun x => op.reduce (x.spread t.size) >>= fun v =>
        (.ok (.scalar v) : Except Error Evaluated)).toOption.map (Evaluated.spread t.size) =
        ((evalRows t arg).toOption.bind fun vs => (op.reduce vs).toOption).map (List.replicate t.size) := by
      rw [toOption_evalRows]
      rcases eval t arg with e | x
      · rfl
      · show ((op.reduce (x.spread t.size) >>= fun v => (.ok (.scalar v) : Except Error Evaluated)).toOption.map
          (Evaluated.spread t.size)) = (op.reduce (x.spread t.size)).toOption.map (List.replicate t.size)
        cases op.reduce (x.spread t.size) <;> rfl
    rw [← hscalar]
    cases arg with
    | wildcard => exact absurd rfl hw
    | lit v => cases op <;> rfl
    | column n => cases op <;> rfl
    | call n as => cases op <;> rfl

theorem value?_scalar {name : String} {op : Scalar} {args : List Expr} (hf : Function.lookup name = some (.scalar op))
    (row : Row) :
    value? t (.call name args) row =
      if op.arity.accepts args.length then
        (args.mapM fun e => value? t e row).bind fun vs => (op.apply vs).toOption
      else none := by
  rw [value?, hf, ← values?_eq_mapM]

theorem value?_aggregate {name : String} {op : Aggregate} {arg : Expr}
    (hf : Function.lookup name = some (.aggregate op)) (hw : arg ≠ .wildcard) (row : Row) :
    value? t (.call name [arg]) row =
      if arg.containsAggregate then none
      else (t.rows.mapM (value? t arg)).bind fun vs => (op.reduce vs).toOption := by
  rw [value?, hf]
  cases arg with
  | wildcard => exact absurd rfl hw
  | lit v => cases op <;> rfl
  | column n => cases op <;> rfl
  | call n as => cases op <;> rfl

theorem value?_arity {name : String} {op : Aggregate} {args : List Expr}
    (hf : Function.lookup name = some (.aggregate op)) (hlen : args.length ≠ 1) (row : Row) : value? t (.call name args) row = none := by
  rw [value?, hf]
  match args, hlen with
  | [], _ => cases op <;> rfl
  | a :: b :: r, _ => cases op <;> simp

/-- Only a count takes a star. -/
theorem evalRows_star (ht : t.rows ≠ []) {name : String} {op : Aggregate}
    (hf : Function.lookup name = some (.aggregate op)) :
    (evalRows t (.call name [.wildcard])).toOption = t.rows.mapM (value? t (.call name [.wildcard])) := by
  have hstar : t.rows.mapM (value? t .wildcard) = none := by
    have hv : value? t .wildcard = fun _ => none := funext fun _ => by rw [value?]
    rw [hv, mapM_const ht]
    rfl
  have hv : value? t (.call name [.wildcard]) =
      fun _ => if op = .count then some (.int (Int64.ofNat t.size)) else none := by
    funext row
    rw [value?, hf]
    cases op with
    | count => rfl
    | _ => simp [hstar]
  rw [hv, mapM_const ht, toOption_evalRows, eval, hf]
  cases op <;> rfl

mutual

/-- On a table that has rows, evaluation gives the values on the rows, and fails where there is
none. -/
theorem evalRows_eq (ht : t.rows ≠ []) : ∀ e : Expr, (evalRows t e).toOption = t.rows.mapM (value? t e)
  | .lit v => by
    have hv : value? t (.lit v) = fun _ => some v := funext fun _ => by rw [value?]
    rw [hv, mapM_const ht]
    rfl
  | .column name => by
    have hv : value? t (.column name) = fun row => (t.columnIndex? name).map fun i => row.getD i .null :=
      funext fun _ => by rw [value?]
    rw [hv, toOption_evalRows, eval]
    cases t.columnIndex? name with
    | none => exact (mapM_const ht none).symm
    | some i => exact (mapM_eq_some_map fun _ _ => rfl).symm
  | .wildcard => by
    have hv : value? t .wildcard = fun _ => none := funext fun _ => by rw [value?]
    rw [hv, mapM_const ht]
    rfl
  | .call name args => by
    have hargs : (args.mapM fun e => (evalRows t e).toOption) = args.mapM fun e => t.rows.mapM (value? t e) :=
      mapM_evalRows_eq ht args
    rcases hf : Function.lookup name with _ | op | op
    · have hv : value? t (.call name args) = fun _ => none := funext fun _ => by rw [value?, hf]
      rw [hv, mapM_const ht, toOption_evalRows, eval, hf]
      rfl
    · -- an aggregate takes one argument
      by_cases hlen : args.length = 1
      · obtain ⟨arg, rfl⟩ := List.length_eq_one_iff.1 hlen
        by_cases hw : arg = .wildcard
        · rw [hw]
          exact evalRows_star ht hf
        · have hv : value? t (.call name [arg]) = fun _ => if arg.containsAggregate then none
              else (t.rows.mapM (value? t arg)).bind fun vs => (op.reduce vs).toOption :=
            funext fun row => value?_aggregate hf hw row
          rw [hv, mapM_const ht, evalRows_aggregate hf hw, evalRows_eq ht arg]
          rfl
      · have hv : value? t (.call name args) = fun _ => none := funext fun row => value?_arity hf hlen row
        have harity : (Function.aggregate op).checkArity args.length =
            .error (.invalidArgument (.arity (Function.aggregate op).name args.length)) :=
          if_neg (by simpa [Function.arity, Arity.accepts] using hlen)
        rw [hv, mapM_const ht, toOption_evalRows, eval, hf]
        simp only [harity]
        rfl
    · have hv : value? t (.call name args) = fun row => if op.arity.accepts args.length then
          (args.mapM fun e => value? t e row).bind fun vs => (op.apply vs).toOption else none :=
        funext fun row => value?_scalar hf row
      rw [evalRows_scalar ht hf, hv, hargs]
      split
      · rw [show t.size = t.rows.length from rfl, rowsOfColumns_mapM (value? t)]
        exact mapM_bind_mapM (fun row => args.mapM fun e => value? t e row) (fun vs => (op.apply vs).toOption) t.rows
      · exact (mapM_const ht none).symm

theorem mapM_evalRows_eq (ht : t.rows ≠ []) : ∀ es : List Expr,
    (es.mapM fun e => (evalRows t e).toOption) = es.mapM fun e => t.rows.mapM (value? t e)
  | [] => rfl
  | e :: es => by rw [List.mapM_cons, List.mapM_cons, evalRows_eq ht e, mapM_evalRows_eq ht es]

end

/-- The rows that expressions give on a table that has rows. -/
theorem toOption_evalTable (ht : t.rows ≠ []) (es : List Expr) :
    (evalTable t es).toOption = (t.rows.mapM (values? t es)).map (Table.mk (labels es)) := by
  have hcolumns : (es.mapM (evalRows t)).toOption = es.mapM fun e => t.rows.mapM (value? t e) :=
    (toOption_mapM (evalRows t) es).trans (mapM_evalRows_eq ht es)
  have hrows : (es.mapM fun e => t.rows.mapM (value? t e)).map (rowsOfColumns t.size) = t.rows.mapM (values? t es) :=
    (rowsOfColumns_mapM (value? t) es t.rows).trans
      (congrArg (t.rows.mapM ·) (funext fun row => (values?_eq_mapM t row es).symm))
  rw [evalTable_eq (List.isEmpty_eq_false_iff.2 ht), ← hrows, ← hcolumns]
  cases es.mapM (evalRows t) <;> rfl

/-! ## Values without aggregates -/

/-- A column is found by the fields alone. -/
theorem value?_column_congr {u : Table} (hf : u.fields = t.fields) (name : String) (row : Row) :
    value? u (.column name) row = value? t (.column name) row := by
  rw [value?, value?, Table.columnIndex?, hf]
  rfl

mutual

/-- Without an aggregate the value on a row is made of the values of its columns. -/
theorem value?_congr {u : Table} {row row' : Row} : ∀ e : Expr, e.containsAggregate = false →
    (∀ name, .column name ∈ leaves e → value? t (.column name) row = value? u (.column name) row') →
      value? t e row = value? u e row'
  | .lit v, _, _ => by rw [value?, value?]
  | .column name, _, h => h name (List.mem_singleton_self _)
  | .wildcard, _, _ => by rw [value?, value?]
  | .call name args, ha, h => by
    rw [containsAggregate, Bool.or_eq_false_iff, Function.isAggregateName] at ha
    have hargs : values? t args row = values? u args row' := values?_congr args ha.2 h
    rcases hf : Function.lookup name with _ | op | op
    · rw [value?, value?, hf]
    · rw [hf] at ha
      cases ha.1
    · rw [value?, value?, hf]
      simp only [hargs]

theorem values?_congr {u : Table} {row row' : Row} : ∀ es : List Expr, containsAggregates es = false →
    (∀ name, .column name ∈ leavesOf es → value? t (.column name) row = value? u (.column name) row') →
      values? t es row = values? u es row'
  | [], _, _ => by rw [values?, values?]
  | e :: es, ha, h => by
    rw [containsAggregates, Bool.or_eq_false_iff] at ha
    rw [values?, values?, value?_congr e ha.1 fun name hn => h name (List.mem_append_left _ hn),
      values?_congr es ha.2 fun name hn => h name (List.mem_append_right _ hn)]

end

mutual

theorem leaves_of_not_bare : ∀ e : Expr, e.containsAggregate = false → e.hasBareToken = false → leaves e = []
  | .lit _, _, _ => rfl
  | .column _, _, hb => by cases hb
  | .wildcard, _, hb => by cases hb
  | .call name args, ha, hb => by
    rw [containsAggregate, Bool.or_eq_false_iff] at ha
    rw [hasBareToken, ha.1, Bool.not_false, Bool.true_and] at hb
    exact leavesOf_of_not_bare args ha.2 hb

theorem leavesOf_of_not_bare : ∀ es : List Expr, containsAggregates es = false → haveBareToken es = false → leavesOf es = []
  | [], _, _ => rfl
  | e :: es, ha, hb => by
    rw [containsAggregates, Bool.or_eq_false_iff] at ha
    rw [haveBareToken, Bool.or_eq_false_iff] at hb
    rw [leavesOf, leaves_of_not_bare e ha.1 hb.1, leavesOf_of_not_bare es ha.2 hb.2]
    rfl

end

mutual

theorem not_bare_of_leaves : ∀ e : Expr, leaves e = [] → e.hasBareToken = false
  | .lit _, _ => rfl
  | .column _, h => by cases h
  | .wildcard, h => by cases h
  | .call _ args, h => by
    rw [leaves] at h
    rw [hasBareToken, not_bare_of_leavesOf args h, Bool.and_false]

theorem not_bare_of_leavesOf : ∀ es : List Expr, leavesOf es = [] → haveBareToken es = false
  | [], _ => rfl
  | e :: es, h => by
    rw [leavesOf, List.append_eq_nil_iff] at h
    rw [haveBareToken, not_bare_of_leaves e h.1, not_bare_of_leavesOf es h.2, Bool.or_false]

end

/-- Without aggregates only expressions without a column or star have none outside an aggregate. -/
theorem haveBareToken_eq_false_iff {es : List Expr} (ha : containsAggregates es = false) :
    haveBareToken es = false ↔ leavesOf es = [] :=
  ⟨leavesOf_of_not_bare es ha, not_bare_of_leavesOf es⟩

/-- The values on a row, where there are any. -/
def rowOf (t : Table) (es : List Expr) (row : Row) : Row := (values? t es row).getD []

/-- Without aggregates the values on a row depend on the fields only. -/
theorem rowOf_congr {u : Table} {es : List Expr} (ha : containsAggregates es = false) (hf : u.fields = t.fields) :
    rowOf u es = rowOf t es := by
  funext row
  rw [rowOf, rowOf, values?_congr es ha fun name _ => value?_column_congr hf name row]

/-- Without aggregates the values on some of the rows are those that they have among all rows. -/
theorem evalTable_part {u out : Table} {es : List Expr} (ha : containsAggregates es = false) (ht : t.rows ≠ [])
    (h : evalTable t es = .ok out) (hf : u.fields = t.fields) (hu : u.rows ≠ []) (hs : u.rows ⊆ t.rows) :
    evalTable u es = .ok ⟨labels es, u.rows.map (rowOf t es)⟩ := by
  have hall := toOption_evalTable ht es
  rw [h] at hall
  obtain ⟨rows, hrows, -⟩ := Option.map_eq_some_iff.1 hall.symm
  have hvalues : ∀ row ∈ u.rows, values? u es row = some (rowOf t es row) := by
    intro row hr
    obtain ⟨r, -, hv⟩ := exists_right_of_forall₂ (mapM_eq_some.1 hrows) row (hs hr)
    rw [values?_congr es ha fun name _ => value?_column_congr hf name row, rowOf, hv]
    rfl
  have hpart : (Except.ok ⟨labels es, u.rows.map (rowOf t es)⟩ : Except Error Table).toOption =
      (evalTable u es).toOption := by
    rw [toOption_evalTable hu es, mapM_eq_some_map hvalues]
    rfl
  exact eq_ok_of_toOption hpart rfl

/-- Without aggregates and columns the values on all rows are the same. -/
theorem rowOf_of_not_bare {es : List Expr} (ha : containsAggregates es = false) (hb : haveBareToken es = false)
    (row row' : Row) : rowOf t es row = rowOf t es row' := by
  unfold rowOf
  rw [values?_congr es ha fun name hn => ?_]
  rw [leavesOf_of_not_bare es ha hb] at hn
  cases hn

end Expr

end TableQuery
