/-
What the text of an expression says about its value. A column outside every aggregate call gives a value for each
row, and without such a column there is one value for the whole table, however calls, literals and aggregates
are nested. So where all columns of a list of expressions stand in aggregates, the rows of their values are one
row repeated, and a table without rows gives one row exactly if each expression contains an aggregate besides.
-/
import TableQuery.Expr.Token
import TableQuery.Proofs.Expr.Rowwise

namespace TableQuery

namespace Expr

/-! ## Columns outside aggregates -/

/-- A token occurs in an expression, and no call of an aggregate is around it. -/
inductive Outside : Token → Expr → Prop
  | column (name : String) : Outside (.column name) (.column name)
  | wildcard : Outside .wildcard .wildcard
  | call {x : Token} {name : String} {args : List Expr} {arg : Expr} : Function.isAggregateName name = false →
      arg ∈ args → Outside x arg → Outside x (.call name args)

theorem haveBareToken_iff {es : List Expr} : haveBareToken es = true ↔ ∃ e ∈ es, e.hasBareToken = true := by
  induction es with
  | nil => simp [haveBareToken]
  | cons e es ih => rw [haveBareToken, Bool.or_eq_true, ih, List.exists_mem_cons_iff]

theorem allInAggregate_iff {es : List Expr} : allInAggregate es = true ↔ ∀ e ∈ es, e.hasBareToken = false := by
  rw [allInAggregate, Bool.not_eq_true', ← Bool.not_eq_true, haveBareToken_iff]
  simp

theorem Outside.hasBareToken {x : Token} {e : Expr} (h : Outside x e) : e.hasBareToken = true := by
  induction h with
  | column name => rfl
  | wildcard => rfl
  | call hname harg _ ih =>
    rw [Expr.hasBareToken, hname, Bool.not_false, Bool.true_and]
    exact haveBareToken_iff.2 ⟨_, harg, ih⟩

mutual

theorem exists_outside : ∀ e : Expr, e.hasBareToken = true → ∃ x, Outside x e
  | .lit _, h => by cases h
  | .column name, _ => ⟨_, .column name⟩
  | .wildcard, _ => ⟨_, .wildcard⟩
  | .call name args, h => by
    rw [Expr.hasBareToken, Bool.and_eq_true, Bool.not_eq_true'] at h
    obtain ⟨arg, harg, x, hx⟩ := exists_outside_mem args h.2
    exact ⟨x, .call h.1 harg hx⟩

theorem exists_outside_mem : ∀ es : List Expr, haveBareToken es = true → ∃ e ∈ es, ∃ x, Outside x e
  | [], h => by cases h
  | e :: es, h => by
    rw [haveBareToken, Bool.or_eq_true] at h
    rcases h with h | h
    · exact ⟨e, List.mem_cons_self .., exists_outside e h⟩
    · obtain ⟨e', he, hx⟩ := exists_outside_mem es h
      exact ⟨e', List.mem_cons_of_mem _ he, hx⟩

end

/-! ## One expression -/

variable {t : Table} {e : Expr} {es : List Expr} {x : Evaluated} {xs : List Evaluated}

theorem isScalar_applyScalar {op : Scalar} {n : Nat} {args : List Evaluated} (h : applyScalar op n args = .ok x) :
    x.isScalar = args.all Evaluated.isScalar := by
  unfold applyScalar at h
  split at h
  · rename_i hall
    obtain ⟨v, -, h⟩ := bind_ok h
    cases h
    exact hall.symm
  · rename_i hall
    obtain ⟨vs, -, h⟩ := bind_ok h
    cases h
    exact (Bool.eq_false_iff.2 hall).symm

theorem isAggregateName_eq {name : String} {f : Function} (hf : Function.lookup name = some f) :
    Function.isAggregateName name = f.isAggregate := by
  rw [Function.isAggregateName, hf, Option.any_some]

mutual

/-- A value is a scalar exactly if no token stands outside the aggregates. -/
theorem isScalar_eval : ∀ {e : Expr} {x : Evaluated}, eval t e = .ok x → x.isScalar = !e.hasBareToken
  | .lit v, x, h => by
    rw [eval] at h
    cases h
    rfl
  | .column name, x, h => by
    rw [eval] at h
    split at h
    · cases h
      rfl
    · cases h
  | .wildcard, x, h => by
    rw [eval] at h
    cases h
  | .call name args, x, h => by
    rw [hasBareToken]
    rcases hf : Function.lookup name with _ | op | op
    · rw [eval, hf] at h
      cases h
    · obtain ⟨v, rfl⟩ := eval_aggregate_ok hf h
      rw [isAggregateName_eq hf]
      rfl
    · rw [eval_scalar hf] at h
      split at h
      · obtain ⟨xs, hxs, h⟩ := bind_ok h
        rw [isScalar_applyScalar h, all_isScalar_evalList hxs, isAggregateName_eq hf]
        rfl
      · cases h

theorem all_isScalar_evalList : ∀ {es : List Expr} {xs : List Evaluated}, evalList t es = .ok xs →
    xs.all Evaluated.isScalar = !haveBareToken es
  | [], xs, h => by
    rw [evalList] at h
    cases h
    rfl
  | e :: es, xs, h => by
    rw [evalList] at h
    obtain ⟨x, hx, h⟩ := bind_ok h
    obtain ⟨ys, hys, h⟩ := bind_ok h
    cases h
    rw [List.all_cons, isScalar_eval hx, all_isScalar_evalList hys, haveBareToken, Bool.not_or]

end

/-- A star has no value, so where there is one, the tokens outside the aggregates are columns. -/
theorem not_outside_wildcard {tok : Token} (ho : Outside tok e) (h : eval t e = .ok x) : tok ≠ .wildcard := by
  induction ho generalizing x with
  | column name => exact Token.noConfusion
  | wildcard =>
    rw [eval] at h
    cases h
  | @call tok name args arg hname harg _ ih =>
    rcases hf : Function.lookup name with _ | op | op
    · rw [eval, hf] at h
      cases h
    · rw [isAggregateName_eq hf] at hname
      cases hname
    · rw [eval_scalar hf] at h
      split at h
      · obtain ⟨xs, hxs, -⟩ := bind_ok h
        rw [evalList_eq] at hxs
        obtain ⟨y, -, hy⟩ := exists_of_mapM_ok hxs arg harg
        exact ih hy
      · cases h

/-- Whether some column occurs outside every aggregate call. -/
def HasBareColumn (e : Expr) : Prop := ∃ name, Outside (.column name) e

theorem hasBareColumn_iff (h : eval t e = .ok x) : e.HasBareColumn ↔ e.hasBareToken = true := by
  constructor
  · rintro ⟨name, hname⟩
    exact hname.hasBareToken
  · intro hb
    obtain ⟨tok, htok⟩ := exists_outside e hb
    cases tok with
    | column name => exact ⟨name, htok⟩
    | wildcard => exact absurd rfl (not_outside_wildcard htok h)

/-! ## Lists of expressions -/

variable {out : Table}

theorem exists_evalTable_iff : (∃ out, evalTable t es = .ok out) ↔ ∀ e ∈ es, ∃ x, eval t e = .ok x := by
  unfold evalTable
  rw [evalList_eq]
  constructor
  · rintro ⟨out, h⟩ e he
    obtain ⟨xs, hxs, -⟩ := bind_ok h
    obtain ⟨x, -, hx⟩ := exists_of_mapM_ok hxs e he
    exact ⟨x, hx⟩
  · intro h
    obtain ⟨xs, hxs⟩ := exists_mapM_ok h
    rw [hxs, ok_bind]
    refine ⟨_, ofRows_rowsOfColumns _ ?_⟩
    rw [List.length_map, length_labels]
    exact (mapM_ok_forall₂ hxs).length_eq.symm

/-- On a table without rows, expressions that are all single values with an aggregate. -/
def GivesTotals (t : Table) (es : List Expr) : Prop :=
  t.rows = [] ∧ es ≠ [] ∧ ∀ e ∈ es, e.containsAggregate = true ∧ ¬e.HasBareColumn

/-- The number of rows that the values of expressions fill. -/
def rowCount (t : Table) (es : List Expr) : Nat :=
  if t.isEmpty && !es.isEmpty && es.all containsAggregate && allInAggregate es then 1 else t.size

/-- The values of expressions stand in as many rows. -/
theorem evalTable_ok (h : evalTable t es = .ok out) : ∃ xs, evalList t es = .ok xs ∧
    out = ⟨labels es, rowsOfColumns (rowCount t es) (xs.map (Evaluated.spread (rowCount t es)))⟩ := by
  unfold evalTable at h
  obtain ⟨xs, hxs, h⟩ := bind_ok h
  refine ⟨xs, hxs, ?_⟩
  rw [rowCount, allInAggregate, ← all_isScalar_evalList hxs]
  exact (Table.ofRows_ok h).1

theorem size_evalTable (h : evalTable t es = .ok out) : out.size = rowCount t es := by
  obtain ⟨xs, -, rfl⟩ := evalTable_ok h
  exact length_rowsOfColumns ..

theorem rowCount_eq_one (ht : t.rows = []) (he : es ≠ [])
    (h : ∀ e ∈ es, e.containsAggregate = true ∧ e.hasBareToken = false) : rowCount t es = 1 := by
  have hall : es.all containsAggregate = true := List.all_eq_true.2 fun e hm => (h e hm).1
  have hin : allInAggregate es = true := allInAggregate_iff.2 fun e hm => (h e hm).2
  have hne : es.isEmpty = false := List.isEmpty_eq_false_iff.2 he
  rw [rowCount, Table.isEmpty, ht, hall, hin, hne]
  rfl

theorem rowCount_eq_size
    (h : ¬(t.rows = [] ∧ es ≠ [] ∧ ∀ e ∈ es, e.containsAggregate = true ∧ e.hasBareToken = false)) :
    rowCount t es = t.size := by
  rw [rowCount, if_neg]
  simp only [Bool.and_eq_true, List.all_eq_true, allInAggregate_iff]
  rintro ⟨⟨⟨ht, he⟩, hall⟩, hin⟩
  refine h ⟨List.isEmpty_iff.1 ht, by simpa using he, fun e hm => ⟨hall e hm, hin e hm⟩⟩

/-- Where all columns stand in aggregates, the rows are one row repeated. -/
theorem rows_evalTable_of_allInAggregate (ha : allInAggregate es = true) (h : evalTable t es = .ok out) :
    ∃ row, out.rows = List.replicate out.size row := by
  obtain ⟨xs, hxs, hout⟩ := evalTable_ok h
  have hall : xs.all Evaluated.isScalar = true := (all_isScalar_evalList hxs).trans ha
  refine ⟨xs.map Evaluated.first, ?_⟩
  rw [size_evalTable h, hout]
  simp only
  rw [map_spread_of_scalar hall, rowsOfColumns_replicate]

/-- The value of an expression is a column with one value for each row if a column occurs in it outside every
aggregate call, and else one scalar. So a list of expressions whose columns all stand in aggregates gives one row
repeated, and its first row is all that there is to know; and each list gives as many rows as the table has, but one
on a table without rows if there are expressions, all of them scalars with aggregates. -/
theorem eval_static (t : Table) :
    (∀ e x, eval t e = .ok x → (e.HasBareColumn → ∃ vs, x = .column vs ∧ vs.length = t.size) ∧
      (¬e.HasBareColumn → ∃ v, x = .scalar v)) ∧
    ∀ es, ((∃ out, evalTable t es = .ok out) ↔ ∀ e ∈ es, ∃ x, eval t e = .ok x) ∧
      ∀ out, evalTable t es = .ok out →
        (allInAggregate es = true →
          ∀ row ∈ out.rows, out.rows = List.replicate out.size row ∧ (out.truncate 1).rows = [row]) ∧
        (GivesTotals t es → out.size = 1) ∧ (¬GivesTotals t es → out.size = t.size) := by
  constructor
  · intro e x h
    have hscalar : x.isScalar = !e.hasBareToken := isScalar_eval h
    rw [hasBareColumn_iff h]
    cases x with
    | scalar v =>
      have hb : e.hasBareToken = false := by simpa [Evaluated.isScalar] using hscalar.symm
      exact ⟨fun hbare => absurd hbare (by simp [hb]), fun _ => ⟨v, rfl⟩⟩
    | column vs =>
      have hb : e.hasBareToken = true := by simpa [Evaluated.isScalar] using hscalar.symm
      exact ⟨fun _ => ⟨vs, rfl, length_eval h⟩, fun hbare => absurd hb hbare⟩
  · intro es
    refine ⟨exists_evalTable_iff, fun out h => ?_⟩
    -- the columns outside the aggregates are the tokens that the analysis looks for
    have hbare : ∀ e ∈ es, (¬e.HasBareColumn ↔ e.hasBareToken = false) := by
      intro e he
      obtain ⟨x, hx⟩ := exists_evalTable_iff.1 ⟨out, h⟩ e he
      rw [hasBareColumn_iff hx, Bool.not_eq_true]
    have hscalars : (∀ e ∈ es, e.containsAggregate = true ∧ ¬e.HasBareColumn) ↔
        ∀ e ∈ es, e.containsAggregate = true ∧ e.hasBareToken = false :=
      forall₂_congr fun e he => and_congr_right fun _ => hbare e he
    rw [GivesTotals, hscalars, size_evalTable h]
    refine ⟨fun ha row hrow => ?_, ?_, rowCount_eq_size⟩
    · obtain ⟨r, hr⟩ := rows_evalTable_of_allInAggregate ha h
      rw [size_evalTable h] at hr
      rw [hr] at hrow
      obtain ⟨hn, rfl⟩ := List.mem_replicate.1 hrow
      refine ⟨hr, ?_⟩
      rw [Table.truncate, hr]
      simp [Nat.one_le_iff_ne_zero.2 hn]
    · rintro ⟨ht, he, hall⟩
      exact rowCount_eq_one ht he hall

end Expr

/-! ## An example -/

namespace Sample

def days : Table := ⟨["city", "high"], [[.text "Oslo", .int 4], [.text "Rome", .int 19], [.text "Riga", .null]]⟩

/-- `count(*)` and `1 + count(high)`. -/
def counts : List Expr :=
  [.call "count" [.wildcard], .call "+" [.lit (.int 1), .call "count" [.column "high"]]]

/-- `max(high) - high` -/
def below : Expr := .call "-" [.call "max" [.column "high"], .column "high"]

end Sample

open Sample in
/-- A column beside an aggregate gives a value for each day. The counts are the same for each of them, and still there
if there are no days. -/
theorem Expr.eval_static_days :
    (below.HasBareColumn ∧ ∃ vs, eval days below = .ok (.column vs) ∧ vs.length = 3) ∧
      allInAggregate counts = true ∧
      (∃ out, evalTable days counts = .ok out ∧ out.size = 3 ∧ (out.truncate 1).rows = [[.int 3, .int 3]]) ∧
      ∃ out, evalTable (.empty days.fields) counts = .ok out ∧ out.size = 1 := by
  have hbelow : eval days below = .ok (.column [.int 15, .int 0, .null]) := by decide +kernel
  have hhigh : .column "high" ∈ [call "max" [.column "high"], .column "high"] := by decide
  have hbare : below.HasBareColumn := ⟨"high", .call rfl hhigh (.column _)⟩
  have hin : allInAggregate counts = true := rfl
  have hdays : evalTable days counts =
      .ok ⟨labels counts, List.replicate 3 [.int 3, .int 3]⟩ := by decide +kernel
  have hnone : evalTable (.empty days.fields) counts = .ok ⟨labels counts, [[.int 0, .int 1]]⟩ := by decide +kernel
  obtain ⟨hone, hmany⟩ := eval_static days
  obtain ⟨-, hmany'⟩ := eval_static (.empty days.fields)
  obtain ⟨vs, hvs, hlength⟩ := (hone below _ hbelow).1 hbare
  obtain ⟨hsame, -, hsize⟩ := (hmany counts).2 _ hdays
  obtain ⟨-, hsingle, -⟩ := (hmany' counts).2 _ hnone
  have hscalars : ∀ e ∈ counts, e.containsAggregate = true ∧ ¬e.HasBareColumn := by
    have hb : ∀ e ∈ counts, e.containsAggregate = true ∧ e.hasBareToken = false := by decide
    refine fun e he => ⟨(hb e he).1, fun ⟨name, hname⟩ => ?_⟩
    exact absurd hname.hasBareToken (by simp [(hb e he).2])
  have hfirst : [.int 3, .int 3] ∈ List.replicate 3 ([.int 3, .int 3] : Row) := by decide
  refine ⟨⟨hbare, vs, hvs ▸ hbelow, hlength⟩, hin, ⟨_, hdays, hsize fun h => ?_, (hsame hin _ hfirst).2⟩, _, hnone,
    hsingle ⟨rfl, by decide, hscalars⟩⟩
  cases h.1

end TableQuery
