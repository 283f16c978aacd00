/-
Values of an expression on the rows of one table followed by the rows of another. Evaluation goes column by column,
and computes a call of constants once, also where there is no row at all. Without aggregates nothing of this is seen:
an expression has values on all the rows exactly if it has them on both parts, and they are the values of the parts,
one after the other. So a value depends on nothing but its row, and the rows that a filter keeps of the whole are those
that it keeps of the parts.
-/
import TableQuery.Proofs.Expr.Rowwise
import TableQuery.Proofs.Query.Stages

namespace TableQuery

/-! ## Two computations and one for both -/

section

variable {ε α β γ α' β' γ' : Type} {R : α → β → γ → Prop} {S : α' → β' → γ' → Prop}
variable {x : Except ε α} {y : Except ε β} {z : Except ε γ}

/-- A computation that succeeds exactly if two others do, and whose result is then related to theirs. -/
inductive Both (R : α → β → γ → Prop) : Except ε α → Except ε β → Except ε γ → Prop
  | ok {a : α} {b : β} {c : γ} : R a b c → Both R (.ok a) (.ok b) (.ok c)
  | left (e e' : ε) (y : Except ε β) : Both R (.error e) y (.error e')
  | right (e e' : ε) (x : Except ε α) : Both R x (.error e) (.error e')

theorem Both.bind {f : α → Except ε α'} {g : β → Except ε β'} {k : γ → Except ε γ'} (h : Both R x y z)
    (hf : ∀ a b c, x = .ok a → R a b c → Both S (f a) (g b) (k c)) : Both S (x >>= f) (y >>= g) (z >>= k) := by
  cases h with
  | ok hR => exact hf _ _ _ rfl hR
  | left e e' y => exact .left e e' _
  | right e e' x => exact .right e e' _

theorem Both.of_ok {c : γ} (h : Both R x y (.ok c)) : ∃ a b, x = .ok a ∧ y = .ok b ∧ R a b c := by
  cases h with
  | ok hR => exact ⟨_, _, rfl, rfl, hR⟩

/-- Where the results fix the result for both, there is one exactly if there are two. -/
theorem Both.ok_iff {c : γ} (h : Both R x y z) (hR : ∀ a b c c', R a b c → R a b c' → c = c') :
    z = .ok c ↔ ∃ a b, x = .ok a ∧ y = .ok b ∧ R a b c := by
  constructor
  · rintro rfl
    exact h.of_ok
  · rintro ⟨a, b, rfl, rfl, habc⟩
    cases h with
    | ok habc' => rw [hR _ _ _ _ habc habc']

/-- One list after another. -/
def IsAppend (xs ys zs : List α) : Prop := zs = xs ++ ys

theorem Both.append_iff {x y z : Except ε (List α)} {zs : List α} (h : Both IsAppend x y z) :
    z = .ok zs ↔ ∃ xs ys, x = .ok xs ∧ y = .ok ys ∧ zs = xs ++ ys :=
  h.ok_iff fun _ _ _ _ h h' => Eq.trans h (Eq.symm h')

theorem both_mapM (f : α → Except ε β) (xs ys : List α) :
    Both IsAppend (xs.mapM f) (ys.mapM f) ((xs ++ ys).mapM f) := by
  rw [List.mapM_append]
  cases xs.mapM f with
  | error e => exact .left e e _
  | ok as =>
    cases ys.mapM f with
    | error e => exact .right e e _
    | ok bs => exact .ok rfl

end

/-! ## Columns one below the other -/

section

variable {cs ds : List (List Value)}

theorem zipWith_append_of_nil (hc : ∀ c ∈ cs, c = []) (hlen : cs.length = ds.length) :
    List.zipWith (· ++ ·) cs ds = ds := by
  refine List.ext_getElem (by simp [hlen]) fun i h₁ h₂ => ?_
  rw [List.getElem_zipWith, hc _ (List.getElem_mem _), List.nil_append]

theorem map_headD_zipWith (hc : ∀ c ∈ cs, c ≠ []) (hlen : cs.length = ds.length) :
    (List.zipWith (· ++ ·) cs ds).map (·.headD .null) = cs.map (·.headD .null) := by
  refine List.ext_getElem (by simp [hlen]) fun i h₁ h₂ => ?_
  have hi : i < cs.length := by simpa using h₂
  obtain ⟨v, vs, hcons⟩ := List.exists_cons_of_ne_nil (hc _ (List.getElem_mem hi))
  simp [hcons]

theorem map_tail_zipWith (hc : ∀ c ∈ cs, c ≠ []) :
    (List.zipWith (· ++ ·) cs ds).map List.tail = List.zipWith (· ++ ·) (cs.map List.tail) ds := by
  refine List.ext_getElem (by simp) fun i h₁ h₂ => ?_
  have hi : i < cs.length := by
    rw [List.length_map, List.length_zipWith] at h₁
    omega
  obtain ⟨v, vs, hcons⟩ := List.exists_cons_of_ne_nil (hc _ (List.getElem_mem hi))
  simp [hcons]

end

/-- Rows are read off columns of which each continues another. -/
theorem rowsOfColumns_append {m : Nat} : ∀ {n : Nat} {cs ds : List (List Value)}, (∀ c ∈ cs, c.length = n) →
    cs.length = ds.length →
      rowsOfColumns (n + m) (List.zipWith (· ++ ·) cs ds) = rowsOfColumns n cs ++ rowsOfColumns m ds
  | 0, cs, ds, hn, hlen => by
    have hnil : ∀ c ∈ cs, c = [] := fun c hc => List.length_eq_zero_iff.1 (hn c hc)
    rw [zipWith_append_of_nil hnil hlen, Nat.zero_add, rowsOfColumns, List.nil_append]
  | n + 1, cs, ds, hn, hlen => by
    have hne : ∀ c ∈ cs, c ≠ [] := fun c hc => List.ne_nil_of_length_eq_add_one (hn c hc)
    have hn' : ∀ c ∈ cs.map List.tail, c.length = n := by
      intro c hc
      obtain ⟨c', hc', rfl⟩ := List.mem_map.1 hc
      rw [List.length_tail, hn c' hc', Nat.add_sub_cancel]
    have hlen' : (cs.map List.tail).length = ds.length := by rw [List.length_map, hlen]
    rw [Nat.add_right_comm, rowsOfColumns, map_headD_zipWith hne hlen, map_tail_zipWith hne,
      rowsOfColumns_append hn' hlen']
    rfl

/-- A value for the rows of a table of `n` rows, one for those of another, and one for both. -/
inductive Joined (n : Nat) : Evaluated → Evaluated → Evaluated → Prop
  | scalar (v : Value) : Joined n (.scalar v) (.scalar v) (.scalar v)
  | column {vs : List Value} (ws : List Value) : vs.length = n → Joined n (.column vs) (.column ws) (.column (vs ++ ws))

/-- Values that belong together one by one. -/
inductive AllJoined (n : Nat) : List Evaluated → List Evaluated → List Evaluated → Prop
  | nil : AllJoined n [] [] []
  | cons {x y z : Evaluated} {xs ys zs : List Evaluated} : Joined n x y z → AllJoined n xs ys zs →
      AllJoined n (x :: xs) (y :: ys) (z :: zs)

section

variable {n m : Nat} {x y z : Evaluated} {xs ys zs : List Evaluated}

theorem Joined.spread (h : Joined n x y z) : z.spread (n + m) = x.spread n ++ y.spread m := by
  cases h with
  | scalar v => exact (List.replicate_append_replicate ..).symm
  | column ws hn => rfl

theorem AllJoined.spread (h : AllJoined n xs ys zs) : zs.map (Evaluated.spread (n + m)) =
    List.zipWith (· ++ ·) (xs.map (Evaluated.spread n)) (ys.map (Evaluated.spread m)) := by
  induction h with
  | nil => rfl
  | cons hj _ ih => rw [List.map_cons, hj.spread, ih]; rfl

theorem AllJoined.length_eq (h : AllJoined n xs ys zs) : xs.length = ys.length := by
  induction h with
  | nil => rfl
  | cons _ _ ih => exact congrArg (· + 1) ih

theorem AllJoined.length_spread (h : AllJoined n xs ys zs) : ∀ vs ∈ xs.map (Evaluated.spread n), vs.length = n := by
  induction h with
  | nil => exact fun _ hvs => absurd hvs List.not_mem_nil
  | cons hj _ ih =>
    refine List.forall_mem_cons.2 ⟨?_, ih⟩
    cases hj with
    | scalar v => exact List.length_replicate
    | column ws hn => exact hn

theorem AllJoined.all_isScalar (h : AllJoined n xs ys zs) :
    ys.all Evaluated.isScalar = xs.all Evaluated.isScalar ∧ zs.all Evaluated.isScalar = xs.all Evaluated.isScalar := by
  induction h with
  | nil => exact ⟨rfl, rfl⟩
  | cons hj _ ih =>
    simp only [List.all_cons, ih]
    cases hj <;> exact ⟨rfl, rfl⟩

theorem AllJoined.eq_of_isScalar (h : AllJoined n xs ys zs) (hs : xs.all Evaluated.isScalar = true) :
    ys = xs ∧ zs = xs := by
  induction h with
  | nil => exact ⟨rfl, rfl⟩
  | cons hj _ ih =>
    rw [List.all_cons, Bool.and_eq_true] at hs
    obtain ⟨rfl, rfl⟩ := ih hs.2
    cases hj with
    | scalar v => exact ⟨rfl, rfl⟩
    | column ws hn => cases hs.1

/-- A function that is applied to each row is applied to the rows of both parts. Applied once, it has one result for
both, or fails on both. -/
theorem AllJoined.applyScalar (h : AllJoined n xs ys zs) (op : Scalar) :
    Both (Joined n) (Expr.applyScalar op n xs) (Expr.applyScalar op m ys) (Expr.applyScalar op (n + m) zs) := by
  unfold Expr.applyScalar
  rw [h.all_isScalar.1, h.all_isScalar.2]
  split
  · rename_i hs
    obtain ⟨rfl, rfl⟩ := h.eq_of_isScalar hs
    cases op.apply (zs.map Evaluated.first) with
    | error e => exact .left e e _
    | ok v => exact .ok (.scalar v)
  · rw [h.spread, rowsOfColumns_append h.length_spread (by simpa using h.length_eq)]
    refine (both_mapM op.apply _ _).bind fun vs ws us hvs hus => .ok ?_
    rw [hus]
    refine .column ws ?_
    rw [← (mapM_ok_forall₂ hvs).length_eq, length_rowsOfColumns]

end

/-! ## Evaluation -/

/-- The rows of a table, and below them those of another. -/
def Table.stack (t u : Table) : Table := { t with rows := t.rows ++ u.rows }

theorem Table.size_stack (t u : Table) : (t.stack u).size = t.size + u.size := List.length_append

theorem Table.wellFormed_stack_iff {t u : Table} (hf : u.fields = t.fields) :
    (t.stack u).WellFormed ↔ t.WellFormed ∧ u.WellFormed := by
  unfold WellFormed stack
  rw [hf]
  exact List.forall_mem_append

namespace Expr

variable {t u : Table} {e : Expr}

mutual

theorem eval_stack (hf : u.fields = t.fields) :
    ∀ e : Expr, e.containsAggregate = false → Both (Joined t.size) (eval t e) (eval u e) (eval (t.stack u) e)
  | .lit v, _ => by
    rw [eval, eval, eval]
    exact .ok (.scalar v)
  | .column name, _ => by
    have hu : u.columnIndex? name = t.columnIndex? name := by rw [Table.columnIndex?, hf]; rfl
    have hs : (t.stack u).columnIndex? name = t.columnIndex? name := rfl
    rw [eval, eval, eval, hu, hs]
    cases t.columnIndex? name with
    | none => exact .left _ _ _
    | some i =>
      have hcolumn : (t.stack u).column i = t.column i ++ u.column i := List.map_append
      simp only [hcolumn]
      exact .ok (.column _ (length_column t i))
  | .wildcard, _ => by
    rw [eval, eval, eval]
    exact .left _ _ _
  | .call name args, ha => by
    rw [containsAggregate, Bool.or_eq_false_iff, Function.isAggregateName] at ha
    rcases hl : Function.lookup name with _ | op | op
    · rw [eval, eval, eval, hl]
      exact .left _ _ _
    · rw [hl] at ha
      cases ha.1
    · rw [eval_scalar hl, eval_scalar hl, eval_scalar hl, Table.size_stack]
      split
      · exact (evalList_stack hf args ha.2).bind fun _ _ _ _ h => h.applyScalar op
      · exact .left _ _ _

theorem evalList_stack (hf : u.fields = t.fields) : ∀ es : List Expr, containsAggregates es = false →
    Both (AllJoined t.size) (evalList t es) (evalList u es) (evalList (t.stack u) es)
  | [], _ => by
    rw [evalList, evalList, evalList]
    exact .ok .nil
  | e :: es, ha => by
    rw [containsAggregates, Bool.or_eq_false_iff] at ha
    rw [evalList, evalList, evalList]
    exact (eval_stack hf e ha.1).bind fun _ _ _ _ hj => (evalList_stack hf es ha.2).bind fun _ _ _ _ hjs =>
      .ok (.cons hj hjs)

end

theorem evalRows_stack (hf : u.fields = t.fields) (ha : e.containsAggregate = false) :
    Both IsAppend (evalRows t e) (evalRows u e) (evalRows (t.stack u) e) := by
  unfold evalRows
  refine (eval_stack hf e ha).bind fun x y z _ hj => .ok ?_
  rw [Table.size_stack]
  exact hj.spread

/-- The values on the rows of a table are those on tables of one row. -/
theorem evalRows_cons_iff (ha : e.containsAggregate = false) (fields : List String) (rows : List Row) :
    ∀ {row : Row} {vs : List Value}, evalRows ⟨fields, row :: rows⟩ e = .ok vs ↔
      List.Forall₂ (fun row v => evalRows ⟨fields, [row]⟩ e = .ok [v]) (row :: rows) vs := by
  induction rows with
  | nil =>
    intro row vs
    rw [List.forall₂_cons_left_iff]
    constructor
    · intro h
      obtain ⟨v, rfl⟩ := List.length_eq_one_iff.1 (length_evalRows h)
      exact ⟨v, [], h, .nil, rfl⟩
    · rintro ⟨v, vs, h, hvs, rfl⟩
      cases hvs
      exact h
  | cons row' rows ih =>
    intro row vs
    have hboth : Both IsAppend (evalRows ⟨fields, [row]⟩ e) (evalRows ⟨fields, row' :: rows⟩ e)
        (evalRows ⟨fields, row :: row' :: rows⟩ e) :=
      evalRows_stack (t := ⟨fields, [row]⟩) rfl ha
    rw [hboth.append_iff, List.forall₂_cons_left_iff]
    constructor
    · rintro ⟨as, bs, hrow, hrows, rfl⟩
      obtain ⟨v, rfl⟩ := List.length_eq_one_iff.1 (length_evalRows hrow)
      exact ⟨v, bs, hrow, ih.1 hrows, rfl⟩
    · rintro ⟨v, bs, hrow, hrows, rfl⟩
      exact ⟨[v], bs, hrow, ih.2 hrows, rfl⟩

/-- So evaluation on a table that has rows is evaluation row by row. -/
theorem evalRows_iff_forall₂ (ha : e.containsAggregate = false) (ht : t.rows ≠ []) {vs : List Value} :
    evalRows t e = .ok vs ↔ List.Forall₂ (fun row v => evalRows ⟨t.fields, [row]⟩ e = .ok [v]) t.rows vs := by
  obtain ⟨row, rows, hrows⟩ := List.exists_cons_of_ne_nil ht
  obtain ⟨fields, _⟩ := t
  cases hrows
  exact evalRows_cons_iff ha fields rows

end Expr

/-! ## Filters -/

theorem keepTrue_append : ∀ {rows : List Row} {mask : List Value}, mask.length = rows.length →
    ∀ (rows' : List Row) (mask' : List Value),
      Both IsAppend (keepTrue rows mask) (keepTrue rows' mask') (keepTrue (rows ++ rows') (mask ++ mask'))
  | [], [], _, rows', mask' => by
    have hnil : keepTrue [] [] = .ok [] := rfl
    rw [hnil, List.nil_append, List.nil_append]
    cases keepTrue rows' mask' with
    | error e => exact .right e e _
    | ok kept => exact .ok rfl
  | row :: rows, v :: mask, hlen, rows', mask' => by
    have ih := keepTrue_append (Nat.succ.inj hlen) rows' mask'
    rw [List.cons_append, List.cons_append, keepTrue, keepTrue]
    cases v.truth with
    | error e => exact .left e e _
    | ok b =>
      simp only [ok_bind]
      rw [← bind_pure (keepTrue rows' mask')]
      refine ih.bind fun kept kept' all _ hall => .ok ?_
      rw [hall]
      split <;> rfl

variable {t u k : Table} {e : Expr}

theorem Table.filterBy_ok_iff : t.filterBy e = .ok k ↔
    k.fields = t.fields ∧ k.WellFormed ∧ (Expr.evalRows t e >>= keepTrue t.rows) = .ok k.rows := by
  have hbind : t.filterBy e = (Expr.evalRows t e >>= keepTrue t.rows) >>= Table.ofRows t.fields := by
    unfold filterBy
    cases Expr.evalRows t e <;> rfl
  rw [hbind]
  constructor
  · intro h
    obtain ⟨rows, hrows, h⟩ := bind_ok h
    obtain ⟨rfl, hk⟩ := Table.ofRows_ok h
    exact ⟨rfl, hk, hrows⟩
  · rintro ⟨hfields, hk, hrows⟩
    obtain ⟨fields, rows⟩ := k
    cases hfields
    rw [hrows]
    exact Table.ofRows_eq hk

/-- What is kept of two tables is what is kept of each. -/
theorem Table.filterBy_stack (ha : e.containsAggregate = false) (hf : u.fields = t.fields) :
    (t.stack u).filterBy e = .ok k ↔ ∃ a b, t.filterBy e = .ok a ∧ u.filterBy e = .ok b ∧ k = a.stack b := by
  have hkept : Both IsAppend (Expr.evalRows t e >>= keepTrue t.rows) (Expr.evalRows u e >>= keepTrue u.rows)
      (Expr.evalRows (t.stack u) e >>= keepTrue (t.stack u).rows) := by
    refine (Expr.evalRows_stack hf ha).bind fun vs ws us hvs hus => ?_
    rw [hus]
    exact keepTrue_append (Expr.length_evalRows hvs) u.rows ws
  simp only [filterBy_ok_iff, hkept.append_iff]
  constructor
  · rintro ⟨hfields, hk, as, bs, has, hbs, hrows⟩
    obtain ⟨fields, rows⟩ := k
    cases hfields
    cases hrows
    obtain ⟨hwa, hwb⟩ := (wellFormed_stack_iff (t := ⟨t.fields, as⟩) (u := ⟨u.fields, bs⟩) hf).1 hk
    exact ⟨⟨t.fields, as⟩, ⟨u.fields, bs⟩, ⟨rfl, hwa, has⟩, ⟨rfl, hwb, hbs⟩, rfl⟩
  · rintro ⟨a, b, ⟨hfa, hwa, hra⟩, ⟨hfb, hwb, hrb⟩, rfl⟩
    have hab : b.fields = a.fields := by rw [hfa, hfb, hf]
    exact ⟨hfa, (wellFormed_stack_iff hab).2 ⟨hwa, hwb⟩, _, _, hra, hrb, rfl⟩

/-- Without aggregates an expression has values on the rows of two tables exactly if it has them on each, first those
of the one and then those of the other. Where there are rows, it has values on them exactly if it has one on each row
alone, and these are the values. And what a filter keeps of the two tables is what it keeps of the one, and below it
what it keeps of the other. -/
theorem Expr.evalRows_local (ha : e.containsAggregate = false) (hf : u.fields = t.fields) :
    (∀ vs, evalRows (t.stack u) e = .ok vs ↔ ∃ as bs, evalRows t e = .ok as ∧ evalRows u e = .ok bs ∧ vs = as ++ bs) ∧
      (t.rows ≠ [] → ∀ vs,
        evalRows t e = .ok vs ↔ List.Forall₂ (fun row v => evalRows ⟨t.fields, [row]⟩ e = .ok [v]) t.rows vs) ∧
      ∀ k, (t.stack u).filterBy e = .ok k ↔ ∃ a b, t.filterBy e = .ok a ∧ u.filterBy e = .ok b ∧ k = a.stack b := by
  refine ⟨fun vs => ?_, fun ht vs => ?_, fun k => ?_⟩
  · exact (evalRows_stack hf ha).append_iff
  · exact evalRows_iff_forall₂ ha ht
  · exact Table.filterBy_stack ha hf

/-! ## An example -/

namespace Sample

def north : Table := ⟨["city", "high"], [[.text "Oslo", .int 4], [.text "Riga", .null]]⟩

def south : Table := ⟨["city", "high"], [[.text "Rome", .int 19]]⟩

/-- `high - 2 * 3 > 0` -/
def warm : Expr := .call ">" [.call "-" [.column "high", .call "*" [.lit (.int 2), .lit (.int 3)]], .lit (.int 0)]

end Sample

open Sample in
/-- The product is computed once, also where there are no rows. -/
theorem Expr.evalRows_local_cities : warm.containsAggregate = false ∧ south.fields = north.fields ∧
    Expr.evalRows (north.stack south) warm = .ok [.bool false, .null, .bool true] ∧
    Expr.evalRows ((Table.empty north.fields).stack south) warm = .ok [.bool true] ∧
    Expr.evalRows ⟨north.fields, [[.text "Riga", .null]]⟩ warm = .ok [.null] ∧
    (north.stack south).filterBy warm = .ok south := by
  have ha : warm.containsAggregate = false := rfl
  have hn : Expr.evalRows north warm = .ok [.bool false, .null] := by decide +kernel
  have hs : Expr.evalRows south warm = .ok [.bool true] := by decide +kernel
  have hnone : Expr.evalRows (.empty north.fields) warm = .ok [] := by decide +kernel
  have hkn : north.filterBy warm = .ok (.empty north.fields) := by decide +kernel
  have hks : south.filterBy warm = .ok south := by decide +kernel
  obtain ⟨hrows, heach, hkept⟩ := Expr.evalRows_local (t := north) (u := south) ha rfl
  obtain ⟨hempty, -, -⟩ := Expr.evalRows_local (t := .empty north.fields) (u := south) ha rfl
  obtain _ | ⟨-, _ | ⟨hriga, -⟩⟩ := (heach (by decide) _).1 hn
  exact ⟨ha, rfl, (hrows _).2 ⟨_, _, hn, hs, rfl⟩, (hempty _).2 ⟨_, _, hnone, hs, rfl⟩, hriga,
    (hkept _).2 ⟨_, _, hkn, hks, rfl⟩⟩

end TableQuery
