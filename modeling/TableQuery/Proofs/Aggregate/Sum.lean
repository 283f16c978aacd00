/-
Sums of integers. The values of a column are added up in the order of its rows, and the sum of every beginning has to
be an integer; then the sum is exact, and else it overflows where this fails first. So another order of the rows can
lose a sum or find one. It cannot if the whole sum is no integer, or if all positive values and all negative values
have sums of their own.
-/
import TableQuery.Aggregate
import TableQuery.Proofs.Except
import TableQuery.Proofs.Order.Keys
import TableQuery.Proofs.Value.Arithmetic
import Mathlib.Algebra.BigOperators.Group.List.Basic
import Mathlib.Algebra.Order.BigOperators.Group.List
import Mathlib.Algebra.Order.Ring.Int

namespace TableQuery.Aggregate

open Integer (Fits)

/-! ## Specification -/

/-- The integers of a column in the order of its rows. -/
def integers (column : List Value) : List Int64 :=
  column.filterMap fun
    | .int i => some i
    | _ => none

def exactSum (is : List Int64) : Int := (is.map Int64.toInt).sum

/-- The sum of every beginning is an integer. -/
def Accumulates (is : List Int64) : Prop := ∀ ys, ys <+: is → Fits (exactSum ys)

/-- The sum of integers that are added one by one: exact if they accumulate, and else the overflow of the first
addition that leaves the integers. -/
structure SumsUp (is : List Int64) (result : Except Error Value) : Prop where
  exact : Accumulates is → ∃ s : Int64, s.toInt = exactSum is ∧ result = .ok (.int s)
  overflow : ¬Accumulates is → ∃ (ys : List Int64) (s x : Int64), ys ++ [x] <+: is ∧ Accumulates ys ∧
    s.toInt = exactSum ys ∧ ¬Fits (s.toInt + x.toInt) ∧ result = .error (.invalidArgument (.overflow .add s x))

/-! ## Exact sums -/

section

variable {is js ys zs : List Int64}

@[simp] theorem exactSum_nil : exactSum [] = 0 := rfl

@[simp] theorem exactSum_cons (i : Int64) (is : List Int64) : exactSum (i :: is) = i.toInt + exactSum is := by
  simp [exactSum]

@[simp] theorem exactSum_append (is js : List Int64) : exactSum (is ++ js) = exactSum is + exactSum js := by
  simp [exactSum]

theorem exactSum_perm (h : is.Perm js) : exactSum is = exactSum js := (h.map Int64.toInt).sum_eq

theorem exactSum_nonneg (h : ∀ i ∈ is, 0 ≤ i.toInt) : 0 ≤ exactSum is := List.sum_nonneg (by simpa using h)

theorem exactSum_nonpos (h : ∀ i ∈ is, i.toInt ≤ 0) : exactSum is ≤ 0 := by
  have hle := List.sum_le_card_nsmul (is.map Int64.toInt) 0 (by simpa using h)
  rwa [nsmul_zero] at hle

theorem exactSum_filter (p : Int64 → Prop) [DecidablePred p] (is : List Int64) :
    exactSum (is.filter p) + exactSum (is.filter (¬p ·)) = exactSum is :=
  List.sum_map_filter_add_sum_map_filter_not p Int64.toInt is

/-- What a filter takes from all values, it takes from some of them and from the others. -/
theorem exactSum_filter_perm (p : Int64 → Prop) [DecidablePred p] (h : (ys ++ zs).Perm is) :
    exactSum (is.filter p) + exactSum (ys.filter (¬p ·)) = exactSum ys + exactSum (zs.filter p) := by
  have hall := exactSum_perm (h.filter p)
  rw [List.filter_append, exactSum_append] at hall
  have hsplit := exactSum_filter p ys
  omega

/-- No values have a greater sum than all positive ones. -/
theorem exactSum_le_positive (h : (ys ++ zs).Perm is) : exactSum ys ≤ exactSum (is.filter (0 < ·.toInt)) := by
  have hfilter := exactSum_filter_perm (0 < ·.toInt) h
  have hrest : exactSum (ys.filter (¬0 < ·.toInt)) ≤ 0 := by
    refine exactSum_nonpos fun i hi => ?_
    simpa using (List.mem_filter.1 hi).2
  have hothers : 0 ≤ exactSum (zs.filter (0 < ·.toInt)) := by
    refine exactSum_nonneg fun i hi => ?_
    exact Int.le_of_lt (by simpa using (List.mem_filter.1 hi).2)
  omega

theorem negative_le_exactSum (h : (ys ++ zs).Perm is) : exactSum (is.filter (·.toInt < 0)) ≤ exactSum ys := by
  have hfilter := exactSum_filter_perm (·.toInt < 0) h
  have hrest : 0 ≤ exactSum (ys.filter (¬·.toInt < 0)) := by
    refine exactSum_nonneg fun i hi => ?_
    simpa using (List.mem_filter.1 hi).2
  have hothers : exactSum (zs.filter (·.toInt < 0)) ≤ 0 := by
    refine exactSum_nonpos fun i hi => ?_
    exact Int.le_of_lt (by simpa using (List.mem_filter.1 hi).2)
  omega

end

/-! ## Orders in which values accumulate -/

section

variable {is js ys : List Int64} {n : Int}

theorem accumulates_nil : Accumulates [] := by
  intro ys hys
  rw [List.prefix_nil.1 hys]
  exact Integer.fits_toInt 0

theorem Accumulates.fits (h : Accumulates is) : Fits (exactSum is) := h is (List.prefix_refl is)

/-- A sum is kept among the integers by a value of the opposite sign, and where there is none it only approaches the
whole sum. -/
theorem exists_next (hn : Fits n) (ht : Fits (n + exactSum is)) (hne : is ≠ []) : ∃ x ∈ is, Fits (n + x.toInt) := by
  simp only [Integer.fits_iff] at hn ht ⊢
  by_cases hopposite : ∃ x ∈ is, (0 ≤ n ∧ x.toInt ≤ 0) ∨ (n < 0 ∧ 0 ≤ x.toInt)
  · obtain ⟨x, hx, hsign⟩ := hopposite
    have hfx := Integer.fits_iff.1 (Integer.fits_toInt x)
    exact ⟨x, hx, by omega⟩
  · have hsame : ∀ x ∈ is, (n < 0 ∧ x.toInt < 0) ∨ (0 ≤ n ∧ 0 < x.toInt) := by
      intro x hx
      by_contra hnot
      exact hopposite ⟨x, hx, by omega⟩
    obtain ⟨x, is, rfl⟩ := List.exists_cons_of_ne_nil hne
    obtain ⟨hx, his⟩ := List.forall_mem_cons.1 hsame
    refine ⟨x, List.mem_cons_self .., ?_⟩
    rw [exactSum_cons] at ht
    rcases hx with ⟨hneg, hx⟩ | ⟨hpos, hx⟩
    · have hle : exactSum is ≤ 0 := exactSum_nonpos fun i hi => by have := his i hi; omega
      omega
    · have hge : 0 ≤ exactSum is := exactSum_nonneg fun i hi => by have := his i hi; omega
      omega

theorem exists_order (hn : Fits n) (ht : Fits (n + exactSum is)) :
    ∃ js, js.Perm is ∧ ∀ ys, ys <+: js → Fits (n + exactSum ys) := by
  -- as long as values are left one of them can be next
  induction hlen : is.length generalizing n is with
  | zero =>
    refine ⟨is, .refl is, ?_⟩
    rw [List.length_eq_zero_iff.1 hlen]
    intro ys hys
    rw [List.prefix_nil.1 hys, exactSum_nil, Int.add_zero]
    exact hn
  | succ k ih =>
    obtain ⟨x, hx, hfits⟩ := exists_next hn ht (List.ne_nil_of_length_eq_add_one hlen)
    have hperm := List.perm_cons_erase hx
    have hsum : exactSum is = x.toInt + exactSum (is.erase x) := exactSum_perm hperm
    have hlen' : (is.erase x).length = k := by
      rw [List.length_erase_of_mem hx, hlen]
      rfl
    obtain ⟨js, hjs, hfrom⟩ := ih hfits (by rwa [Int.add_assoc, ← hsum]) hlen'
    refine ⟨x :: js, (hjs.cons x).trans hperm.symm, ?_⟩
    intro ys hys
    rcases List.prefix_cons_iff.1 hys with rfl | ⟨zs, rfl, hzs⟩
    · rw [exactSum_nil, Int.add_zero]
      exact hn
    · rw [exactSum_cons, ← Int.add_assoc]
      exact hfrom zs hzs

/-- Values whose sum is an integer accumulate in some order. -/
theorem exists_accumulates (h : Fits (exactSum is)) : ∃ js, js.Perm is ∧ Accumulates js := by
  obtain ⟨js, hjs, hfrom⟩ := exists_order (Integer.fits_toInt 0) (by simpa using h)
  exact ⟨js, hjs, by simpa [Accumulates] using hfrom⟩

theorem accumulates_of_signs (hpos : Fits (exactSum (is.filter (0 < ·.toInt))))
    (hneg : Fits (exactSum (is.filter (·.toInt < 0)))) (h : js.Perm is) : Accumulates js := by
  rintro ys ⟨zs, rfl⟩
  have hle := exactSum_le_positive h
  have hge := negative_le_exactSum h
  rw [Integer.fits_iff] at hpos hneg ⊢
  omega

/-- Values accumulate in every order or in none if and only if their sum is no integer, or both the positive and the
negative ones have a sum. -/
theorem accumulates_perm_iff : (∀ js, js.Perm is → (Accumulates js ↔ Accumulates is)) ↔
    ¬Fits (exactSum is) ∨ (Fits (exactSum (is.filter (0 < ·.toInt))) ∧ Fits (exactSum (is.filter (·.toInt < 0)))) := by
  constructor
  · intro h
    by_cases ht : Fits (exactSum is)
    · obtain ⟨js, hjs, hacc⟩ := exists_accumulates ht
      have hevery : ∀ js, js.Perm is → Accumulates js := fun js' hjs' => (h js' hjs').2 ((h js hjs).1 hacc)
      -- the values that are picked out may come first
      have hfirst : ∀ p : Int64 → Bool, Fits (exactSum (is.filter p)) := fun p =>
        hevery _ (List.filter_append_perm p is) _ (List.prefix_append ..)
      exact .inr ⟨hfirst _, hfirst _⟩
    · exact .inl ht
  · rintro (ht | ⟨hpos, hneg⟩) js hjs
    · refine iff_of_false (fun hacc => ht ?_) fun hacc => ht hacc.fits
      rw [← exactSum_perm hjs]
      exact hacc.fits
    · exact iff_of_true (accumulates_of_signs hpos hneg hjs) (accumulates_of_signs hpos hneg (.refl is))

end

/-! ## Adding up -/

section

variable {before is : List Int64} {s x : Int64} {vs : List Value}

theorem total_of_exact {r : Int64} (h : r.toInt = s.toInt + x.toInt) :
    total (.int s) (.int x :: vs) = total (.int r) vs := by
  have hadd : (Value.int s).arith .add (.int x) = .ok (.int r) := ((Value.arith_reports (by simp)).value r).2 h
  simp [total, hadd, Value.isNull]

theorem total_of_overflow (h : ¬Fits (s.toInt + x.toInt)) :
    total (.int s) (.int x :: vs) = .error (.invalidArgument (.overflow .add s x)) := by
  have hadd : (Value.int s).arith .add (.int x) = .error (.invalidArgument (.overflow .add s x)) :=
    (Value.arith_reports (by simp)).overflow.2 ⟨_, rfl, h⟩
  simp [total, hadd, Value.isNull]

theorem exactSum_concat : exactSum (before ++ [x]) = exactSum before + x.toInt := by
  simp [exactSum]

theorem accumulates_concat_iff :
    Accumulates (before ++ [x]) ↔ Accumulates before ∧ Fits (exactSum before + x.toInt) := by
  rw [← exactSum_concat]
  constructor
  · intro h
    exact ⟨fun ys hys => h ys (hys.trans (List.prefix_append ..)), h.fits⟩
  · rintro ⟨h, hlast⟩ ys hys
    rcases List.prefix_concat_iff.1 hys with rfl | hys
    · exact hlast
    · exact h ys hys

/-- Values are added to the sum of those before them. -/
theorem sumsUp_total (hs : s.toInt = exactSum before) (hb : Accumulates before) :
    SumsUp (before ++ is) (total (.int s) (is.map .int)) := by
  induction is generalizing before s with
  | nil =>
    rw [List.append_nil]
    exact ⟨fun _ => ⟨s, hs, rfl⟩, fun h => absurd hb h⟩
  | cons x is ih =>
    rw [List.map_cons]
    by_cases hfits : Fits (s.toInt + x.toInt)
    · obtain ⟨r, hr⟩ := Integer.fits_iff_exists.1 hfits
      rw [total_of_exact hr, List.append_cons]
      refine ih ?_ ?_
      · rw [hr, hs, exactSum_concat]
      · rw [accumulates_concat_iff, ← hs]
        exact ⟨hb, hfits⟩
    · rw [total_of_overflow hfits]
      have hfirst : before ++ [x] <+: before ++ x :: is := by simp
      refine ⟨fun h => absurd (h _ hfirst) ?_, fun _ => ⟨before, s, x, hfirst, hb, hs, hfits, rfl⟩⟩
      rwa [exactSum_concat, ← hs]

end

/-! ## Orders of rows -/

theorem SumsUp.toOption_eq_iff {is js : List Int64} {r r' : Except Error Value} (h : SumsUp is r) (h' : SumsUp js r')
    (hp : js.Perm is) : r'.toOption = r.toOption ↔ (Accumulates js ↔ Accumulates is) := by
  by_cases hi : Accumulates is
  · obtain ⟨s, hs, rfl⟩ := h.exact hi
    by_cases hj : Accumulates js
    · obtain ⟨s', hs', rfl⟩ := h'.exact hj
      have : s' = s := by rw [← Int64.toInt_inj, hs', hs, exactSum_perm hp]
      simp [hi, hj, this]
    · obtain ⟨-, s', x', -, -, -, -, rfl⟩ := h'.overflow hj
      simp [hi, hj, Except.toOption]
  · obtain ⟨-, s, x, -, -, -, -, rfl⟩ := h.overflow hi
    by_cases hj : Accumulates js
    · obtain ⟨s', hs', rfl⟩ := h'.exact hj
      simp [hi, hj, Except.toOption]
    · obtain ⟨-, s', x', -, -, -, -, rfl⟩ := h'.overflow hj
      simp [hi, hj, Except.toOption]

/-- A sum of integers passes the check that it is a number. -/
theorem SumsUp.checked {is : List Int64} {r : Except Error Value} (h : SumsUp is r) :
    SumsUp is do
      let s ← r
      if s.isNull || s.toDouble?.isSome then return s
      else .error (.typeMismatch (.sum s.kind)) where
  exact ha := by
    obtain ⟨s, hs, rfl⟩ := h.exact ha
    exact ⟨s, hs, rfl⟩
  overflow ha := by
    obtain ⟨ys, s, x, hys, hacc, hs, hnot, rfl⟩ := h.overflow ha
    exact ⟨ys, s, x, hys, hacc, hs, hnot, rfl⟩

section

variable {column : List Value} {js : List Int64}

theorem present_eq (h : ∀ v ∈ column, v = .null ∨ v.kind = .int) :
    column.filter (!·.isNull) = (integers column).map .int := by
  induction column with
  | nil => rfl
  | cons v column ih =>
    obtain ⟨hv, hrest⟩ := List.forall_mem_cons.1 h
    have ih := ih hrest
    cases v <;> simp_all [integers, Value.kind, Value.isNull]

theorem sumsUp_reduce (h : ∀ v ∈ column, v = .null ∨ v.kind = .int) (hn : ∃ v ∈ column, v ≠ .null) :
    SumsUp (integers column) (sum.reduce column) := by
  have hpresent := present_eq h
  cases hints : integers column with
  | nil =>
    obtain ⟨v, hv, hne⟩ := hn
    have hmem := Order.mem_present_iff.2 ⟨hv, hne⟩
    simp [hpresent, hints] at hmem
  | cons x is =>
    have hfirst : Accumulates ([] ++ [x]) := by
      rw [accumulates_concat_iff]
      exact ⟨accumulates_nil, by simpa [exactSum] using Integer.fits_toInt x⟩
    have htotal : SumsUp ([x] ++ is) (total (.int x) (is.map .int)) := sumsUp_total (by simp [exactSum]) hfirst
    have hreduce : sum.reduce column = (do
        let s ← total (.int x) (is.map .int)
        if s.isNull || s.toDouble?.isSome then return s
        else .error (.typeMismatch (.sum s.kind))) := by
      rw [reduce, hpresent, hints]
      rfl
    rw [hreduce]
    exact htotal.checked

theorem integers_of_isNull (h : ∀ v ∈ column, v.isNull = true) : integers column = [] := by
  refine List.filterMap_eq_nil_iff.2 fun v hv => ?_
  have := h v hv
  cases v <;> simp [Value.isNull] at this ⊢

theorem exists_column (h : ∀ v ∈ column, v = .null ∨ v.kind = .int) (hjs : js.Perm (integers column)) :
    ∃ column', column'.Perm column ∧ integers column' = js := by
  refine ⟨js.map Value.int ++ column.filter fun v => !!v.isNull, ?_, ?_⟩
  · refine .trans ((hjs.map Value.int).append_right _) ?_
    rw [← present_eq h]
    exact List.filter_append_perm _ column
  · have hnulls : integers (column.filter fun v => !!v.isNull) = [] := by
      refine integers_of_isNull fun v hv => ?_
      simpa using (List.mem_filter.1 hv).2
    have hints : integers (js.map Value.int) = js := by
      rw [integers, List.filterMap_map]
      exact List.filterMap_some
    rw [integers, List.filterMap_append]
    change integers (js.map Value.int) ++ integers (column.filter fun v => !!v.isNull) = js
    rw [hints, hnulls, List.append_nil]

/-- A column of integers sums up in the order of its rows, and the order makes no difference if and only if the whole
sum is no integer, or both the positive and the negative values have a sum. -/
theorem reduce_sum_integers (h : ∀ v ∈ column, v = .null ∨ v.kind = .int) (hn : ∃ v ∈ column, v ≠ .null) :
    SumsUp (integers column) (sum.reduce column) ∧
      ((∀ column', column'.Perm column → (sum.reduce column').toOption = (sum.reduce column).toOption) ↔
        ¬Fits (exactSum (integers column)) ∨
          (Fits (exactSum ((integers column).filter (0 < ·.toInt))) ∧
            Fits (exactSum ((integers column).filter (·.toInt < 0))))) := by
  have hsum := sumsUp_reduce h hn
  refine ⟨hsum, ?_⟩
  have hstep : ∀ column', column'.Perm column →
      ((sum.reduce column').toOption = (sum.reduce column).toOption ↔
        (Accumulates (integers column') ↔ Accumulates (integers column))) := by
    intro column' hp
    have h' : ∀ v ∈ column', v = .null ∨ v.kind = .int := fun v hv => h v (hp.mem_iff.1 hv)
    obtain ⟨v, hv, hne⟩ := hn
    exact hsum.toOption_eq_iff (sumsUp_reduce h' ⟨v, hp.mem_iff.2 hv, hne⟩) (hp.filterMap _)
  rw [← accumulates_perm_iff]
  constructor
  · intro hall js hjs
    obtain ⟨column', hp, rfl⟩ := exists_column h hjs
    exact (hstep column' hp).1 (hall column' hp)
  · intro hall column' hp
    exact (hstep column' hp).2 (hall _ (hp.filterMap _))

end

/-- The first addition overflows, though the sum is the greatest integer. -/
def bookings : List Value := [.int Int64.maxValue, .int 1, .int (-1)]

theorem reduce_sum_integers_bookings :
    (∀ v ∈ bookings, v = .null ∨ v.kind = .int) ∧ (∃ v ∈ bookings, v ≠ .null) ∧
      SumsUp (integers bookings) (sum.reduce bookings) ∧
      ¬∀ column', column'.Perm bookings → (sum.reduce column').toOption = (sum.reduce bookings).toOption := by
  have h : ∀ v ∈ bookings, v = .null ∨ v.kind = .int := by decide
  have hn : ∃ v ∈ bookings, v ≠ .null := by decide
  obtain ⟨hsum, horder⟩ := reduce_sum_integers h hn
  refine ⟨h, hn, hsum, ?_⟩
  rw [horder]
  decide

/-- A column whose sum is an integer may still have none. -/
theorem not_reduce_sum_exact : ¬∀ column : List Value, (∀ v ∈ column, v = .null ∨ v.kind = .int) →
    (∃ v ∈ column, v ≠ .null) → Fits (exactSum (integers column)) →
      ∃ s : Int64, s.toInt = exactSum (integers column) ∧ sum.reduce column = .ok (.int s) := by
  intro h
  obtain ⟨s, -, hs⟩ := h bookings (by decide) (by decide) (by decide)
  have hoverflow : sum.reduce bookings = .error (.invalidArgument (.overflow .add Int64.maxValue 1)) := by rfl
  cases hoverflow.symm.trans hs

end TableQuery.Aggregate
