/-
The order of keys. In a column whose values other than null are of one class any two values compare, and if
it does not hold both integers and floats, comparing is transitive. Lists of keys from such columns are in
lexicographic order, each key in its direction, and no two of them are taken as equal because they do not compare.
-/
import TableQuery.Proofs.Except
import TableQuery.Proofs.Value.Order

namespace TableQuery

/-! ## Specification -/

/-- The first value comes strictly before the second one; ascending, null is before all others, and descending
behind them. -/
def Direction.Before : Direction → Value → Value → Prop
  | asc, a, b => a.compare b = .ok .lt
  | desc, a, b => a.compare b = .ok .gt

theorem Direction.null_before (v : Value) :
    (asc.Before .null v ↔ v ≠ .null) ∧ (desc.Before v .null ↔ v ≠ .null) := by
  cases v <;> simp [Before, Value.compare]

namespace Order

/-- The lexicographic order of keys: at the first place where they are not equal, the first one comes before the
second one in the direction of this place. -/
inductive Precedes : List Direction → List Value → List Value → Prop
  | here {d ds x xs y ys} (h : d.Before x y) : Precedes (d :: ds) (x :: xs) (y :: ys)
  | later {d ds x xs y ys} (he : x.compare y = .ok .eq) (h : Precedes ds xs ys) : Precedes (d :: ds) (x :: xs) (y :: ys)

/-- All keys are equal. -/
def Ties (xs ys : List Value) : Prop := List.Forall₂ (fun x y => x.compare y = .ok .eq) xs ys

/-- The values other than null are of one class. -/
def Comparable (vs : List Value) : Prop := ∀ a ∈ vs, ∀ b ∈ vs, a ≠ .null → b ≠ .null → sameClass a b = true

/-- The values are not both integers and floats. -/
def Unmixed (vs : List Value) : Prop := ∀ a ∈ vs, ∀ b ∈ vs, a.kind = .int → b.kind ≠ .float

instance (vs : List Value) : Decidable (Comparable vs) := inferInstanceAs (Decidable (∀ a ∈ vs, ∀ b ∈ vs, _))

instance (vs : List Value) : Decidable (Unmixed vs) := inferInstanceAs (Decidable (∀ a ∈ vs, ∀ b ∈ vs, _))

/-! ## Columns -/

section

variable {c : List Value} {d : Direction} {u v w : Value} {o : Ordering}

theorem sameClass_self (h : v ≠ .null) : sameClass v v = true := by
  cases v <;> simp [sameClass] at h ⊢

theorem sameClass_comm (u v : Value) : sameClass u v = sameClass v u := by
  cases u <;> cases v <;> rfl

theorem sameClass_of_first (hu : sameClass w u = true) (hv : sameClass w v = true) : sameClass u v = true := by
  cases w <;> cases u <;> simp [sameClass] at hu <;> cases v <;> simp [sameClass] at hv ⊢

/-! ### Values that are present -/

theorem mem_present_iff : v ∈ c.filter (!·.isNull) ↔ v ∈ c ∧ v ≠ .null := by
  rw [List.mem_filter]
  cases v <;> simp [Value.isNull]

theorem comparable_of_absent (h : c.filter (!·.isNull) = []) : Comparable c := by
  intro a ha b _ hna
  have := mem_present_iff.2 ⟨ha, hna⟩
  simp [h] at this

/-- The class of a column is that of its first value other than null. -/
theorem comparable_iff_first {first : Value} {rest : List Value} (h : c.filter (!·.isNull) = first :: rest) :
    Comparable c ↔ ∀ v ∈ rest, sameClass first v = true := by
  have hfirst := mem_present_iff.1 (h ▸ List.mem_cons_self .. : first ∈ c.filter (!·.isNull))
  constructor
  · intro hc v hv
    have hpresent := mem_present_iff.1 (h ▸ List.mem_cons_of_mem first hv : v ∈ c.filter (!·.isNull))
    exact hc first hfirst.1 v hpresent.1 hfirst.2 hpresent.2
  · intro hrest
    have hall : ∀ a ∈ c, a ≠ .null → sameClass first a = true := by
      intro a ha hna
      rcases List.mem_cons.1 (h ▸ mem_present_iff.2 ⟨ha, hna⟩) with rfl | ha
      · exact sameClass_self hna
      · exact hrest a ha
    intro a ha b hb hna hnb
    exact sameClass_of_first (hall a ha hna) (hall b hb hnb)

/-- A column is checked by its first value other than null. -/
theorem checkComparable_eq_ok_iff : checkComparable c = .ok () ↔ Comparable c := by
  unfold checkComparable
  cases hc : c.filter (!·.isNull) with
  | nil => simp [comparable_of_absent hc]
  | cons first rest =>
    rw [comparable_iff_first hc]
    cases hf : rest.find? (!sameClass first ·) with
    | some bad =>
      have hbad := List.find?_some hf
      refine iff_of_false (by simp [hf]) fun h => ?_
      rw [h bad (List.mem_of_find?_eq_some hf)] at hbad
      cases hbad
    | none =>
      refine iff_of_true (by simp [hf]) ?_
      simpa using List.find?_eq_none.1 hf

/-- In a column that passes the check any two values compare. -/
theorem Comparable.exists_compare (h : Comparable c) (hu : u ∈ c) (hv : v ∈ c) : ∃ o, u.compare v = .ok o := by
  rw [Value.exists_compare_iff]
  by_cases hnu : u = .null
  · exact .inl hnu
  · by_cases hnv : v = .null
    · exact .inr (.inl hnv)
    · exact .inr (.inr (h u hu v hv hnu hnv))

theorem Unmixed.not_blurred (h : Unmixed c) (hu : u ∈ c) (hv : v ∈ c) : ¬Value.Blurred u v w := by
  rintro ⟨i, k, x, rfl, rfl, -⟩
  exact h _ hu _ hv rfl rfl

/-! ## One key -/

/-- How two values are ordered by a key. -/
def direct (d : Direction) (u v : Value) : Ordering :=
  Direction.apply d (match u.compare v with
    | .ok o => o
    | .error _ => .eq)

theorem direct_of_compare (h : u.compare v = .ok o) : direct d u v = Direction.apply d o := by rw [direct, h]

theorem direct_swap (d : Direction) (u v : Value) : direct d v u = (direct d u v).swap := by
  cases h : u.compare v with
  | ok o =>
    rw [direct_of_compare h, direct_of_compare (Value.compare_swap h)]
    cases d <;> simp [Direction.apply]
  | error e =>
    cases h' : v.compare u with
    | ok o => cases h.symm.trans (Value.compare_swap h')
    | error e' =>
      unfold direct
      rw [h, h']
      cases d <;> rfl

theorem isLE_direct_iff (h : ∃ o, u.compare v = .ok o) :
    (direct d u v).isLE = true ↔ match d with
      | .asc => u.NotAfter v
      | .desc => v.NotAfter u := by
  obtain ⟨o, h⟩ := h
  have h' := Value.compare_swap h
  rw [direct_of_compare h]
  cases d <;> cases o <;> simp [Direction.apply, Value.NotAfter, h, h']

theorem direct_eq_lt_iff (h : ∃ o, u.compare v = .ok o) : direct d u v = .lt ↔ d.Before u v := by
  obtain ⟨o, h⟩ := h
  rw [direct_of_compare h]
  cases d <;> cases o <;> simp [Direction.apply, Direction.Before, h]

theorem direct_eq_eq_iff (h : ∃ o, u.compare v = .ok o) : direct d u v = .eq ↔ u.compare v = .ok .eq := by
  obtain ⟨o, h⟩ := h
  rw [direct_of_compare h]
  cases d <;> cases o <;> simp [Direction.apply, h]

/-- A column by which rows can be sorted: its values compare, and in a transitive way. -/
structure Sortable (c : List Value) : Prop where
  comparable : Comparable c
  unmixed : Unmixed c

theorem Sortable.direct_trans (h : Sortable c) (hu : u ∈ c) (hv : v ∈ c) (hw : w ∈ c)
    (huv : (direct d u v).isLE = true) (hvw : (direct d v w).isLE = true) : (direct d u w).isLE = true := by
  rw [isLE_direct_iff (h.comparable.exists_compare hu hv)] at huv
  rw [isLE_direct_iff (h.comparable.exists_compare hv hw)] at hvw
  rw [isLE_direct_iff (h.comparable.exists_compare hu hw)]
  cases d with
  | asc => exact Value.notAfter_trans (h.unmixed.not_blurred hu hv) huv hvw
  | desc => exact Value.notAfter_trans (h.unmixed.not_blurred hw hv) hvw huv

end

/-! ## Lists of keys -/

section

variable {ds : List Direction} {cs : List (List Value)} {xs ys zs : List Value}

theorem compareKeys_cons (d : Direction) (ds : List Direction) (x y : Value) (xs ys : List Value) :
    compareKeys (d :: ds) (x :: xs) (y :: ys) = (direct d x y).then (compareKeys ds xs ys) := rfl

theorem compareKeys_swap : ∀ (ds : List Direction) (xs ys : List Value),
    compareKeys ds ys xs = (compareKeys ds xs ys).swap
  | [], _, _ => by simp [compareKeys]
  | _ :: _, [], [] | _ :: _, [], _ :: _ | _ :: _, _ :: _, [] => by simp [compareKeys]
  | d :: ds, x :: xs, y :: ys => by
    rw [compareKeys_cons, compareKeys_cons, direct_swap, compareKeys_swap ds, Ordering.swap_then]

/-- Keys whose values are from these columns, one from each. -/
def InColumns (cs : List (List Value)) (xs : List Value) : Prop := List.Forall₂ (· ∈ ·) xs cs

theorem compareKeys_trans (hcs : ∀ c ∈ cs, Sortable c) (hx : InColumns cs xs) (hy : InColumns cs ys)
    (hz : InColumns cs zs) (hxy : (compareKeys ds xs ys).isLE = true) (hyz : (compareKeys ds ys zs).isLE = true) :
    (compareKeys ds xs zs).isLE = true := by
  induction cs generalizing ds xs ys zs with
  | nil =>
    cases hx
    cases hy
    cases hz
    cases ds <;> rfl
  | cons c cs ih =>
    obtain _ | ⟨hxc, hx⟩ := hx
    obtain _ | ⟨hyc, hy⟩ := hy
    obtain _ | ⟨hzc, hz⟩ := hz
    rename_i x xs y ys z zs
    have hc := hcs c (List.mem_cons_self ..)
    cases ds with
    | nil => rfl
    | cons d ds =>
      rw [compareKeys_cons, Ordering.isLE_then_iff_and] at hxy hyz ⊢
      refine ⟨hc.direct_trans hxc hyc hzc hxy.1 hyz.1, ?_⟩
      by_cases hxz : direct d x z = .lt
      · exact .inl hxz
      · right
        -- the first keys are equal, as the last one of them is not behind the first one
        have hzx : (direct d z x).isLE = true := by
          rw [direct_swap]
          cases h : direct d x z <;> simp [h] at hxz ⊢
        have hyx := hc.direct_trans hyc hzc hxc hyz.1 hzx
        have hzy := hc.direct_trans hzc hxc hyc hzx hxy.1
        rw [direct_swap] at hyx hzy
        refine ih (fun c' hc' => hcs c' (List.mem_cons_of_mem _ hc')) hx hy hz (hxy.2.resolve_left fun h => ?_)
          (hyz.2.resolve_left fun h => ?_)
        · rw [h] at hyx
          cases hyx
        · rw [h] at hzy
          cases hzy

theorem compareKeys_eq_lt_iff (hcs : ∀ c ∈ cs, Comparable c) (hx : InColumns cs xs) (hy : InColumns cs ys) :
    compareKeys ds xs ys = .lt ↔ Precedes ds xs ys := by
  induction cs generalizing ds xs ys with
  | nil =>
    cases hx
    cases hy
    refine iff_of_false ?_ (by rintro ⟨⟩)
    cases ds <;> simp [compareKeys]
  | cons c cs ih =>
    obtain _ | ⟨hxc, hx⟩ := hx
    obtain _ | ⟨hyc, hy⟩ := hy
    rename_i x xs y ys
    have hcompare := (hcs c (List.mem_cons_self ..)).exists_compare hxc hyc
    have hrest : ∀ ds, compareKeys ds xs ys = .lt ↔ Precedes ds xs ys := fun ds =>
      ih (fun c' hc' => hcs c' (List.mem_cons_of_mem _ hc')) hx hy
    cases ds with
    | nil => exact iff_of_false (by simp [compareKeys]) (by rintro ⟨⟩)
    | cons d ds =>
      rw [compareKeys_cons, Ordering.then_eq_lt, direct_eq_lt_iff hcompare, direct_eq_eq_iff hcompare, hrest]
      constructor
      · rintro (h | ⟨he, h⟩)
        · exact .here h
        · exact .later he h
      · rintro (h | ⟨he, h⟩)
        · exact .inl h
        · exact .inr ⟨he, h⟩

theorem ties_of_compareKeys (hd : ds.length = cs.length) (hcs : ∀ c ∈ cs, Comparable c) (hx : InColumns cs xs)
    (hy : InColumns cs ys) (h : compareKeys ds xs ys = .eq) : Ties xs ys := by
  induction cs generalizing ds xs ys with
  | nil =>
    cases hx
    cases hy
    exact .nil
  | cons c cs ih =>
    obtain _ | ⟨hxc, hx⟩ := hx
    obtain _ | ⟨hyc, hy⟩ := hy
    have hcompare := (hcs c (List.mem_cons_self ..)).exists_compare hxc hyc
    cases ds with
    | nil => cases hd
    | cons d ds =>
      rw [compareKeys_cons, Ordering.then_eq_eq, direct_eq_eq_iff hcompare] at h
      exact .cons h.1 (ih (Nat.succ.inj hd) (fun c' hc' => hcs c' (List.mem_cons_of_mem _ hc')) hx hy h.2)

end

end Order

end TableQuery
