/-
The keys of groups and the order of values. A group collects the rows whose keys are the same in a canonical
form, in which a whole number has no kind and no sign at zero, and in which there is one NaN. Two values have the
same form if and only if they compare as equal, except for the numbers that the order tells apart by their bits
or mistakes by rounding; and without these the groups of rows, and the values counted once, are those that
the equality of the query language makes.
-/
import TableQuery.Aggregate
import TableQuery.Scalar
import TableQuery.Proofs.Group
import TableQuery.Proofs.Number.Integer
import TableQuery.Proofs.Value.Order

namespace TableQuery

/-! ## Elements that repeat earlier ones -/

section

variable {α β : Type} {r : β → β → Bool} {r' : α → α → Bool} {f : α → β}

theorem eraseDupsBy_loop_map : ∀ {xs acc : List α}, (∀ a ∈ xs ++ acc, ∀ b ∈ xs ++ acc, r (f a) (f b) = r' a b) →
    List.eraseDupsBy.loop r (xs.map f) (acc.map f) = (List.eraseDupsBy.loop r' xs acc).map f
  | [], acc, _ => by
    rw [List.map_nil, List.eraseDupsBy.loop, List.eraseDupsBy.loop, List.map_reverse]
  | x :: xs, acc, h => by
    have hany : (acc.map f).any (r (f x)) = acc.any (r' x) := by
      rw [Bool.eq_iff_iff, List.any_map, List.any_eq_true, List.any_eq_true]
      refine exists_congr fun a => and_congr_right fun ha => ?_
      rw [Function.comp, h x (by simp) a (by simp [ha])]
    rw [List.map_cons, List.eraseDupsBy.loop, List.eraseDupsBy.loop, hany]
    split
    · exact eraseDupsBy_loop_map fun a ha b hb => h a (List.mem_cons_of_mem _ ha) b (List.mem_cons_of_mem _ hb)
    · rw [← List.map_cons]
      refine eraseDupsBy_loop_map fun a ha b hb => h a ?_ b ?_
      · simpa [or_left_comm] using ha
      · simpa [or_left_comm] using hb

/-- Images repeat earlier ones where the elements do. -/
theorem eraseDupsBy_map {xs : List α} (h : ∀ a ∈ xs, ∀ b ∈ xs, r (f a) (f b) = r' a b) :
    (xs.map f).eraseDupsBy r = (xs.eraseDupsBy r').map f := by
  rw [← List.append_nil xs] at h
  exact eraseDupsBy_loop_map h

theorem eraseDupsBy_loop_subset : ∀ xs acc : List α, List.eraseDupsBy.loop r' xs acc ⊆ xs ++ acc
  | [], acc => by simp [List.eraseDupsBy.loop]
  | x :: xs, acc => by
    rw [List.eraseDupsBy.loop]
    split
    · exact List.Subset.trans (eraseDupsBy_loop_subset xs acc) (List.subset_cons_self ..)
    · refine List.Subset.trans (eraseDupsBy_loop_subset xs (x :: acc)) fun a ha => ?_
      simpa [or_left_comm] using ha

theorem eraseDupsBy_subset (xs : List α) : xs.eraseDupsBy r' ⊆ xs := by
  have hsub : List.eraseDupsBy.loop r' xs [] ⊆ xs ++ [] := eraseDupsBy_loop_subset xs []
  rwa [List.append_nil] at hsub

end

namespace Value

variable {a b : Value} {i : Int64} {x y : Double}

/-! ## Canonical numbers -/

/-- A float and an integer have the same key if the float is this integer exactly. -/
theorem groupKey_float_eq_int_iff : (float x).groupKey = int i ↔ x.Is i.toInt := by
  rw [groupKey]
  by_cases hr : x.isWhole = true ∧ (Integer.ofInt? x.truncate).isSome = true
  · rw [if_pos (by simpa using hr)]
    obtain ⟨k, hk⟩ := Integer.ofInt?_isSome_iff.1 hr.2
    rw [← hk, Int64.ofInt_toInt, Value.int.injEq]
    refine ⟨fun h => ⟨hr.1, by rw [← hk, h]⟩, fun h => Int64.toInt_inj.1 (hk.trans h.2)⟩
  · rw [if_neg (by simpa using hr)]
    have hnot : ¬x.Is i.toInt := fun h => hr ⟨h.1, Integer.ofInt?_isSome_iff.2 ⟨i, h.2.symm⟩⟩
    split <;> simp [hnot]

/-- The key of a float is an integer, the one NaN, or the float itself. -/
theorem groupKey_float_cases (x : Double) :
    (∃ i : Int64, x.Is i.toInt ∧ (float x).groupKey = int i) ∨
      (x.isNaN = true ∧ (float x).groupKey = float (.nan false)) ∨
      (x.isNaN = false ∧ (float x).groupKey = float x) := by
  by_cases hi : ∃ i : Int64, (float x).groupKey = int i
  · obtain ⟨i, hi⟩ := hi
    exact .inl ⟨i, groupKey_float_eq_int_iff.1 hi, hi⟩
  · right
    rw [groupKey] at hi ⊢
    split at hi
    · exact absurd ⟨_, rfl⟩ hi
    · rename_i h
      rw [if_neg h]
      cases hn : x.isNaN <;> simp

theorem groupKey_of_isNaN (h : x.isNaN = true) : (float x).groupKey = float (.nan false) := by
  obtain ⟨i, hi, -⟩ | ⟨-, hk⟩ | ⟨hn, -⟩ := groupKey_float_cases x
  · have := hi.1
    unfold Double.isNaN Double.isWhole Double.isFinite at *
    simp at this h
    omega
  · exact hk
  · rw [h] at hn
    cases hn

/-- Two floats that are the same integer are the same float, or two zeros. -/
theorem eq_or_isZero_of_is {k : Int} (hx : x.Is k) (hy : y.Is k) :
    x = y ∨ (x.isZero = true ∧ y.isZero = true) := by
  have hneg : Double.negZero.truncate = 0 := by decide
  by_cases hxz : x = .negZero
  · by_cases hyz : y = .negZero
    · exact .inl (hxz.trans hyz.symm)
    · have hk : k = 0 := by rw [← hx.2, hxz, hneg]
      have hy0 : y = .ofInt 0 := by rw [← Double.ofInt_truncate hy.1 hyz, hy.2, hk]
      exact .inr ⟨Double.isZero_iff.2 (.inr hxz), hy0 ▸ by decide⟩
  · by_cases hyz : y = .negZero
    · have hk : k = 0 := by rw [← hy.2, hyz, hneg]
      have hx0 : x = .ofInt 0 := by rw [← Double.ofInt_truncate hx.1 hxz, hx.2, hk]
      exact .inr ⟨hx0 ▸ by decide, Double.isZero_iff.2 (.inr hyz)⟩
    · left
      rw [← Double.ofInt_truncate hx.1 hxz, ← Double.ofInt_truncate hy.1 hyz, hx.2, hy.2]

/-- Two floats have the same key if they have the same bits, or are both zero or both NaNs. -/
theorem groupKey_float_eq_float_iff : (float x).groupKey = (float y).groupKey ↔
    x = y ∨ (x.isZero = true ∧ y.isZero = true) ∨ (x.isNaN = true ∧ y.isNaN = true) := by
  constructor
  · intro h
    obtain ⟨i, hx, hkx⟩ | ⟨hx, hkx⟩ | ⟨hx, hkx⟩ := groupKey_float_cases x
    · obtain hxy | hzero := eq_or_isZero_of_is hx (groupKey_float_eq_int_iff.1 (h.symm.trans hkx))
      · exact .inl hxy
      · exact .inr (.inl hzero)
    · obtain ⟨i, -, hky⟩ | ⟨hy, -⟩ | ⟨hy, hky⟩ := groupKey_float_cases y
      · cases hkx.symm.trans (h.trans hky)
      · exact .inr (.inr ⟨hx, hy⟩)
      · cases hkx.symm.trans (h.trans hky)
        exact absurd hy (by decide)
    · obtain ⟨i, -, hky⟩ | ⟨hy, hky⟩ | ⟨hy, hky⟩ := groupKey_float_cases y
      · cases hkx.symm.trans (h.trans hky)
      · cases hkx.symm.trans (h.trans hky)
        exact absurd hx (by decide)
      · cases hkx.symm.trans (h.trans hky)
        exact .inl rfl
  · rintro (rfl | ⟨hx, hy⟩ | ⟨hx, hy⟩)
    · rfl
    · have hzero : ∀ z : Double, z.isZero = true → (float z).groupKey = int 0 := by
        intro z hz
        obtain rfl | rfl := Double.isZero_iff.1 hz <;> decide +kernel
      rw [hzero x hx, hzero y hy]
    · rw [groupKey_of_isNaN hx, groupKey_of_isNaN hy]

/-! ## Keys and the order -/

/-- The numbers of which the keys and the order disagree: floats of different bits that are both zero or both NaNs, the
integer zero beside the zero of negative sign, and an integer beside another number that it is rounded to. -/
def Disputed (a b : Value) : Prop :=
  match a, b with
  | float x, float y => x ≠ y ∧ ((x.isZero = true ∧ y.isZero = true) ∨ (x.isNaN = true ∧ y.isNaN = true))
  | int i, float x | float x, int i => (i = 0 ∧ x = .negZero) ∨ (Double.ofInt i.toInt = x ∧ ¬x.Is i.toInt)
  | _, _ => False

instance (x : Double) (i : Int) : Decidable (x.Is i) := inferInstanceAs (Decidable (_ ∧ _))

instance (a b : Value) : Decidable (Disputed a b) :=
  match a, b with
  | float x, float y => inferInstanceAs (Decidable (x ≠ y ∧ _))
  | int _, float _ | float _, int _ => inferInstanceAs (Decidable (_ ∨ _))
  | null, _ | bool _, _ | text _, _ => .isFalse id
  | int _, null | int _, bool _ | int _, int _ | int _, text _ => .isFalse id
  | float _, null | float _, bool _ | float _, text _ => .isFalse id

/-- An integer and a float are the same number where rounding the integer gives the float, but for the disputed ones. -/
theorem is_iff_ofInt_eq_iff : (x.Is i.toInt ↔ Double.ofInt i.toInt = x) ↔ ¬Disputed (int i) (float x) := by
  constructor
  · rintro h (⟨rfl, rfl⟩ | ⟨hx, hnot⟩)
    · exact absurd (h.1 ⟨by decide, by decide⟩) (by decide)
    · exact hnot (h.2 hx)
  · intro h
    refine ⟨fun hx => ?_, fun hx => by_contra fun hnot => h (.inr ⟨hx, hnot⟩)⟩
    have hne : x ≠ .negZero := by
      rintro rfl
      have hi : i = 0 := Int64.toInt_inj.1 (hx.2.symm.trans (by decide))
      exact h (.inl ⟨hi, rfl⟩)
    rw [← hx.2, Double.ofInt_truncate hx.1 hne]

theorem compare_int_float_eq_iff : (int i).compare (float x) = .ok .eq ↔ Double.ofInt i.toInt = x := by
  simp [compare, toDouble?, Double.totalCompare_eq_iff]

theorem compare_float_float_eq_iff : (float x).compare (float y) = .ok .eq ↔ x = y := by
  simp [compare, toDouble?, Double.totalCompare_eq_iff]

/-- Values of which none is a float are their own keys, and compare as equal only if they are the same. -/
theorem compare_eq_iff_of_not_float (ha : a.kind ≠ .float) (hb : b.kind ≠ .float) :
    a.compare b = .ok .eq ↔ a.groupKey = b.groupKey := by
  cases a <;> cases b <;> simp [kind, compare, toDouble?, groupKey] at ha hb ⊢
  exact Int64.toInt_inj

/-- The key of a float is a number. -/
theorem toDouble?_groupKey_float (x : Double) : ((float x).groupKey.toDouble?).isSome = true := by
  obtain ⟨i, -, h⟩ | ⟨-, h⟩ | ⟨-, h⟩ := groupKey_float_cases x <;> simp [h, toDouble?]

/-- A float has neither the key of a value that is no number nor the same place in the order. -/
theorem not_groupKey_eq_of_not_number (hb : b.toDouble? = none) :
    (float x).groupKey ≠ b.groupKey ∧ (float x).compare b ≠ .ok .eq := by
  have hnum := toDouble?_groupKey_float x
  have hkey : b.groupKey = b := by cases b <;> simp [toDouble?, groupKey] at hb ⊢
  refine ⟨fun h => ?_, ?_⟩
  · rw [h, hkey, hb] at hnum
    cases hnum
  · cases b <;> simp [toDouble?, compare] at hb ⊢

/-- Whether keys and the order agree on two values, which does not depend on which one comes first. -/
def KeysAgree (a b : Value) : Prop := a.groupKey = b.groupKey ↔ a.compare b = .ok .eq

theorem KeysAgree.comm : KeysAgree a b ↔ KeysAgree b a := by
  unfold KeysAgree
  rw [eq_comm, compare_swap_iff]
  rfl

theorem disputed_comm : Disputed a b ↔ Disputed b a := by
  cases a <;> cases b <;> simp only [Disputed]
  constructor <;> exact fun h => ⟨h.1.symm, h.2.imp And.symm And.symm⟩

theorem keysAgree_float_iff (x : Double) (b : Value) : KeysAgree (float x) b ↔ ¬Disputed (float x) b := by
  cases b with
  | float y =>
    unfold KeysAgree
    rw [groupKey_float_eq_float_iff, compare_float_float_eq_iff]
    unfold Disputed
    tauto
  | int i =>
    unfold KeysAgree
    rw [disputed_comm, ← is_iff_ofInt_eq_iff, ← compare_int_float_eq_iff, compare_swap_iff,
      ← groupKey_float_eq_int_iff]
    rfl
  | _ =>
    refine iff_of_true (iff_of_false ?_ ?_) id
    · exact (not_groupKey_eq_of_not_number rfl).1
    · exact (not_groupKey_eq_of_not_number rfl).2

/-- Keys agree with the order on all values but the disputed ones. -/
theorem keysAgree_iff (a b : Value) : KeysAgree a b ↔ ¬Disputed a b := by
  by_cases ha : a.kind = .float
  · cases a <;> cases ha
    exact keysAgree_float_iff _ b
  · by_cases hb : b.kind = .float
    · cases b <;> cases hb
      rw [KeysAgree.comm, disputed_comm]
      exact keysAgree_float_iff _ a
    · have hnone : ¬Disputed a b := by
        cases a <;> cases b <;> simp [kind, Disputed] at ha hb ⊢
      exact iff_of_true (compare_eq_iff_of_not_float ha hb).symm hnone

/-! ## Equality of keys -/

/-- Whether the query language calls two keys equal, or both are null. -/
def sameKey (a b : Value) : Bool :=
  match Scalar.applyRelation .eq a b with
  | .ok (bool same) => same
  | .ok _ => a.isNull && b.isNull
  | .error _ => false

theorem sameKey_iff : sameKey a b = true ↔ a.compare b = .ok .eq := by
  unfold sameKey Scalar.applyRelation
  cases ha : a.isNull <;> cases hb : b.isNull
  · cases a.compare b <;> simp [Relation.holds, Ordering.isEq_iff_eq_eq]
  · cases b <;> cases hb
    cases a <;> simp [isNull, compare] at ha ⊢
  · cases a <;> cases ha
    cases b <;> simp [isNull, compare] at hb ⊢
  · cases a <;> cases ha
    cases b <;> cases hb
    simp [compare]

theorem groupKey_beq (h : ¬Disputed a b) : (a.groupKey == b.groupKey) = sameKey a b := by
  rw [Bool.eq_iff_iff, beq_iff_eq, sameKey_iff]
  exact (keysAgree_iff a b).2 h

theorem map_groupKey_beq : ∀ {xs ys : List Value}, xs.length = ys.length → (∀ p ∈ xs.zip ys, ¬Disputed p.1 p.2) →
    (xs.map groupKey == ys.map groupKey) = (xs.zip ys).all fun p => sameKey p.1 p.2
  | [], [], _, _ => rfl
  | x :: xs, y :: ys, hlen, h => by
    have hrest := map_groupKey_beq (Nat.succ.inj hlen) fun p hp => h p (List.mem_cons_of_mem _ hp)
    rw [List.map_cons, List.map_cons, List.cons_beq_cons, groupKey_beq (h (x, y) (List.mem_cons_self ..)), hrest]
    rfl

end Value

/-! ## Groups of rows -/

namespace Group

/-- Whether two rows have equal keys in the columns from `split` on. -/
def sameKeys (split : Nat) (r s : Row) : Bool :=
  ((r.drop split).zip (s.drop split)).all fun p => p.1.sameKey p.2

variable {t : Table} {split n : Nat}

/-- No two rows have disputed keys in one of the columns from `split` on. -/
def Undisputed (split : Nat) (rows : List Row) : Prop :=
  ∀ r ∈ rows, ∀ s ∈ rows, ∀ p ∈ (r.drop split).zip (s.drop split), ¬Value.Disputed p.1 p.2

instance (split : Nat) (rows : List Row) : Decidable (Undisputed split rows) :=
  inferInstanceAs (Decidable (∀ r ∈ rows, ∀ s ∈ rows, ∀ p ∈ (r.drop split).zip (s.drop split), _))

theorem keyOf_beq (ht : t.WellFormed) (hu : Undisputed split t.rows) {r s : Row} (hr : r ∈ t.rows) (hs : s ∈ t.rows) :
    (keyOf split r == keyOf split s) = sameKeys split r s := by
  refine Value.map_groupKey_beq ?_ (hu r hr s hs)
  rw [List.length_drop, List.length_drop, ht r hr, ht s hs]

/-- Without disputed keys the groups are the rows of equal keys, one group for each row that does not have the
keys of an earlier row. -/
theorem partition_eq_of_undisputed (ht : t.WellFormed) (hn : 0 < n) (hw : n ≤ t.width)
    (hu : Undisputed (t.width - n) t.rows) :
    partition t n = .ok ((t.rows.eraseDupsBy (sameKeys (t.width - n))).map fun r =>
      ⟨t.fields.take (t.width - n),
        (t.rows.filter (sameKeys (t.width - n) · r)).map (·.take (t.width - n))⟩) := by
  have hkeys : (t.rows.map (keyOf (t.width - n))).eraseDups =
      (t.rows.eraseDupsBy (sameKeys (t.width - n))).map (keyOf (t.width - n)) :=
    eraseDupsBy_map fun r hr s hs => keyOf_beq ht hu hr hs
  have hgroup : ∀ r ∈ t.rows, t.rows.filter (keyOf (t.width - n) · == keyOf (t.width - n) r) =
      t.rows.filter (sameKeys (t.width - n) · r) := by
    intro r hr
    exact List.filter_congr fun s hs => keyOf_beq ht hu hs hr
  rw [partition_ok ht (Nat.ne_of_gt hn) hw, hkeys, List.map_map]
  refine congrArg Except.ok (List.map_congr_left fun r hr => ?_)
  rw [Function.comp, hgroup r (eraseDupsBy_subset _ hr)]

end Group

/-- Without disputed values the values counted once are those that are not equal to an earlier one. -/
theorem Aggregate.countDistinct_eq {column : List Value}
    (hu : ∀ a ∈ column, ∀ b ∈ column, ¬Value.Disputed a b) :
    countDistinct.reduce column =
      .ok (.int (Int64.ofNat ((column.filter (!·.isNull)).eraseDupsBy Value.sameKey).length)) := by
  have hkeys : ((column.filter (!·.isNull)).map Value.groupKey).eraseDups =
      ((column.filter (!·.isNull)).eraseDupsBy Value.sameKey).map Value.groupKey := by
    refine eraseDupsBy_map fun a ha b hb => Value.groupKey_beq ?_
    exact hu a (List.mem_filter.1 ha).1 b (List.mem_filter.1 hb).1
  rw [reduce, hkeys, List.length_map]

/-- Keys agree with the order, up to disputed values; and where no values are disputed, the groups of rows and the
values counted once are those of the equality of values. -/
theorem groupKey_compare_iff (a b : Value) (t : Table) (n : Nat) (column : List Value) :
    ((a.groupKey = b.groupKey ↔ a.compare b = .ok .eq) ↔ ¬Value.Disputed a b) ∧
      (t.WellFormed → 0 < n → n ≤ t.width → Group.Undisputed (t.width - n) t.rows →
        Group.partition t n = .ok ((t.rows.eraseDupsBy (Group.sameKeys (t.width - n))).map fun r =>
          ⟨t.fields.take (t.width - n),
            (t.rows.filter (Group.sameKeys (t.width - n) · r)).map (·.take (t.width - n))⟩)) ∧
      ((∀ v ∈ column, ∀ w ∈ column, ¬Value.Disputed v w) →
        Aggregate.countDistinct.reduce column =
          .ok (.int (Int64.ofNat ((column.filter (!·.isNull)).eraseDupsBy Value.sameKey).length))) :=
  ⟨Value.keysAgree_iff a b, Group.partition_eq_of_undisputed, Aggregate.countDistinct_eq⟩

/-- Rows of which one has the integer 1 and one the float 1 as key are in one group, and so are rows without a key. -/
theorem groupKey_compare_mixed :
    Group.partition ⟨["name", "k"], [[.text "a", .int 1], [.text "b", .null], [.text "c", .float (.ofInt 1)],
        [.text "d", .null]]⟩ 1 =
      .ok [⟨["name"], [[.text "a"], [.text "c"]]⟩, ⟨["name"], [[.text "b"], [.text "d"]]⟩] ∧
      Aggregate.countDistinct.reduce [.int 1, .null, .float (.ofInt 1), .null] = .ok (.int 1) := by
  obtain ⟨-, hgroups, hcount⟩ := groupKey_compare_iff (.int 1) (.float (.ofInt 1))
    ⟨["name", "k"], [[.text "a", .int 1], [.text "b", .null], [.text "c", .float (.ofInt 1)], [.text "d", .null]]⟩ 1
    [.int 1, .null, .float (.ofInt 1), .null]
  constructor
  · refine (hgroups (by decide) (by decide) (by decide) (by decide +kernel)).trans ?_
    exact congrArg Except.ok (by decide +kernel)
  · refine (hcount (by decide +kernel)).trans ?_
    exact congrArg Except.ok (by decide +kernel)

/-- The two zeros have one key, but the order tells them apart. -/
theorem not_groupKey_iff_compare :
    ¬∀ a b : Value, a.groupKey = b.groupKey ↔ a.compare b = .ok .eq := by
  intro h
  have hkeys : (Value.float .zero).groupKey = (Value.float .negZero).groupKey := by decide +kernel
  have heq : Double.zero = Double.negZero := Value.compare_float_float_eq_iff.1 ((h _ _).1 hkeys)
  revert heq
  decide

end TableQuery
