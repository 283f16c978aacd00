/-
Counting values once and counting groups. A count of distinct values collects the keys of the values that are not
null, and a partition by one key column opens a group for each key. Both see the same keys, so the values counted
once are as many as the groups without the one of the rows whose key is null. The keys of a column in any order
are the same, and so are both numbers.
-/
import TableQuery.Proofs.Value.Key

namespace TableQuery

/-! ## Repetitions -/

section

variable {κ : Type} [BEq κ] [LawfulBEq κ] {xs ys : List κ}

theorem eraseDups_filter (p : κ → Bool) (xs : List κ) : (xs.filter p).eraseDups = xs.eraseDups.filter p := by
  induction xs using List.reverseRecOn with
  | nil => rfl
  | append_singleton xs x ih =>
    rw [List.filter_append, eraseDups_append_singleton]
    cases hp : p x with
    | false => split <;> simp [hp, ih]
    | true =>
      have hmem : x ∈ xs.filter p ↔ x ∈ xs := by simp [hp]
      rw [List.filter_singleton, hp, cond_true, eraseDups_append_singleton]
      simp only [hmem]
      split <;> simp [hp, ih]

theorem eraseDups_perm (h : xs.Perm ys) : xs.eraseDups.Perm ys.eraseDups := by
  refine (List.perm_ext_iff_of_nodup (nodup_eraseDups xs) (nodup_eraseDups ys)).2 fun x => ?_
  rw [List.mem_eraseDups, List.mem_eraseDups, h.mem_iff]

theorem count_eraseDups (xs : List κ) (x : κ) : xs.eraseDups.count x = if x ∈ xs then 1 else 0 := by
  rw [(nodup_eraseDups xs).count]
  simp only [List.mem_eraseDups]

end

/-! ## Keys of a column -/

namespace Value

theorem isNull_groupKey (v : Value) : v.groupKey.isNull = v.isNull := by
  cases v with
  | float x => obtain ⟨i, -, h⟩ | ⟨-, h⟩ | ⟨-, h⟩ := groupKey_float_cases x <;> simp [h, isNull]
  | _ => rfl

theorem isNull_iff {v : Value} : v.isNull = true ↔ v = .null := by
  cases v <;> simp [isNull]

end Value

namespace Group

variable {t u : Table} {column column' : List Value} {k : Value}

/-- The keys of the values of a column, each where it first occurs. -/
def columnKeys (column : List Value) : List Value := (column.map Value.groupKey).eraseDups

/-- The places of a key in a column. -/
def keyPlaces (column : List Value) (k : Value) : List Nat := placesOf (column.map Value.groupKey) k

theorem mem_keyPlaces_iff {i : Nat} : i ∈ keyPlaces column k ↔ ∃ v, column[i]? = some v ∧ v.groupKey = k := by
  rw [keyPlaces, mem_placesOf_iff, List.getElem?_map, Option.map_eq_some_iff]

theorem mem_columnKeys_iff : k ∈ columnKeys column ↔ ∃ v ∈ column, v.groupKey = k := by
  rw [columnKeys, List.mem_eraseDups, List.mem_map]

theorem null_mem_keys_iff : .null ∈ column.map Value.groupKey ↔ .null ∈ column := by
  rw [List.mem_map]
  constructor
  · rintro ⟨v, hv, hk⟩
    have hnull : v.isNull = true := by rw [← v.isNull_groupKey, hk, Value.isNull]
    rwa [← Value.isNull_iff.1 hnull]
  · intro h
    exact ⟨.null, h, rfl⟩

theorem columnKeys_perm (h : column'.Perm column) : (columnKeys column').Perm (columnKeys column) :=
  eraseDups_perm (h.map _)

/-! ## Groups by one key column -/

theorem placesOf_singletons (keys : List Value) (k : Value) : placesOf (keys.map ([·])) [k] = placesOf keys k := by
  unfold placesOf
  rw [List.length_map]
  refine List.filter_congr fun i _ => ?_
  rw [List.getElem?_map]
  cases keys[i]? <;> simp

/-- The key of a row with one key column is made of its last value. -/
theorem keyOf_last {r : Row} {n : Nat} (h : r.length = n + 1) : keyOf n r = [(r.getD n .null).groupKey] := by
  have hn : n < r.length := by omega
  have hrest : r.drop (n + 1) = [] := List.drop_eq_nil_iff.2 (by omega)
  rw [keyOf, List.drop_eq_getElem_cons hn, hrest, List.getD_eq_getElem _ _ hn]
  rfl

theorem keys_last (ht : t.WellFormed) (hw : 0 < t.width) :
    t.rows.map (keyOf (t.width - 1)) = ((t.column (t.width - 1)).map Value.groupKey).map ([·]) := by
  rw [Table.column, List.map_map, List.map_map]
  refine List.map_congr_left fun r hr => keyOf_last ?_
  rw [ht r hr]
  unfold Table.width at hw ⊢
  omega

/-- There is one group for each key of the column, with the rows at the places of the key. -/
theorem partition_last (ht : t.WellFormed) (hw : 0 < t.width) :
    partition t 1 = .ok (((columnKeys (t.column (t.width - 1))).map (keyPlaces (t.column (t.width - 1)))).map fun p =>
      ⟨t.fields.take (t.width - 1), rowsAt t (t.width - 1) p⟩) := by
  have hkeys : (t.rows.map (keyOf (t.width - 1))).eraseDups = (columnKeys (t.column (t.width - 1))).map ([·]) := by
    rw [keys_last ht hw]
    exact eraseDupsBy_map fun a _ b _ => by simp
  rw [partition_ok ht Nat.one_ne_zero hw, hkeys, List.map_map, List.map_map]
  refine congrArg Except.ok (List.map_congr_left fun k _ => ?_)
  have hplaces : placesOf (t.rows.map (keyOf (t.width - 1))) [k] = keyPlaces (t.column (t.width - 1)) k := by
    rw [keys_last ht hw, placesOf_singletons, keyPlaces]
  simp only [Function.comp]
  rw [← hplaces, rowsAt_placesOf]

/-! ## The group of the nulls -/

/-- Whether no null stands at some places of a column. -/
def isKnown (column : List Value) (places : List Nat) : Bool := places.all fun i => column[i]? != some .null

/-- Only the places of the key of the nulls are places of a null. -/
theorem isKnown_keyPlaces (hk : k ∈ columnKeys column) : isKnown column (keyPlaces column k) = !k.isNull := by
  obtain ⟨v, hv, rfl⟩ := mem_columnKeys_iff.1 hk
  rw [Value.isNull_groupKey, Bool.eq_iff_iff, isKnown, List.all_eq_true, Bool.not_eq_true', ← Bool.not_eq_true,
    Value.isNull_iff]
  constructor
  · rintro hall rfl
    obtain ⟨i, hi⟩ := List.mem_iff_getElem?.1 hv
    have := hall i (mem_keyPlaces_iff.2 ⟨_, hi, rfl⟩)
    simp [hi] at this
  · intro hne i hi
    obtain ⟨w, hw, hkey⟩ := mem_keyPlaces_iff.1 hi
    have hnull : w.isNull = v.isNull := by rw [← w.isNull_groupKey, hkey, v.isNull_groupKey]
    rw [hw, bne_iff_ne]
    rintro heq
    cases heq
    exact hne (Value.isNull_iff.1 hnull.symm)

/-- The groups without nulls are those of the keys that are not null. -/
theorem countP_isKnown (column : List Value) :
    ((columnKeys column).map (keyPlaces column)).countP (isKnown column) = (columnKeys column).countP (!·.isNull) := by
  rw [List.countP_map]
  refine List.countP_congr fun k hk => ?_
  rw [Function.comp, isKnown_keyPlaces hk]

/-- All keys but the one of the nulls, if there is one. -/
theorem length_columnKeys (column : List Value) :
    (columnKeys column).length = (columnKeys column).countP (!·.isNull) + if .null ∈ column then 1 else 0 := by
  have hnull : (columnKeys column).countP (fun k => ¬(!k.isNull) = true) = (columnKeys column).count .null := by
    rw [List.count]
    refine List.countP_congr fun k _ => ?_
    simp [Value.isNull_iff]
  have hcount : (columnKeys column).count .null = if .null ∈ column then 1 else 0 := by
    rw [columnKeys, count_eraseDups]
    simp only [null_mem_keys_iff]
  rw [List.length_eq_countP_add_countP (!·.isNull), hnull, hcount]

end Group

/-! ## Values counted once -/

namespace Aggregate

variable {t : Table} {column : List Value}

/-- The values counted once are the keys that are not null. -/
theorem countDistinct_eq_countP (column : List Value) :
    countDistinct.reduce column = .ok (.int (Int64.ofNat ((Group.columnKeys column).countP (!·.isNull)))) := by
  have hpresent : (column.filter (!·.isNull)).map Value.groupKey =
      (column.map Value.groupKey).filter (!·.isNull) := by
    rw [List.filter_map]
    refine congrArg _ (List.filter_congr fun v _ => ?_)
    rw [Function.comp, v.isNull_groupKey]
  rw [reduce, hpresent, eraseDups_filter, ← List.countP_eq_length_filter]
  rfl

/-- The values of a column counted once are as many as the groups that the column forms as the only key, without the
one of the rows with a null; and the rows in another order make no difference to either number. -/
theorem countDistinct_groups (ht : t.WellFormed) (hw : 0 < t.width) (hc : t.column (t.width - 1) = column) :
    ∃ parts, Group.Divides (column.map Value.groupKey) parts ∧
      Group.partition t 1 =
        .ok (parts.map fun p => ⟨t.fields.take (t.width - 1), Group.rowsAt t (t.width - 1) p⟩) ∧
      countDistinct.reduce column = .ok (.int (Int64.ofNat (parts.countP (Group.isKnown column)))) ∧
      parts.length = parts.countP (Group.isKnown column) + (if .null ∈ column then 1 else 0) ∧
      ∀ u : Table, u.fields = t.fields → u.rows.Perm t.rows →
        countDistinct.reduce (u.column (t.width - 1)) = countDistinct.reduce column ∧
          ∃ groups, Group.partition u 1 = .ok groups ∧ groups.length = parts.length := by
  subst hc
  refine ⟨_, Group.divides_placesOf _, Group.partition_last ht hw, ?_, ?_, fun u hf hr => ?_⟩
  · rw [countDistinct_eq_countP, ← Group.countP_isKnown]
    rfl
  · have hlength := Group.length_columnKeys (t.column (t.width - 1))
    rw [← Group.countP_isKnown] at hlength
    rwa [List.length_map]
  · have hcolumn : (u.column (t.width - 1)).Perm (t.column (t.width - 1)) := hr.map _
    have hkeys := Group.columnKeys_perm hcolumn
    have hwidth : u.width = t.width := by rw [Table.width, hf, Table.width]
    have hu : u.WellFormed := by
      intro r hmem
      rw [hf]
      exact ht r (hr.mem_iff.1 hmem)
    constructor
    · rw [countDistinct_eq_countP, countDistinct_eq_countP, hkeys.countP_eq]
    · refine ⟨_, Group.partition_last hu (hwidth ▸ hw), ?_⟩
      rw [hwidth, List.length_map, List.length_map, List.length_map]
      exact hkeys.length_eq

end Aggregate

/-! ## An example -/

namespace Sample

/-- Both zeros, both NaNs, and one as an integer and as a float; of two days nothing is known. -/
def readings : Table := ⟨["day", "level"],
  [[.text "mon", .float .negZero], [.text "tue", .null], [.text "wed", .float (.nan true)], [.text "thu", .int 0],
    [.text "fri", .int 1], [.text "sat", .float (.nan false)], [.text "sun", .float (.ofInt 1)], [.text "mon", .null]]⟩

end Sample

open Sample in
/-- Three levels are counted, and four groups formed. -/
theorem Aggregate.countDistinct_groups_readings :
    readings.WellFormed ∧ 0 < readings.width ∧
      (∃ parts, Group.Divides ((readings.column 1).map Value.groupKey) parts ∧
        Group.partition readings 1 = .ok (parts.map fun p => ⟨["day"], Group.rowsAt readings 1 p⟩) ∧
        parts.length = 4 ∧ parts.countP (Group.isKnown (readings.column 1)) = 3) ∧
      countDistinct.reduce (readings.column 1) = .ok (.int 3) ∧
      countDistinct.reduce (readings.rows.reverse.map (·.getD 1 .null)) = .ok (.int 3) := by
  have hw : readings.WellFormed := by decide
  have hc : readings.column (readings.width - 1) = readings.column 1 := rfl
  obtain ⟨parts, hparts, hgroups, -, hlength, horder⟩ := countDistinct_groups hw (by decide) hc
  have hthree : countDistinct.reduce (readings.column 1) = .ok (.int 3) := by decide +kernel
  have hgroups' : Group.partition readings 1 =
      .ok [⟨["day"], [[.text "mon"], [.text "thu"]]⟩, ⟨["day"], [[.text "tue"], [.text "mon"]]⟩,
        ⟨["day"], [[.text "wed"], [.text "sat"]]⟩, ⟨["day"], [[.text "fri"], [.text "sun"]]⟩] := by decide +kernel
  have hfour : parts.length = 4 := by
    have := hgroups.symm.trans hgroups'
    simpa using congrArg List.length (Except.ok.inj this)
  have hnull : (.null : Value) ∈ readings.column 1 := by decide
  rw [if_pos hnull] at hlength
  refine ⟨hw, by decide, ⟨parts, hparts, hgroups, hfour, by omega⟩, hthree, ?_⟩
  exact (horder ⟨readings.fields, readings.rows.reverse⟩ rfl (List.reverse_perm _)).1.trans hthree

end TableQuery
