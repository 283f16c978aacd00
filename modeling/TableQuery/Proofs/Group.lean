/-
Groups. The rows of a table are read once, and each is put into the bucket of its key, which an index finds; a new
key gets a new bucket behind the others. After any number of rows the buckets are those of the keys read, in the
order of their first occurrence, and each holds the rows of its key in the order in which they were read. So the
groups of a table divide its rows: every row stands in one group and once, with the rows of the same key, the
rows of a group are in order, and the groups are in the order of their first rows.
-/
import TableQuery.Group
import TableQuery.Proofs.FirstOccurrence
import TableQuery.Proofs.Table.Shape
import Mathlib.Data.List.Induction
import Mathlib.Data.List.Nodup

namespace TableQuery

theorem getElem?_append_singleton {α : Type} {xs : List α} {x y : α} {i : Nat} :
    (xs ++ [x])[i]? = some y ↔ xs[i]? = some y ∨ (i = xs.length ∧ x = y) := by
  rcases Nat.lt_trichotomy i xs.length with h | h | h
  · rw [List.getElem?_append_left h]
    simp [Nat.ne_of_lt h]
  · subst h
    simp
  · have hlen : (xs ++ [x]).length ≤ i := by
      rw [List.length_append, List.length_singleton]
      omega
    rw [List.getElem?_eq_none hlen, List.getElem?_eq_none (Nat.le_of_lt h)]
    simp [Nat.ne_of_gt h]

namespace Group

/-! ## One pass -/

/-- The keys of rows, each where it first occurs. -/
def keysOf (keyed : List (List Value × Row)) : List (List Value) := (keyed.map (·.1)).eraseDups

/-- The rows of a key. -/
def rowsOf (keyed : List (List Value × Row)) (key : List Value) : List Row :=
  (keyed.filter (·.1 == key)).map (·.2)

namespace Buckets

variable {b : Buckets} {keyed : List (List Value × Row)} {key : List Value} {row : Row} {slot : Nat}

/-- The buckets are those of the rows read: the index finds the place of each key, and there are its rows. -/
structure Holds (b : Buckets) (keyed : List (List Value × Row)) : Prop where
  index : ∀ key slot, b.index.lookup key = some slot ↔ (keysOf keyed)[slot]? = some key
  rows : b.rows = (keysOf keyed).map (rowsOf keyed)

theorem holds_empty : Holds empty [] where
  index key slot := by simp [empty, keysOf]
  rows := rfl

theorem add_known (h : b.index.lookup key = some slot) :
    b.add key row = { b with rows := b.rows.modify slot (· ++ [row]) } := by
  unfold add place
  rw [h]

theorem add_new (h : b.index.lookup key = none) :
    b.add key row = ⟨(key, b.rows.length) :: b.index, b.rows ++ [[row]]⟩ := by
  unfold add place
  rw [h]
  simp [List.modify_eq_set_getElem?]

theorem rowsOf_append_self (keyed : List (List Value × Row)) (key : List Value) (row : Row) :
    rowsOf (keyed ++ [(key, row)]) key = rowsOf keyed key ++ [row] := by
  simp [rowsOf]

theorem rowsOf_append_of_ne {k : List Value} (h : key ≠ k) : rowsOf (keyed ++ [(key, row)]) k = rowsOf keyed k := by
  simp [rowsOf, h]

theorem rowsOf_of_not_mem (h : key ∉ keysOf keyed) : rowsOf keyed key = [] := by
  unfold rowsOf
  rw [List.map_eq_nil_iff, List.filter_eq_nil_iff]
  intro r hr hk
  rw [beq_iff_eq] at hk
  exact h (List.mem_eraseDups.2 (hk ▸ List.mem_map_of_mem hr))

theorem keysOf_append (keyed : List (List Value × Row)) (key : List Value) (row : Row) :
    keysOf (keyed ++ [(key, row)]) = if key ∈ keysOf keyed then keysOf keyed else keysOf keyed ++ [key] := by
  unfold keysOf
  rw [List.map_append, List.map_singleton]
  rw [eraseDups_append_singleton]
  simp only [List.mem_eraseDups]

/-- A key is known where it was read before. -/
theorem Holds.lookup_eq_none (h : b.Holds keyed) (hn : b.index.lookup key = none) : key ∉ keysOf keyed := by
  intro hk
  obtain ⟨slot, hs⟩ := List.mem_iff_getElem?.1 hk
  cases hn.symm.trans ((h.index key slot).2 hs)

/-- One more row. -/
theorem Holds.add (h : b.Holds keyed) (key : List Value) (row : Row) :
    (b.add key row).Holds (keyed ++ [(key, row)]) := by
  cases hl : b.index.lookup key with
  | some slot =>
    have hs := (h.index key slot).1 hl
    obtain ⟨hlt, hget⟩ := List.getElem?_eq_some_iff.1 hs
    have hkeys : keysOf (keyed ++ [(key, row)]) = keysOf keyed := by
      rw [keysOf_append, if_pos (List.mem_of_getElem? hs)]
    rw [add_known hl]
    constructor
    · rw [hkeys]
      exact h.index
    · rw [hkeys, h.rows]
      refine List.ext_getElem (by simp) fun i h1 h2 => ?_
      rw [List.getElem_modify]
      simp only [List.getElem_map]
      split
      · rename_i hi
        subst hi
        rw [hget, rowsOf_append_self]
      · rename_i hi
        -- the keys are pairwise different, so at another place there is another key
        refine (rowsOf_append_of_ne fun hk => hi ?_).symm
        have hnodup : (keysOf keyed).Nodup := nodup_eraseDups _
        exact hnodup.getElem_inj_iff.1 (hget.trans hk)
  | none =>
    have hnew := h.lookup_eq_none hl
    have hkeys : keysOf (keyed ++ [(key, row)]) = keysOf keyed ++ [key] := by
      rw [keysOf_append, if_neg hnew]
    have hlen : b.rows.length = (keysOf keyed).length := by rw [h.rows, List.length_map]
    rw [add_new hl]
    constructor
    · intro k slot
      rw [hkeys, hlen, List.lookup_cons, getElem?_append_singleton]
      by_cases hk : k = key
      · subst hk
        have hnot : (keysOf keyed)[slot]? ≠ some k := fun hs => hnew (List.mem_of_getElem? hs)
        simp [hnot, eq_comm]
      · rw [beq_false_of_ne hk]
        simp [h.index, Ne.symm hk]
    · rw [hkeys, h.rows, List.map_append, List.map_singleton, rowsOf_append_self, rowsOf_of_not_mem hnew]
      have hold : (keysOf keyed).map (rowsOf (keyed ++ [(key, row)])) = (keysOf keyed).map (rowsOf keyed) := by
        refine List.map_congr_left fun k hk => rowsOf_append_of_ne ?_
        rintro rfl
        exact hnew hk
      rw [hold]
      rfl

/-- All rows. -/
theorem holds_ofKeyed (keyed : List (List Value × Row)) : (ofKeyed keyed).Holds keyed := by
  induction keyed using List.reverseRecOn with
  | nil => exact holds_empty
  | append_singleton keyed r ih =>
    unfold ofKeyed at ih ⊢
    rw [List.foldl_append]
    exact ih.add r.1 r.2

end Buckets

/-! ## Groups of a table -/

variable {t : Table} {n : Nat}

/-- The groups of a table are its rows, cut to the columns before the keys, of one key each. -/
theorem partition_eq (hn : n ≠ 0) (hw : n ≤ t.width) :
    partition t n = (keysOf (t.rows.map fun r => (keyOf (t.width - n) r, r.take (t.width - n)))).mapM fun key =>
      Table.ofRows (t.fields.take (t.width - n))
        (rowsOf (t.rows.map fun r => (keyOf (t.width - n) r, r.take (t.width - n))) key) := by
  unfold partition
  rw [if_neg hn, if_neg (Nat.not_lt.2 hw)]
  simp only
  rw [(Buckets.holds_ofKeyed _).rows, List.mapM_map]
  rfl

theorem rowsOf_keyed (split : Nat) (key : List Value) :
    rowsOf (t.rows.map fun r => (keyOf split r, r.take split)) key =
      (t.rows.filter (keyOf split · == key)).map (·.take split) := by
  unfold rowsOf
  rw [List.filter_map, List.map_map]
  rfl

/-- The rows of a well-formed table have the columns before the keys. -/
theorem partition_ok (ht : t.WellFormed) (hn : n ≠ 0) (hw : n ≤ t.width) :
    partition t n = .ok ((t.rows.map (keyOf (t.width - n))).eraseDups.map fun key =>
      ⟨t.fields.take (t.width - n), (t.rows.filter (keyOf (t.width - n) · == key)).map (·.take (t.width - n))⟩) := by
  rw [partition_eq hn hw, keysOf, List.map_map]
  refine mapM_eq_ok fun key _ => ?_
  rw [rowsOf_keyed]
  refine Table.ofRows_eq fun row hrow => ?_
  obtain ⟨r, hr, rfl⟩ := List.mem_map.1 hrow
  rw [List.length_take, List.length_take, ht r (List.mem_filter.1 hr).1]

/-! ## Places of keys -/

section

variable {κ : Type} [BEq κ] [LawfulBEq κ] {keys : List κ} {k : κ} {i : Nat}

/-- A division of the places in a list of keys: no part is empty, every place is in one part and once, a part has
all places of its keys, in order, and the parts are in the order of their first places. -/
structure Divides (keys : List κ) (parts : List (List Nat)) : Prop where
  nonempty : ∀ p ∈ parts, p ≠ []
  once : parts.flatten.Perm (List.range keys.length)
  together : ∀ p ∈ parts, ∀ i ∈ p, ∀ j < keys.length, j ∈ p ↔ keys[j]? = keys[i]?
  ordered : ∀ p ∈ parts, p.Pairwise (· < ·)
  byFirst : parts.Pairwise fun p q => ∀ i ∈ p.head?, ∀ j ∈ q.head?, i < j

/-- The places of a key. -/
def placesOf (keys : List κ) (k : κ) : List Nat := (List.range keys.length).filter fun i => keys[i]? == some k

theorem mem_placesOf_iff : i ∈ placesOf keys k ↔ keys[i]? = some k := by
  unfold placesOf
  rw [List.mem_filter, List.mem_range, beq_iff_eq]
  constructor
  · exact And.right
  · intro h
    exact ⟨(List.getElem?_eq_some_iff.1 h).1, h⟩

theorem head?_placesOf (hk : k ∈ keys) : (placesOf keys k).head? = some (keys.idxOf k) := by
  unfold placesOf
  rw [List.head?_filter, List.find?_range_eq_some]
  refine ⟨?_, List.mem_range.2 (List.idxOf_lt_length_iff.2 hk), fun j hj => ?_⟩
  · rw [beq_iff_eq]
    exact List.getElem?_idxOf hk
  · have hlen : j < keys.length := Nat.lt_trans hj (List.idxOf_lt_length_iff.2 hk)
    have hne : (keys[j] == k) = false := List.not_of_lt_findIdx hj
    simp [hlen, ne_of_beq_false hne]

/-- The places of the keys of a list divide it. -/
theorem divides_placesOf (keys : List κ) : Divides keys (keys.eraseDups.map (placesOf keys)) where
  nonempty := by
    intro p hp
    obtain ⟨k, hk, rfl⟩ := List.mem_map.1 hp
    intro h
    have hhead := head?_placesOf (List.mem_eraseDups.1 hk)
    rw [h] at hhead
    cases hhead
  once := by
    refine (List.perm_ext_iff_of_nodup ?_ List.nodup_range).2 fun i => ?_
    · rw [List.nodup_flatten]
      constructor
      · intro p hp
        obtain ⟨k, -, rfl⟩ := List.mem_map.1 hp
        exact List.nodup_range.filter _
      · refine List.pairwise_map.2 ((nodup_eraseDups keys).imp fun {a b} hne => ?_)
        intro i ha hb
        rw [mem_placesOf_iff] at ha hb
        exact hne (Option.some.inj (ha.symm.trans hb))
    · rw [List.mem_flatten, List.mem_range]
      constructor
      · rintro ⟨p, hp, hi⟩
        obtain ⟨k, -, rfl⟩ := List.mem_map.1 hp
        exact (List.getElem?_eq_some_iff.1 (mem_placesOf_iff.1 hi)).1
      · intro hi
        refine ⟨_, List.mem_map_of_mem (List.mem_eraseDups.2 (List.getElem_mem hi)), ?_⟩
        exact mem_placesOf_iff.2 (List.getElem?_eq_getElem hi)
  together := by
    intro p hp i hi j _
    obtain ⟨k, -, rfl⟩ := List.mem_map.1 hp
    rw [mem_placesOf_iff] at hi ⊢
    rw [hi]
  ordered := by
    intro p hp
    obtain ⟨k, -, rfl⟩ := List.mem_map.1 hp
    exact List.pairwise_lt_range.filter _
  byFirst := by
    refine List.pairwise_map.2 ((pairwise_idxOf_eraseDups keys).imp_of_mem fun {a b} ha hb hlt => ?_)
    intro i hi j hj
    rw [head?_placesOf (List.mem_eraseDups.1 ha)] at hi
    rw [head?_placesOf (List.mem_eraseDups.1 hb)] at hj
    cases hi
    cases hj
    exact hlt

end

/-! ## The order of groups -/

/-- The rows at some places, cut to their first values. -/
def rowsAt (t : Table) (split : Nat) (places : List Nat) : List Row :=
  places.map fun i => (t.rows.getD i []).take split

theorem rowsAt_placesOf (t : Table) (split : Nat) (key : List Value) :
    rowsAt t split (placesOf (t.rows.map (keyOf split)) key) =
      (t.rows.filter (keyOf split · == key)).map (·.take split) := by
  have hplaces : placesOf (t.rows.map (keyOf split)) key =
      (List.range t.rows.length).filter fun i => keyOf split (t.rows.getD i []) == key := by
    unfold placesOf
    rw [List.length_map]
    refine List.filter_congr fun i hi => ?_
    have hlt := List.mem_range.1 hi
    rw [List.getElem?_map, List.getElem?_eq_getElem hlt, List.getD_eq_getElem _ _ hlt]
    simp
  conv_rhs => rw [← Table.map_getD_range t.rows []]
  rw [hplaces, rowsAt, List.filter_map, List.map_map]
  rfl

/-- Grouping divides the rows of a table by their keys, without the columns of the keys. If there are no key columns,
the table is the only group, and there cannot be more of them than columns. -/
theorem partition_divides {t : Table} (ht : t.WellFormed) (n : Nat) :
    (0 < n → n ≤ t.width → ∃ parts, Divides (t.rows.map (keyOf (t.width - n))) parts ∧
      partition t n = .ok (parts.map fun p => ⟨t.fields.take (t.width - n), rowsAt t (t.width - n) p⟩)) ∧
      partition t 0 = .ok [t] ∧
      (t.width < n → partition t n = .error (.shapeMismatch n t.width)) := by
  refine ⟨fun hn hw => ?_, rfl, fun hw => ?_⟩
  · refine ⟨_, divides_placesOf _, ?_⟩
    rw [partition_ok ht (Nat.ne_of_gt hn) hw, List.map_map]
    refine congrArg Except.ok (List.map_congr_left fun key _ => ?_)
    rw [Function.comp, rowsAt_placesOf]
  · unfold partition
    rw [if_neg (Nat.ne_of_gt (Nat.lt_of_le_of_lt (Nat.zero_le _) hw)), if_pos hw]

end Group

/-! ## An example -/

namespace Sample

/-- Visits with their guests, two of them on the first floor, and of two the floor is not known. -/
def visits : Table := ⟨["day", "guest", "floor"],
  [[.text "mon", .text "ann", .int 1], [.text "tue", .text "bob", .null], [.text "wed", .text "ann", .float (.ofInt 1)],
    [.text "thu", .text "ann", .null], [.text "fri", .text "bob", .null]]⟩

end Sample

open Sample in
/-- The floor may be an integer or a float, and visits to no known floor are together if the guest is the same. -/
theorem Group.partition_divides_visits :
    visits.WellFormed ∧ 0 < 2 ∧ 2 ≤ visits.width ∧
      (∃ parts, Divides (visits.rows.map (keyOf 1)) parts ∧
        partition visits 2 = .ok (parts.map fun p => ⟨["day"], rowsAt visits 1 p⟩)) ∧
      partition visits 2 = .ok [⟨["day"], [[.text "mon"], [.text "wed"]]⟩, ⟨["day"], [[.text "tue"], [.text "fri"]]⟩,
        ⟨["day"], [[.text "thu"]]⟩] := by
  have hw : visits.WellFormed := by decide
  exact ⟨hw, by decide, by decide, (partition_divides hw 2).1 (by decide) (by decide), by decide +kernel⟩

end TableQuery
