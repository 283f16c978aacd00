/-
Parts of tables. A cut between two columns is undone by putting the parts side by side, wherever it is, and two tables
side by side are found again on the left and on the right of the place where they meet. A range of rows has the rows
whose numbers are between its ends: the number behind the greatest word is not needed, since no table has a row
of that number.
-/
import TableQuery.Proofs.Table.Shape

namespace TableQuery

/-! ## Ends of ranges -/

namespace Bound

/-- A row is not before the start of a range. -/
def Starts (b : Bound) (i : Nat) : Prop :=
  match b with
  | unbounded => True
  | included n => n.toNat ≤ i
  | excluded n => n.toNat < i

/-- A row is not behind the end of a range. -/
def Stops (b : Bound) (i : Nat) : Prop :=
  match b with
  | unbounded => True
  | included n => i ≤ n.toNat
  | excluded n => i < n.toNat

instance (b : Bound) (i : Nat) : Decidable (b.Starts i) :=
  match b with
  | unbounded => inferInstanceAs (Decidable True)
  | included n => inferInstanceAs (Decidable (n.toNat ≤ i))
  | excluded n => inferInstanceAs (Decidable (n.toNat < i))

instance (b : Bound) (i : Nat) : Decidable (b.Stops i) :=
  match b with
  | unbounded => inferInstanceAs (Decidable True)
  | included n => inferInstanceAs (Decidable (i ≤ n.toNat))
  | excluded n => inferInstanceAs (Decidable (i < n.toNat))

/-- The number of the next row does not wrap around. -/
theorem toNat_next (n : UInt64) : (next n).toNat = min (n.toNat + 1) (UInt64.size - 1) := by
  have hn := n.toNat_lt_size
  unfold next
  split
  · rename_i h
    rw [UInt64.toNat_add, UInt64.toNat_one, Nat.mod_eq_of_lt h]
    omega
  · omega

/-- The greatest word is behind all rows before it. -/
theorem lt_next_iff {n : UInt64} {i : Nat} (h : i < UInt64.size - 1) : i < (next n).toNat ↔ i ≤ n.toNat := by
  rw [toNat_next]
  omega

theorem next_le_iff {n : UInt64} {i : Nat} (h : i < UInt64.size - 1) : (next n).toNat ≤ i ↔ n.toNat < i := by
  rw [toNat_next]
  omega

end Bound

namespace Table

variable {t u : Table}

/-! ## Rows -/

/-- The part of a list between two places, by the numbers of its elements. -/
theorem drop_take_eq_filter {α : Type} (start stop : Nat) : ∀ (l : List α) (k : Nat),
    (l.take (stop - k)).drop (start - k) = ((l.zipIdx k).filter fun p => start ≤ p.2 ∧ p.2 < stop).map (·.1)
  | [], k => by simp
  | a :: l, k => by
    have ih := drop_take_eq_filter start stop l (k + 1)
    rw [List.zipIdx_cons, List.filter_cons]
    rcases Nat.lt_or_ge k stop with hstop | hstop
    · rw [show stop - k = stop - (k + 1) + 1 by omega, List.take_succ_cons]
      rcases Nat.lt_or_ge k start with hstart | hstart
      · rw [show start - k = start - (k + 1) + 1 by omega, List.drop_succ_cons, ih, if_neg (by simp; omega)]
      · rw [show start - k = 0 by omega, List.drop_zero, if_pos (by simp; omega), List.map_cons, ← ih,
          show start - (k + 1) = 0 by omega, List.drop_zero]
    · rw [if_neg (by simp; omega), ← ih, show stop - k = 0 by omega, show stop - (k + 1) = 0 by omega,
        List.take_zero, List.take_zero, List.drop_nil, List.drop_nil]

theorem rowRange_le (t : Table) (start stop : Bound) :
    (t.rowRange start stop).1 ≤ (t.rowRange start stop).2 ∧ (t.rowRange start stop).2 ≤ t.size :=
  ⟨Nat.min_le_right _ _, Nat.min_le_right _ _⟩

/-- The places of a range are those between its ends. -/
theorem mem_rowRange (h : t.size < UInt64.size) (start stop : Bound) {i : Nat} (hi : i < t.size) :
    (t.rowRange start stop).1 ≤ i ∧ i < (t.rowRange start stop).2 ↔ start.Starts i ∧ stop.Stops i := by
  have hclamp : ∀ first last : Nat,
      min first (min last t.size) ≤ i ∧ i < min last t.size ↔ first ≤ i ∧ i < last := by omega
  refine (hclamp _ _).trans (and_congr ?_ ?_)
  · cases start with
    | unbounded => exact iff_of_true (Nat.zero_le i) trivial
    | included n => exact Iff.rfl
    | excluded n => exact Bound.next_le_iff (by omega)
  · cases stop with
    | unbounded => exact iff_of_true hi trivial
    | included n => exact Bound.lt_next_iff (by omega)
    | excluded n => exact Iff.rfl

theorem sliceRows_eq_filter (h : t.size < UInt64.size) (start stop : Bound) :
    t.sliceRows start stop =
      ⟨t.fields, (t.rows.zipIdx.filter fun p => start.Starts p.2 ∧ stop.Stops p.2).map (·.1)⟩ := by
  have hrows := drop_take_eq_filter (t.rowRange start stop).1 (t.rowRange start stop).2 t.rows 0
  rw [Nat.sub_zero, Nat.sub_zero] at hrows
  rw [sliceRows, hrows]
  congr 2
  refine List.filter_congr fun p hp => ?_
  have hi := (List.mem_zipIdx' hp).1
  exact decide_eq_decide.2 (mem_rowRange h start stop hi)

/-! ## Columns -/

theorem chain_sliceColumns (ht : t.WellFormed) (k : Nat) :
    (t.sliceColumns 0 k).chain (t.sliceColumns k t.width) = .ok t := by
  have hrow : ∀ r ∈ t.rows, (r.take k).drop 0 ++ (r.take t.width).drop k = r := by
    intro r hr
    rw [List.drop_zero, width, ← ht r hr, List.take_length, List.take_append_drop]
  have hfields : (t.fields.take k).drop 0 ++ (t.fields.take t.width).drop k = t.fields := by
    rw [List.drop_zero, width, List.take_length, List.take_append_drop]
  unfold chain
  rw [if_pos (by simp [size, sliceColumns])]
  simp only [sliceColumns]
  rw [hfields, List.zipWith_map, List.zipWith_self, List.map_congr_left hrow, List.map_id']

theorem chain_eq (h : t.size = u.size) : t.chain u = .ok ⟨t.fields ++ u.fields, t.rows.zipWith (· ++ ·) u.rows⟩ :=
  if_pos h

/-- The left part of rows side by side. -/
theorem map_take_zipWith {n : Nat} : ∀ {rs ss : List Row}, (∀ r ∈ rs, r.length = n) → rs.length = ss.length →
    (rs.zipWith (· ++ ·) ss).map (fun r => (r.take n).drop 0) = rs
  | [], _, _, _ => rfl
  | r :: rs, s :: ss, hr, hlen => by
    obtain ⟨hr, hrs⟩ := List.forall_mem_cons.1 hr
    rw [List.zipWith_cons_cons, List.map_cons, map_take_zipWith hrs (Nat.succ.inj hlen), List.drop_zero,
      List.take_left' hr]

/-- The right part of rows side by side. -/
theorem map_drop_zipWith {n m : Nat} : ∀ {rs ss : List Row}, (∀ r ∈ rs, r.length = n) → (∀ s ∈ ss, s.length = m) →
    rs.length = ss.length → (rs.zipWith (· ++ ·) ss).map (fun r => (r.take (n + m)).drop n) = ss
  | [], [], _, _, _ => rfl
  | r :: rs, s :: ss, hr, hs, hlen => by
    obtain ⟨hr, hrs⟩ := List.forall_mem_cons.1 hr
    obtain ⟨hs, hss⟩ := List.forall_mem_cons.1 hs
    have hall : (r ++ s).length = n + m := by rw [List.length_append, hr, hs]
    rw [List.zipWith_cons_cons, List.map_cons, map_drop_zipWith hrs hss (Nat.succ.inj hlen), ← hall,
      List.take_length, List.drop_left' hr]

theorem sliceColumns_chain (ht : t.WellFormed) (hu : u.WellFormed) (h : t.size = u.size) :
    ∃ v, t.chain u = .ok v ∧ v.sliceColumns 0 t.width = t ∧ v.sliceColumns t.width v.width = u := by
  refine ⟨_, chain_eq h, ?_, ?_⟩
  · simp only [sliceColumns, width]
    rw [map_take_zipWith ht h, List.drop_zero, List.take_left]
  · have hwidth : (Table.mk (t.fields ++ u.fields) (t.rows.zipWith (· ++ ·) u.rows)).width =
        t.fields.length + u.fields.length := List.length_append
    simp only [sliceColumns]
    rw [hwidth, width, map_drop_zipWith ht hu h, ← List.length_append, List.take_length, List.drop_left]

/-- Cutting a table between two columns, or behind all of them, and putting the parts side by side gives the table, and
of two tables side by side the columns up to the width of the left one are the left table and those from there
on the right one. The ends of a range of rows, whatever they are, become places in the table in their order, and the
range has exactly the rows whose numbers lie between its ends, as the rows of a table are numbered by words. -/
theorem slices_and_chains (t u : Table) :
    (t.WellFormed → ∀ k, (t.sliceColumns 0 k).chain (t.sliceColumns k t.width) = .ok t) ∧
      (t.WellFormed → u.WellFormed → t.size = u.size →
        ∃ v, t.chain u = .ok v ∧ v.sliceColumns 0 t.width = t ∧ v.sliceColumns t.width v.width = u) ∧
      ∀ start stop : Bound,
        (t.rowRange start stop).1 ≤ (t.rowRange start stop).2 ∧ (t.rowRange start stop).2 ≤ t.size ∧
        (t.size < UInt64.size → t.sliceRows start stop =
          ⟨t.fields, (t.rows.zipIdx.filter fun p => start.Starts p.2 ∧ stop.Stops p.2).map (·.1)⟩) := by
  refine ⟨chain_sliceColumns, sliceColumns_chain, fun start stop => ?_⟩
  obtain ⟨horder, hend⟩ := t.rowRange_le start stop
  exact ⟨horder, hend, fun hsize => sliceRows_eq_filter hsize start stop⟩

end Table

namespace Sample

def seats : Table := ⟨["hall", "seat"], [[.text "north", .int 1], [.text "south", .null], [.text "south", .int 2]]⟩

/-- Rows without values. -/
def blank : Table := ⟨[], [[], [], []]⟩

end Sample

open Sample in
/-- A table without columns on the right changes nothing, and a range that starts behind the greatest word has no row. -/
theorem Table.slices_and_chains_seats :
    seats.WellFormed ∧ blank.WellFormed ∧ seats.size = blank.size ∧ seats.size < UInt64.size ∧
      (seats.sliceColumns 0 7).chain (seats.sliceColumns 7 seats.width) = .ok seats ∧
      (∃ v, seats.chain blank = .ok v ∧ v.sliceColumns 0 seats.width = seats ∧
        v.sliceColumns seats.width v.width = blank) ∧
      (seats.rowRange (.excluded 18446744073709551615) .unbounded).2 ≤ seats.size ∧
      seats.sliceRows (.excluded 18446744073709551615) .unbounded = ⟨["hall", "seat"], []⟩ ∧
      seats.sliceRows (.excluded 0) (.included 18446744073709551615) =
        ⟨["hall", "seat"], [[.text "south", .null], [.text "south", .int 2]]⟩ := by
  have hs : seats.WellFormed := by decide
  have hb : blank.WellFormed := by decide
  have hsize : seats.size < UInt64.size := by decide
  obtain ⟨hcut, hchain, hrange⟩ := slices_and_chains seats blank
  obtain ⟨-, hend, hrows⟩ := hrange (.excluded 18446744073709551615) .unbounded
  obtain ⟨-, -, hrows'⟩ := hrange (.excluded 0) (.included 18446744073709551615)
  exact ⟨hs, hb, rfl, hsize, hcut hs 7, hchain hs hb rfl, hend, (hrows hsize).trans (by decide),
    (hrows' hsize).trans (by decide)⟩

end TableQuery
