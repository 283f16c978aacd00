/-
Whether a list of columns is read as the source has it. For a header and a list of names, all
selections of this list read right exactly if each name is spelled like a field, or refers to the
same column as the first name of the list that is equal to it up to letter case. Otherwise the
order of the list decides which of two columns is read.
-/
import TableQuery.Proofs.Query.Columns

namespace TableQuery

namespace Select

variable {s : Select} {names : List String}

/-! ## Checks -/

/-- The items are the columns of these names, and no clause stands beside them but a filter. -/
structure Lists (s : Select) (names : List String) : Prop extends s.Plain where
  items : s.items = names.map .column

theorem checkNames_of_check {b : Bool} (h : s.check b = .ok ()) : s.checkNames = .ok () := by
  unfold check at h
  obtain ⟨_, -, h⟩ := bind_ok h
  obtain ⟨_, -, h⟩ := bind_ok h
  obtain ⟨_, -, h⟩ := bind_ok h
  exact h

/-- Without a star the items are those of the selection, where there is a name for each. -/
theorem itemsOn_eq (hn : s.checkNames = .ok ()) (hw : .wildcard ∉ s.items) (fields : List String) :
    s.itemsOn fields = s.items := by
  have hlen : s.items.length ≤ (s.names.getD (Expr.labels s.items)).length := by
    unfold checkNames at hn
    cases hs : s.names with
    | none => rw [Option.getD_none, Expr.length_labels]
    | some ns =>
      rw [hs] at hn
      by_cases he : ns.length = s.items.length
      · exact Nat.le_of_eq he.symm
      · simp [he] at hn
  have hexpand : s.expand fields = s.items.zip (s.names.getD (Expr.labels s.items)) := by
    unfold expand
    refine (List.flatMap_congr fun p hp => ?_).trans (List.flatMap_singleton' _)
    have hne : p.1 ≠ .wildcard := fun he => hw (he ▸ (List.of_mem_zip hp).1)
    exact if_neg hne
  rw [itemsOn, hexpand, List.map_fst_zip hlen]

theorem Lists.itemsOn (h : s.Lists names) (hn : s.checkNames = .ok ()) (fields : List String) :
    s.itemsOn fields = names.map .column := by
  rw [itemsOn_eq hn (by simp [h.items]), h.items]

theorem check_columns (names : List String) : check { items := names.map .column } true = .ok () := by
  have hitems : checkItems { items := names.map .column } true = .ok () := by
    unfold checkItems
    rw [List.find?_eq_none.2 fun e he => ?_]
    · rfl
    · obtain ⟨name, -, rfl⟩ := List.mem_map.1 he
      simp [Expr.hasStrayWildcard]
  unfold check
  rw [hitems]
  rfl

end Select

/-! ## Reading the source -/

/-- In each row of `r` stand the values that the row of `kept` in its place has under the names, as
`t` finds them. -/
def Table.Reads (t : Table) (names : List String) (kept r : Table) : Prop :=
  ∀ (i : Nat) (row : Row), r.rows[i]? = some row → ∃ source : Row, kept.rows[i]? = some source ∧
    row.map some = names.map fun name => (t.columnIndex? name).map (source.getD · .null)

theorem Table.seenAt?_eq_iff {t : Table} {names : List String} {name : String} :
    t.seenAt? names name = t.columnIndex? name ↔
      name ∈ t.fields ∨ (names.find? (Text.sameLetters · name)).bind t.columnIndex? = t.columnIndex? name := by
  unfold seenAt?
  split
  · rename_i h; exact iff_of_true rfl (.inl h)
  · rename_i h; exact ⟨.inr, fun h' => h'.resolve_left h⟩

/-- A selection of columns reads right if every name is seen at the column that it refers to. -/
theorem Table.reads_of_seenAt? {s : Select} {t k r : Table} {names : List String} (h : s.Plain)
    (hi : s.itemsOn t.fields = names.map .column) (hr : t.Resolves (names.map .column)) (hk : s.kept t = .ok k)
    (hs : ∀ name ∈ names, t.seenAt? names name = t.columnIndex? name) (hrun : s.run (some t) = .ok r) :
    t.Reads names k r := by
  rw [Select.run_columns h hi hr hk] at hrun
  cases hrun
  intro i row hrow
  have hrow' : (k.rows.map fun row => names.map fun name => List.getD row ((t.seenAt? names name).getD 0) .null)[i]? =
      some row := by
    simp only at hrow
    split at hrow
    · rw [List.getElem?_take] at hrow
      split at hrow
      · exact hrow
      · cases hrow
    · exact hrow
  rw [List.getElem?_map] at hrow'
  obtain ⟨source, hsource, rfl⟩ := Option.map_eq_some_iff.1 hrow'
  refine ⟨source, hsource, ?_⟩
  rw [List.map_map]
  refine List.map_congr_left fun name hn => ?_
  obtain ⟨j, hj⟩ := Option.isSome_iff_exists.1 (hr name (List.mem_map_of_mem hn))
  rw [Function.comp, hs name hn, hj]
  rfl

/-- One row that is true in one column only. -/
def Table.flag (fields : List String) (i : Nat) : Table :=
  ⟨fields, [(List.range fields.length).map fun j => if j = i then .bool true else .null]⟩

theorem Table.wellFormed_flag (fields : List String) (i : Nat) : (flag fields i).WellFormed := by
  intro r hr
  rw [List.mem_singleton.1 hr, List.length_map, List.length_range]
  rfl

theorem Table.getD_flag {n i j : Nat} (hi : i < n)
    (h : ((List.range n).map fun j => if j = i then Value.bool true else .null).getD j .null =
      ((List.range n).map fun j => if j = i then Value.bool true else .null).getD i .null) : j = i := by
  rw [List.getD_eq_getElem _ _ (show i < _ by simpa using hi), List.getElem_map, List.getElem_range, if_pos rfl] at h
  by_contra hne
  by_cases hj : j < n
  · rw [List.getD_eq_getElem _ _ (show j < _ by simpa using hj), List.getElem_map, List.getElem_range, if_neg hne] at h
    cases h
  · rw [List.getD_eq_default _ _ (by simpa using hj)] at h
    cases h

/-- If a row that is true only in the column of a name is read right, the name is seen there. -/
theorem Table.seenAt?_of_reads_flag {fields names labels : List String} {name : String} {i : Nat}
    (hr : (flag fields i).Resolves (names.map .column)) (hn : name ∈ names)
    (hi : (flag fields i).columnIndex? name = some i)
    (h : (flag fields i).Reads names (flag fields i) ⟨labels, (flag fields i).rows.map fun row =>
      names.map fun n => row.getD (((flag fields i).seenAt? names n).getD 0) .null⟩) :
    (flag fields i).seenAt? names name = some i := by
  obtain ⟨source, hsource, hrow⟩ := h 0 _ rfl
  cases hsource
  rw [List.map_map] at hrow
  have hvalue := List.map_inj_left.1 hrow name hn
  obtain ⟨j, hj⟩ := Option.isSome_iff_exists.1 (seenAt?_isSome hr hn)
  rw [Function.comp, hj, hi] at hvalue
  have hji : j = i := getD_flag (columnIndex?_lt hi) (Option.some.inj hvalue)
  rw [hj, hji]

/-- Under a header, all selections of a list of columns read the source right exactly if each name
is spelled like a field, or refers to the same column as the first name of the list that is equal to
it up to letter case. -/
theorem execute_reads_iff {fields names : List String} (hr : (Table.empty fields).Resolves (names.map .column)) :
    (∀ (fetch : Fetcher) (q : Query) (t k r : Table), t.fields = fields → t.WellFormed → q.select.Lists names →
      q.source fetch = .ok (some t) → q.select.kept t = .ok k → q.execute fetch = .ok r → t.Reads names k r) ↔
    ∀ name ∈ names, name ∈ fields ∨
      (names.find? (Text.sameLetters · name)).bind (Table.empty fields).columnIndex? =
        (Table.empty fields).columnIndex? name := by
  constructor
  · intro h name hn
    obtain ⟨i, hi⟩ := Option.isSome_iff_exists.1 (hr name (List.mem_map_of_mem hn))
    -- a row that is true only in the column of the name tells this column from all others
    let t := Table.flag fields i
    let s : Select := { items := names.map .column }
    have hlists : s.Lists names := ⟨⟨rfl, rfl, rfl, rfl⟩, rfl⟩
    have hcheck : s.check true = .ok () := Select.check_columns names
    have hitems := hlists.itemsOn (Select.checkNames_of_check hcheck) t.fields
    have hrt : t.Resolves (names.map .column) := hr.congr rfl
    have hrun := Select.run_columns hlists.toPlain hitems hrt (k := t) rfl
    have hexec : (Query.table s "t").execute (fun _ => .ok t) = s.run (some t) := Query.execute_of_source hcheck rfl
    have hreads := h (fun _ => .ok t) (.table s "t") t t _ rfl (Table.wellFormed_flag fields i) hlists rfl rfl
      (hexec.trans hrun)
    have hne : names.isEmpty = false := List.isEmpty_eq_false_iff_exists_mem.2 ⟨name, hn⟩
    simp only [hne, Bool.false_eq_true, if_false] at hreads
    have hseen : t.seenAt? names name = some i := Table.seenAt?_of_reads_flag hrt hn hi hreads
    exact Table.seenAt?_eq_iff.1 (hseen.trans hi.symm)
  · intro h fetch q t k r hf _ hlists hs hk hexec
    have hrt : t.Resolves (names.map .column) := hr.congr hf.symm
    rw [Query.execute_eq] at hexec
    obtain ⟨_, hcheck, hexec⟩ := bind_ok hexec
    rw [hs, ok_bind] at hexec
    refine Table.reads_of_seenAt? hlists.toPlain (hlists.itemsOn (Select.checkNames_of_check hcheck) _) hrt hk
      (fun name hn => Table.seenAt?_eq_iff.2 ?_) hexec
    subst hf
    exact h name hn

/-! ## Two fields of one name in different letter case -/

namespace Sample

def cased : Table := ⟨["Ab", "aB"], [[.int 1, .int 2]]⟩

end Sample

open Sample in
/-- The name that is not spelled like a field stands first, so both names read right. -/
theorem reads_cased :
    (Table.empty cased.fields).Resolves (["AB", "aB"].map .column) ∧
      (Query.table { items := [.column "AB", .column "aB"] } "t").execute (fun _ => .ok cased) =
        .ok ⟨["AB", "aB"], [[.int 1, .int 2]]⟩ ∧
      cased.Reads ["AB", "aB"] cased ⟨["AB", "aB"], [[.int 1, .int 2]]⟩ := by
  have hr : (Table.empty cased.fields).Resolves (["AB", "aB"].map .column) := by decide
  have hlists : Select.Lists { items := [.column "AB", .column "aB"] } ["AB", "aB"] := ⟨⟨rfl, rfl, rfl, rfl⟩, rfl⟩
  exact ⟨hr, rfl, (execute_reads_iff hr).2 (by decide) (fun _ => .ok cased)
    (.table { items := [.column "AB", .column "aB"] } "t") cased cased _ rfl (by decide) hlists rfl rfl rfl⟩

open Sample in
/-- In the other order the name `AB`, which refers to the first column, reads the second one. -/
theorem not_reads_cased :
    ¬ ∀ (fetch : Fetcher) (q : Query) (t k r : Table) (names : List String), t.WellFormed →
      t.Resolves (names.map .column) → q.select.Lists names → q.source fetch = .ok (some t) →
      q.select.kept t = .ok k → q.execute fetch = .ok r → t.Reads names k r := by
  intro h
  have hreads := h (fun _ => .ok cased) (.table { items := [.column "aB", .column "AB"] } "t") cased cased
    ⟨["aB", "AB"], [[.int 2, .int 2]]⟩ ["aB", "AB"] (by decide) (by decide) ⟨⟨rfl, rfl, rfl, rfl⟩, rfl⟩ rfl rfl rfl
  obtain ⟨source, hsource, hrow⟩ := hreads 0 _ rfl
  cases hsource
  exact absurd hrow (by decide)

end TableQuery
