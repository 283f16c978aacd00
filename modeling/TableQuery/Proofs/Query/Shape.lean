/-
The shape of a result. Whatever is read, and at whichever of its exits a run ends, the result is well formed,
its fields are the names of the items with those of the source in place of a star, and it has no more rows than
the limit says.
-/
import TableQuery.Proofs.Query.Answer

namespace TableQuery

namespace Select

variable {s : Select} {r : Table}

/-! ## Names -/

/-- The fields of the result for a source with these fields: the names given, or else the labels of the items,
and in place of each star the fields of the source. -/
def header (s : Select) (fields : List String) : List String :=
  (List.zipWith (fun e name => if e = .wildcard then fields else [name]) s.items
    (s.names.getD (s.items.map Expr.label))).flatten

theorem namesOn_eq_header (s : Select) (fields : List String) : s.namesOn fields = s.header fields := by
  have hlabels : ∀ es : List Expr, Expr.labels es = es.map Expr.label := by
    intro es
    induction es with
    | nil => rfl
    | cons e es ih => rw [Expr.labels, List.map_cons, ih]
  unfold namesOn expand header
  rw [hlabels, List.map_flatMap, List.flatMap_def, ← List.map_uncurry_zip_eq_zipWith]
  refine congrArg List.flatten (List.map_congr_left fun ⟨e, name⟩ _ => ?_)
  rw [Function.uncurry_apply_pair]
  simp only
  split
  · rw [List.map_map]
    exact List.map_id _
  · rfl

/-! ## Limit -/

theorem fields_limited (s : Select) (t : Table) : (s.limited t).fields = t.fields := by
  unfold limited
  split <;> rfl

theorem wellFormed_limited {t : Table} (ht : t.WellFormed) : (s.limited t).WellFormed := by
  unfold limited
  split
  · exact Table.wellFormed_truncate ht _
  · exact ht

theorem size_limited_le {n : Nat} (h : s.limit = some n) (t : Table) : (s.limited t).size ≤ n := by
  unfold limited
  rw [h]
  exact List.length_take_le n t.rows

/-! ## Results -/

/-- The rows of a group are as wide as there are items. -/
theorem length_of_mem_rowsOn {items : List Expr} {g : Table} {rows : List Row} (h : s.rowsOn items g = .ok rows) :
    ∀ row ∈ rows, row.length = items.length := by
  obtain ⟨out, hout, h⟩ := bind_ok h
  cases h
  have hwidth : ∀ row ∈ out.rows, row.length = items.length := fun row hr => by
    rw [Expr.wellFormed_evalTable hout row hr, Expr.fields_evalTable hout, Expr.length_labels]
  split
  · exact fun row hr => hwidth row (List.mem_of_mem_take hr)
  · exact hwidth

theorem answer_shape {items : List Expr} {names : List String} {keep : Nat} {gs : List Table}
    (hn : names.length = items.length) (h : s.answer items names keep gs = .ok r) :
    ∃ rows, r = s.limited ⟨names, rows⟩ ∧ (Table.mk names rows).WellFormed := by
  obtain ⟨kept, -, h⟩ := bind_ok h
  obtain ⟨sorted, -, h⟩ := bind_ok h
  obtain ⟨rows, hrows, h⟩ := bind_ok h
  cases h
  refine ⟨rows.flatten, rfl, fun row hr => ?_⟩
  obtain ⟨part, hpart, hr⟩ := List.mem_flatten.1 hr
  obtain ⟨g, -, hg⟩ := mem_of_mapM_ok hrows part hpart
  exact (length_of_mem_rowsOn hg row hr).trans hn.symm

/-- Every result of a run is cut from a well-formed table under the names of the items. -/
theorem run_shape {source : Option Table} (h : s.run source = .ok r) :
    ∃ rows, r = s.limited ⟨s.namesOn (source.getD dummy).fields, rows⟩ ∧
      (Table.mk (s.namesOn (source.getD dummy).fields) rows).WellFormed := by
  have hempty : ∀ names : List String, Table.empty names = s.limited ⟨names, []⟩ := fun names => by
    unfold limited
    split
    · exact congrArg (Table.mk names) List.take_nil.symm
    · rfl
  have hnone : ∀ names : List String, Except.ok (Table.empty names) = (.ok r : Except Error Table) →
      ∃ rows, r = s.limited ⟨names, rows⟩ ∧ (Table.mk names rows).WellFormed := fun names h =>
    ⟨[], (Except.ok.inj h).symm.trans (hempty names), Table.wellFormed_empty names⟩
  rw [run_eq] at h
  simp only at h
  -- without rows in the source or behind the filter there is nothing but the names
  split at h
  · exact hnone _ h
  · obtain ⟨k, -, h⟩ := bind_ok h
    cases hk : k.isEmpty with
    | true =>
      rw [hk, if_pos rfl] at h
      exact hnone _ h
    | false =>
      rw [hk, if_neg Bool.false_ne_true, finish_workingTable hk (length_namesOn s _)] at h
      obtain ⟨first, -, h⟩ := bind_ok h
      obtain ⟨chosen, -, h⟩ := bind_ok h
      obtain ⟨all, -, h⟩ := bind_ok h
      obtain ⟨gs, -, h⟩ := bind_ok h
      exact answer_shape (length_namesOn s _) h

end Select

/-- The shape of a result. -/
theorem Query.execute_ok_shape {fetch : Fetcher} {q : Query} {r : Table} (h : q.execute fetch = .ok r) :
    ∃ source, q.source fetch = .ok source ∧ r.WellFormed ∧
      r.fields = q.select.header (source.getD Select.dummy).fields ∧ ∀ n, q.select.limit = some n → r.size ≤ n := by
  rw [execute_eq] at h
  obtain ⟨_, -, h⟩ := bind_ok h
  obtain ⟨source, hsource, h⟩ := bind_ok h
  obtain ⟨rows, rfl, hrows⟩ := Select.run_shape h
  refine ⟨source, hsource, Select.wellFormed_limited hrows, ?_, fun n hn => Select.size_limited_le hn _⟩
  rw [Select.fields_limited, Select.namesOn_eq_header]

end TableQuery
