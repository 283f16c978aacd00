/-
The shape of all tables that a session makes. The result of a query is well formed, and an error about numbers
of rows or values is one of names that are not as many as the items, which planned queries never have, or that
of the fetcher. The fetcher of a catalog has none and gives well-formed tables where those that it stores are;
and as what a database stores are results, it never stores anything else.
-/
import TableQuery.Proofs.Catalog
import TableQuery.Proofs.Csv
import TableQuery.Proofs.Database.Registry
import TableQuery.Proofs.Query.Pruning
import TableQuery.Proofs.Query.Trace
import TableQuery.Proofs.Sql.Selection

namespace TableQuery

/-! ## Tables of a catalog -/

namespace Table

variable {t u : Table}

theorem wellFormed_project {tokens : TokenSet} (ht : t.WellFormed) (h : t.project tokens = .ok u) : u.WellFormed := by
  unfold project at h
  split at h
  · cases h
    exact ht
  · obtain ⟨named, -, h⟩ := bind_ok h
    cases h
    exact t.wellFormed_select _

theorem failsWithin_project {shape : Prop} (t : Table) (tokens : TokenSet) : FailsWithin shape (t.project tokens) := by
  unfold project
  split
  · simp
  · exact (failsWithin_addNamed _ []).bind fun named _ => by simp

end Table

namespace Catalog

variable {c : Catalog} {read : ReadFile} {label : String} {t : Table}

/-- Every stored table is well formed. -/
def WellFormed (c : Catalog) : Prop := ∀ p ∈ c.tables, p.2.WellFormed

instance (c : Catalog) : Decidable c.WellFormed := inferInstanceAs (Decidable (∀ p ∈ c.tables, _))

theorem wellFormed_resolve (hc : c.WellFormed) (h : c.resolve read label = .ok t) : t.WellFormed := by
  unfold resolve at h
  split at h
  · rename_i u hget
    cases h
    obtain ⟨p, hentry, rfl⟩ := Option.map_eq_some_iff.1 hget
    exact hc p ( mem_of_entry? hentry)
  · split at h
    · unfold readCsv at h
      split at h
      · cases h
      · split at h
        · cases h
        · rename_i u hfile
          cases h
          exact Csv.wellFormed_tableOfBytes hfile
    · cases h

theorem failsWithin_resolve {shape : Prop} (c : Catalog) (read : ReadFile) (label : String) :
    FailsWithin shape (c.resolve read label) := by
  unfold resolve
  split
  · simp
  · split
    · unfold readCsv
      split
      · simp
      · split <;> simp
    · simp

/-- The fetcher of a catalog gives well-formed tables. -/
theorem wellFormed_fetch (hc : c.WellFormed) {r : Request} (h : c.fetch read r = .ok t) : t.WellFormed := by
  obtain ⟨u, hu, h⟩ := bind_ok h
  exact Table.wellFormed_project (wellFormed_resolve hc hu) h

/-- The fetcher of a catalog has no fault of shape of its own. -/
theorem failsWithin_fetch {shape : Prop} (c : Catalog) (read : ReadFile) (r : Request) :
    FailsWithin shape (c.fetch read r) :=
  (c.failsWithin_resolve read r.label).bind fun u _ => u.failsWithin_project r.tokens

end Catalog

/-! ## Errors of shape -/

/-- About the numbers of rows or values of a table. -/
def Error.AboutShape : Error → Prop
  | .shapeMismatch .. | .rowCountMismatch .. => True
  | _ => False

theorem Error.AboutShape.not_within {e : Error} (h : e.AboutShape) : ¬ e.Within False := by
  cases e <;> first | exact id | exact h.elim

/-- There are names, but not as many as items. -/
def Select.Misnamed (s : Select) : Prop := ∃ names, s.names = some names ∧ names.length ≠ s.items.length

/-- Every planned item has its name. -/
theorem Sql.not_misnamed_of_plan {frame : Frame} {s : Selection} {sel : Select} (h : planSelection frame s = .ok sel) :
    ¬ sel.Misnamed := by
  unfold planSelection at h
  obtain ⟨items, -, h⟩ := bind_ok h
  obtain ⟨filter, -, h⟩ := bind_ok h
  obtain ⟨groupBy, -, h⟩ := bind_ok h
  obtain ⟨groupBy', -, h⟩ := bind_ok h
  obtain ⟨having, -, h⟩ := bind_ok h
  obtain ⟨orderBy, -, h⟩ := bind_ok h
  obtain ⟨limit, -, h⟩ := bind_ok h
  cases h
  rintro ⟨names, hnames, hne⟩
  cases hnames
  exact hne (by simp [Scope.exprs])

namespace Query

variable {fetch : Fetcher} {q : Query}

theorem mem_selects_of_mem_levels : ∀ {q : Query} {l : Select × Bool}, l ∈ q.levels → l.1 ∈ q.selects
  | constant s, l, h => by
    rw [List.mem_singleton.1 h]
    exact List.mem_singleton_self s
  | table s label, l, h => by
    rw [List.mem_singleton.1 h]
    exact List.mem_singleton_self s
  | nested s inner, l, h => by
    rcases List.mem_cons.1 h with rfl | h
    · exact List.mem_cons_self ..
    · exact List.mem_cons_of_mem _ (mem_selects_of_mem_levels h)

theorem not_misnamed_of_plan {w : Sql.QueryExpr} (h : w.plan = .ok q) : ∀ s ∈ q.selects, ¬ s.Misnamed := by
  intro s hs
  obtain ⟨p, -, hplan⟩ := exists_left_of_forall₂ (Sql.QueryExpr.plan_selects h) s hs
  exact Sql.not_misnamed_of_plan hplan

/-- An error about shape is one of names, which numbers the items and the names, or that of the request. -/
theorem origin_of_shape {e : Error} (hf : ∀ r t, fetch r = .ok t → t.WellFormed) (he : e.AboutShape)
    (h : q.execute fetch = .error e) :
    (∃ s ∈ q.selects, s.Misnamed ∧ ∃ names, s.names = some names ∧ e = .shapeMismatch s.items.length names.length) ∨
      ∃ label, q.baseLabel? = some label ∧ fetch ⟨label, q.innermost.tokens⟩ = .error e := by
  refine (origin_of_error he.not_within (.inr hf) h).imp_left fun ⟨l, hl, hcheck⟩ => ?_
  rcases Select.check_error hcheck with ⟨w, rfl⟩ | ⟨f, rfl⟩ | ⟨names, hnames, hne, rfl⟩
  · exact he.elim
  · exact he.elim
  · exact ⟨l.1, mem_selects_of_mem_levels hl, ⟨names, hnames, hne⟩, names, hnames, rfl⟩

/-- On the tables of a catalog a planned query has no error about shape. -/
theorem not_aboutShape_of_plan {c : Catalog} {read : ReadFile} (hc : c.WellFormed) {w : Sql.QueryExpr}
    (hw : w.plan = .ok q) {e : Error} (h : q.execute (c.fetch read) = .error e) : ¬ e.AboutShape := by
  intro he
  rcases origin_of_shape (fun _ _ => Catalog.wellFormed_fetch hc) he h with ⟨s, hs, hmis, -⟩ | ⟨label, -, hfetch⟩
  · exact not_misnamed_of_plan hw s hs hmis
  · exact he.not_within (c.failsWithin_fetch read _ e hfetch)

/-- The shape of results, for every query and every fetcher that gives well-formed tables.

- A result is well formed, its fields are the names given or else the labels of the items, each star being
  replaced by the fields of the source, and it has no more rows than the limit says.
- An error about numbers of rows is that of the request at the innermost level.
- An error about numbers of values is one of a level with names that are not as many as its items, and then the
  query was not planned; or it is that of the request.
- With the fetcher of a catalog a planned query has neither of these errors. -/
theorem execute_shape (hf : ∀ r t, fetch r = .ok t → t.WellFormed) (q : Query) :
    (∀ r, q.execute fetch = .ok r → ∃ source, q.source fetch = .ok source ∧ r.WellFormed ∧
      r.fields = q.select.header (source.getD Select.dummy).fields ∧ ∀ n, q.select.limit = some n → r.size ≤ n) ∧
    (∀ left right, q.execute fetch = .error (.rowCountMismatch left right) → ∃ label, q.baseLabel? = some label ∧
      fetch ⟨label, q.innermost.tokens⟩ = .error (.rowCountMismatch left right)) ∧
    (∀ expected found, q.execute fetch = .error (.shapeMismatch expected found) →
      ((∃ s ∈ q.selects, s.Misnamed) ∧ ∀ w : Sql.QueryExpr, w.plan ≠ .ok q) ∨
        ∃ label, q.baseLabel? = some label ∧
          fetch ⟨label, q.innermost.tokens⟩ = .error (.shapeMismatch expected found)) ∧
    ∀ (c : Catalog) (read : ReadFile) (w : Sql.QueryExpr), c.WellFormed → w.plan = .ok q →
      ∀ e, q.execute (c.fetch read) = .error e → ¬ e.AboutShape := by
  refine ⟨fun r h => execute_ok_shape h, fun left right h => ?_, fun expected found h => ?_, ?_⟩
  · rcases origin_of_shape (e := .rowCountMismatch left right) hf trivial h with ⟨s, -, -, names, -, he⟩ | hrequest
    · cases he
    · exact hrequest
  · refine (origin_of_shape (e := .shapeMismatch expected found) hf trivial h).imp_left fun ⟨s, hs, hmis, _⟩ =>
      ⟨⟨s, hs, hmis⟩, fun w hw => ?_⟩
    exact not_misnamed_of_plan hw s hs hmis
  · exact fun c read w hc hw e h => not_aboutShape_of_plan hc hw h

end Query

/-! ## Examples -/

namespace Sample

/-- `SELECT *, id + 1 FROM (SELECT id, region AS place FROM orders WHERE amount > 1000) LIMIT 3`. -/
def costly : Query := .nested
  { items := [.wildcard, .call "+" [.column "id", .lit (.int 1)]], limit := some 3 }
  (.table { items := [.column "id", .column "region"], names := some ["id", "place"],
            filter := some (.call ">" [.column "amount", .lit (.int 1000)]) } "orders")

/-- Two names for one item, below a selection of everything. -/
def misnamed : Query := .nested { items := [.wildcard] }
  (.table { items := [.column "id"], names := some ["a", "b"] } "orders")

end Sample

open Sample in
/-- The filter keeps no row, so the outer selection reads a table without rows, of which it has the fields. -/
theorem Query.execute_shape_costly :
    let fetch : Fetcher := fun _ => .ok orders
    (∀ r t, fetch r = .ok t → t.WellFormed) ∧ costly.execute fetch = .ok ⟨["id", "place", "id + 1"], []⟩ ∧
      (∃ source, costly.source fetch = .ok source ∧
        ["id", "place", "id + 1"] = costly.select.header (source.getD Select.dummy).fields) ∧
      misnamed.execute fetch = .error (.shapeMismatch 1 2) ∧
      (∃ s ∈ misnamed.selects, s.Misnamed) ∧ ∀ w : Sql.QueryExpr, w.plan ≠ .ok misnamed := by
  intro fetch
  have hf : ∀ r t, fetch r = .ok t → t.WellFormed := by
    rintro r t ⟨⟩
    decide
  have hcostly : costly.execute fetch = .ok ⟨["id", "place", "id + 1"], []⟩ := rfl
  have hmisnamed : misnamed.execute fetch = .error (.shapeMismatch 1 2) := rfl
  obtain ⟨hok, -, -, -⟩ := Query.execute_shape hf costly
  obtain ⟨-, -, hshape, -⟩ := Query.execute_shape hf misnamed
  obtain ⟨source, hsource, -, hfields, -⟩ := hok _ hcostly
  rcases hshape 1 2 hmisnamed with ⟨hlevel, hplan⟩ | ⟨label, -, hfetch⟩
  · exact ⟨hf, hcostly, ⟨source, hsource, hfields⟩, hmisnamed, hlevel, hplan⟩
  · cases hfetch

/-! ## Stored tables -/

namespace Database

variable {db : Database} {read : ReadFile}

theorem wellFormed_replace {c : Catalog} {name : String} {t : Table} (hc : c.WellFormed) (ht : t.WellFormed) :
    (c.replace name t).WellFormed := by
  intro p hp
  rcases List.mem_append.1 hp with hp | hp
  · exact hc p (Catalog.mem_of_erase (List.mem_filter.1 hp).1)
  · rw [List.mem_singleton.1 hp]
    exact ht

theorem wellFormed_create (hc : db.catalog.WellFormed) (c : Sql.CreateTable) :
    (db.create read c).2.catalog.WellFormed := by
  rcases create_cases db read c with ⟨-, -, -, h⟩ | ⟨e, h⟩ | ⟨q, t, -, hquery, h⟩
  · rw [h]
    exact hc
  · rw [h]
    exact hc
  · rw [h]
    obtain ⟨planned, -, hrun⟩ := bind_ok hquery
    obtain ⟨_, -, ht, -⟩ := Query.execute_ok_shape (mapError_eq_ok hrun)
    exact wellFormed_replace hc ht

theorem wellFormed_drop (ifExists : Bool) : ∀ (names : List String) {db : Database}, db.catalog.WellFormed →
    (db.drop ifExists names).2.catalog.WellFormed
  | [], _, hc => hc
  | name :: r, db, hc => by
    rw [drop]
    split
    · have herase : (db.catalog.erase name).WellFormed := fun p hp => hc p (Catalog.mem_of_erase hp)
      exact wellFormed_drop ifExists r herase
    · split
      · exact wellFormed_drop ifExists r hc
      · exact hc

/-- A statement stores well-formed tables only. -/
theorem wellFormed_run (hc : db.catalog.WellFormed) (s : Sql.Statement) : (db.run read s).2.catalog.WellFormed := by
  cases s with
  | query q => exact hc
  | createTable c => exact wellFormed_create hc c
  | dropTable ifExists names => exact wellFormed_drop ifExists _ hc
  | other spelling => exact hc

/-- So do all statements that are run one after the other. -/
theorem wellFormed_runAll : ∀ (ss : List Sql.Statement) {db : Database} (last : Except Sql.Error Outcome),
    db.catalog.WellFormed → (db.runAll read last ss).2.catalog.WellFormed
  | [], _, _, hc => hc
  | s :: r, db, last, hc => by
    have hstep : (db.run read s).2.catalog.WellFormed := wellFormed_run hc s
    rw [runAll]
    split
    · rename_i out db' hrun
      rw [hrun] at hstep
      exact wellFormed_runAll r (.ok out) hstep
    · rename_i e db' hrun
      rw [hrun] at hstep
      exact hstep

end Database

end TableQuery
