/-
Under which names a stored table is found. A table is stored under the lower case of a name, by the full
mapping of all letters, and looked up by the name itself, up to the case of ASCII letters. So it is found
under the name that it was stored with exactly if lowering this name changes ASCII letters only. A name
with a capital letter beyond ASCII never finds the table, though it creates, replaces and drops it.
-/
import TableQuery.Proofs.Database.Registry
import TableQuery.Proofs.Sql.Selection

namespace TableQuery.Database

open Sql (Frame Selection QueryExpr)

/-! ## Storing and keeping -/

/-- The operation stores a table under a name: by registration, or as the result of a query. -/
def Operation.Stores (db : Database) (name : String) (t : Table) : Operation → Prop
  | .register n u => n = name ∧ u = t
  | .run read (.createTable c) => Sql.Name.text c.name = name ∧
      ∃ q rows cols, c.query = some q ∧ db.catalog.runQuery read q = .ok t ∧
        (db.create read c).1 = .ok (.notices [.created (storedName name) rows cols])
  | .run _ _ => False

/-- Operations lead from the first database to the second one, and none of them stores a table under the
name or drops the one that is there. -/
inductive Keeps (name : String) : Database → Database → Prop
  | refl (db : Database) : Keeps name db db
  | step {db db' : Database} (op : Operation) : ¬ op.Replaces db name → Keeps name (db.apply op) db' →
      Keeps name db db'

variable {db db' : Database} {name : String} {t : Table} {op : Operation}

/-- What an operation stores is the entry under the lower case of the name. -/
theorem mem_apply_of_stores (h : db.catalog.WellNamed) (hs : op.Stores db name t) :
    (storedName name, t) ∈ (db.apply op).catalog.tables := by
  cases op with
  | register n u =>
    obtain ⟨rfl, rfl⟩ := hs
    exact (h.mem_replace_iff (lower_storedName n)).2 (.inr rfl)
  | run read s =>
    cases s with
    | query q => exact hs.elim
    | other spelling => exact hs.elim
    | dropTable ifExists names => exact hs.elim
    | createTable c =>
      obtain ⟨rfl, q, rows, cols, hq, ht, hcreated⟩ := hs
      show (storedName (Sql.Name.text c.name), t) ∈ (db.create read c).2.catalog.tables
      obtain ⟨-, -, -, hc⟩ | ⟨e, hc⟩ | ⟨q', t', hq', ht', hc⟩ := create_cases db read c
      · rw [hc] at hcreated
        cases hcreated
      · rw [hc] at hcreated
        cases hcreated
      · cases hq.symm.trans hq'
        cases ht.symm.trans ht'
        rw [hc]
        exact (h.mem_replace_iff (lower_storedName _)).2 (.inr rfl)

theorem Keeps.mem_tables (hk : Keeps name db db') (h : db.catalog.WellNamed) (hm : (name, t) ∈ db.catalog.tables) :
    db'.catalog.WellNamed ∧ (name, t) ∈ db'.catalog.tables := by
  induction hk with
  | refl db => exact ⟨h, hm⟩
  | step op hop _ ih => exact ih (wellNamed_apply h op) ((mem_apply_iff h hop).2 hm)

/-! ## Looking up -/

/-- A selection from a name reads the columns that it refers to of the table that the name finds. -/
theorem source_of_get? {c : Catalog} {read : ReadFile} {s : Select} (h : c.get? name = some t) :
    (Query.table s name).source (c.fetch read) = (t.project s.tokens).map some := by
  have hresolve : c.resolve read name = .ok t := by rw [Catalog.resolve, h]
  rw [Query.source, Catalog.fetch, hresolve]
  rfl

/-- A table that is stored with a name, and neither replaced nor dropped since, is found under this name,
by its size as well as by a selection from the name, exactly if the name and its lower case are equal up
to the case of ASCII letters. -/
theorem stored_found_iff (hr : db.Reachable) (hs : op.Stores db name t)
    (hk : Keeps (storedName name) (db.apply op) db') :
    (db'.catalog.info? name = some (t.size, t.width) ∧
      ∀ (read : ReadFile) (frame : Frame) (s : Selection) (written : Sql.Name) (rest : String) (q : Query),
        Sql.Name.text written = name → (QueryExpr.mk frame (.select s (.table written rest))).plan = .ok q →
          q.source (db'.catalog.fetch read) = (t.project q.select.tokens).map some) ↔
      Text.sameLetters (storedName name) name = true := by
  have hw := hr.wellNamed
  obtain ⟨hw', hm⟩ := hk.mem_tables (wellNamed_apply hw op) (mem_apply_of_stores hw hs)
  constructor
  · rintro ⟨hinfo, -⟩
    obtain ⟨u, hget, -⟩ := Option.map_eq_some_iff.1 hinfo
    exact (hw'.get?_eq_some_iff.1 hget).2
  · intro hsame
    have hget : db'.catalog.get? name = some t := hw'.get?_eq_some_iff.2 ⟨hm, hsame⟩
    refine ⟨by rw [Catalog.info?, hget]; rfl, fun read frame s written rest q hn hplan => ?_⟩
    obtain ⟨sel, -, rfl⟩ := QueryExpr.plan_table_ok hplan
    rw [hn]
    exact source_of_get? hget

/-! ## Letters beyond ASCII -/

namespace Sample

/-- A drop that fails before it comes to the second name. -/
def dropMissing : Operation :=
  .run (fun _ => .error .notFound) (.dropTable false [[{ text := "missing" }], [{ text := "Größe" }]])

/-- `SELECT AGE`, without its source. -/
def ages : Selection := { items := [.term (.column { text := "AGE" }) none] }

end Sample

open Database.Sample in
/-- Small letters beyond ASCII stay as they are, so the name is found. -/
theorem stored_found_size :
    let op : Operation := .register "Größe" members
    let stored : Database := apply {} op
    let left : Database := stored.apply dropMissing
    Reachable {} ∧ op.Stores {} "Größe" members ∧ Keeps (storedName "Größe") stored left ∧
      Text.sameLetters (storedName "Größe") "Größe" = true ∧ left.catalog.info? "Größe" = some (2, 2) ∧
      ∀ read, (Query.table { items := [.column "AGE"], names := some ["AGE"] } "Größe").source
        (left.catalog.fetch read) = .ok (some ⟨["age"], [[.int 30], [.int 20]]⟩) := by
  intro op stored left
  have hr : Reachable {} := .empty none
  have hs : op.Stores {} "Größe" members := ⟨rfl, rfl⟩
  have hkept : ¬ dropMissing.Replaces stored (storedName "Größe") := by
    rintro ⟨pre, post, ns, hnames, hok⟩
    cases pre with
    | nil =>
      have hfirst : "missing" = "größe" := (List.cons.inj hnames).1
      exact absurd hfirst (by decide)
    | cons first pre =>
      have hfirst : "missing" = first := (List.cons.inj hnames).1
      subst hfirst
      cases hok
  have hk : Keeps (storedName "Größe") stored left := .step dropMissing hkept (.refl left)
  have hsame : Text.sameLetters (storedName "Größe") "Größe" = true := rfl
  obtain ⟨hinfo, hread⟩ := (stored_found_iff hr hs hk).2 hsame
  exact ⟨hr, hs, hk, hsame, hinfo, fun read => hread read {} ages [{ text := "Größe" }] "" _ rfl rfl⟩

open Database.Sample in
/-- The lower case of a capital letter beyond ASCII is another name. -/
theorem not_stored_found :
    ¬ ∀ (db : Database) (name : String) (t : Table), db.Reachable →
      (db.register name t).catalog.info? name = some (t.size, t.width) := by
  intro h
  have hinfo := h {} "Ä" members (.empty none)
  have hnone : (register {} "Ä" members).catalog.info? "Ä" = none := rfl
  rw [hnone] at hinfo
  cases hinfo

end TableQuery.Database
