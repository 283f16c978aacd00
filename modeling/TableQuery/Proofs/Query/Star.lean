/-
What a star gives. It stands for one column for each field, and each of these columns is looked up
by its name, so under a name that occurs twice the first column is read twice. A star gives the
table that it reads exactly if all columns of one name are equal.
-/
import TableQuery.Proofs.Query.Columns
import TableQuery.Proofs.Catalog
import TableQuery.Proofs.Csv

namespace TableQuery

/-! ## Selections of everything -/

namespace Select

/-- The only item is a star, and there is no clause. -/
structure Star (s : Select) : Prop extends s.Plain where
  items : s.items = [.wildcard]
  filter : s.filter = none

variable {s : Select}

theorem expand_star (h : s.items = [.wildcard]) (hn : s.checkNames = .ok ()) (fields : List String) :
    s.expand fields = fields.map fun f => (.column f, f) := by
  have hzip : ∃ name, s.items.zip (s.names.getD (Expr.labels s.items)) = [(.wildcard, name)] := by
    unfold checkNames at hn
    rw [h] at hn ⊢
    cases hs : s.names with
    | none => exact ⟨"*", rfl⟩
    | some ns =>
      rw [hs] at hn
      match ns, hn with
      | [name], _ => exact ⟨name, rfl⟩
  obtain ⟨name, hzip⟩ := hzip
  unfold Select.expand
  rw [hzip]
  simp

theorem Star.check (h : s.Star) (hn : s.checkNames = .ok ()) : s.check true = .ok () := by
  have hitems : s.checkItems true = .ok () := by
    unfold checkItems
    rw [h.items]; rfl
  have hclauses : s.checkClauses = .ok () := by
    unfold checkClauses clauses
    rw [h.filter, h.groupBy, h.having, h.orderBy]; rfl
  have haggregates : s.checkAggregates = .ok () := by
    unfold checkAggregates
    rw [h.filter, h.groupBy]; rfl
  unfold Select.check
  rw [hitems, hclauses, haggregates, hn]; rfl

end Select

/-- Each column replaced by the first one of its name. -/
def Table.firsts (t : Table) : Table :=
  ⟨t.fields, t.rows.map fun row => t.fields.map fun f => row.getD (t.fields.idxOf f) .null⟩

/-- A star gives of the rows that the filter keeps under each name the first column. -/
theorem Select.run_star {s : Select} {t k : Table} (h : s.Plain) (hi : s.items = [.wildcard])
    (hn : s.checkNames = .ok ()) (hw : 0 < t.width) (hk : s.kept t = .ok k) : s.run (some t) = .ok k.firsts := by
  have hf : k.fields = t.fields := fields_kept hk
  have hitems : s.itemsOn t.fields = t.fields.map .column := by
    rw [itemsOn, expand_star hi hn, List.map_map]; rfl
  have hnames : s.namesOn t.fields = t.fields := by
    rw [namesOn, expand_star hi hn, List.map_map]; exact List.map_id _
  have hr : t.Resolves (t.fields.map .column) := by
    intro name hm
    obtain ⟨f, hf, he⟩ := List.mem_map.1 hm
    cases he; exact t.columnIndex?_isSome_of_mem hf
  have hne : t.fields.isEmpty = false := List.isEmpty_eq_false_iff.2 (List.ne_nil_of_length_pos hw)
  rw [run_columns h hitems hr hk, hnames, hne, Table.firsts, hf]
  refine congrArg Except.ok (congrArg (Table.mk t.fields) ?_)
  refine List.map_congr_left fun row _ => List.map_congr_left fun f hf => ?_
  rw [Table.seenAt?, if_pos hf, Table.columnIndex?_of_mem hf, Option.getD_some]

/-- A star gives of each name the first column. -/
theorem Query.execute_star {fetch : Fetcher} {q : Query} {t : Table} (hw : 0 < t.width) (h : q.select.Star)
    (hn : q.select.checkNames = .ok ()) (hs : q.source fetch = .ok (some t)) : q.execute fetch = .ok t.firsts := by
  have hsource : q.hasSource = true := by
    cases q with
    | constant s => cases hs
    | table s label => rfl
    | nested s inner => rfl
  have hk : q.select.kept t = .ok t := by rw [Select.kept, h.filter]
  rw [Query.execute_of_source (hsource ▸ h.check hn) hs, Select.run_star h.toPlain h.items hn hw hk]

theorem Table.firsts_eq_iff {t : Table} (ht : t.WellFormed) :
    t.firsts = t ↔ ∀ i < t.width, t.column i = t.column (t.fields.idxOf (t.fieldAt i)) := by
  have hrow : ∀ row ∈ t.rows, (t.fields.map fun f => row.getD (t.fields.idxOf f) .null) = row ↔
      ∀ i < t.width, row.getD i .null = row.getD (t.fields.idxOf (t.fieldAt i)) .null := by
    intro row hr
    have hlen : row.length = t.fields.length := ht row hr
    constructor
    · intro h i hi
      have hi' : i < t.fields.length := hi
      conv_lhs => rw [← h]
      rw [fieldAt, List.getD_eq_getElem _ _ hi', List.getD_eq_getElem _ _ (by simpa using hi'), List.getElem_map]
    · intro h
      refine List.ext_getElem (by simp [hlen]) fun i h1 h2 => ?_
      have hi : i < t.fields.length := hlen ▸ h2
      have := h i hi
      rw [fieldAt, List.getD_eq_getElem _ _ hi, List.getD_eq_getElem _ _ h2] at this
      rw [List.getElem_map, this]
  -- columns are equal if they are equal in every row
  have hcolumn : ∀ i, t.column i = t.column (t.fields.idxOf (t.fieldAt i)) ↔
      ∀ row ∈ t.rows, row.getD i .null = row.getD (t.fields.idxOf (t.fieldAt i)) .null :=
    fun i => List.map_inj_left
  have hrows : t.firsts = t ↔ ∀ row ∈ t.rows, (t.fields.map fun f => row.getD (t.fields.idxOf f) .null) = row := by
    constructor
    · intro h
      have h' : t.firsts.rows = t.rows.map id := by rw [h, List.map_id]
      exact List.map_inj_left.1 h'
    · intro h
      refine congrArg (Table.mk t.fields) ?_
      exact (List.map_inj_left.2 h).trans (List.map_id _)
  rw [hrows]
  constructor
  · exact fun h i hi => (hcolumn i).2 fun row hr => (hrow row hr).1 (h row hr) i hi
  · exact fun h row hr => (hrow row hr).2 fun i hi => (hcolumn i).1 (h i hi) row hr

/-- Under names that are pairwise different every column is the first one of its name. -/
theorem Table.firsts_eq {t : Table} (ht : t.WellFormed) (hd : t.fields.Nodup) : t.firsts = t := by
  refine (firsts_eq_iff ht).2 fun i hi => ?_
  have hi' : i < t.fields.length := hi
  rw [fieldAt, List.getD_eq_getElem _ _ hi', hd.idxOf_getElem i hi']

/-! ## A table created from a file -/

/-- `SELECT * FROM read_csv('path')`. -/
def Sql.starOfFile (path : String) : QueryExpr :=
  .mk {} (.select { items := [.star] } (.function [{ text := "read_csv" }] [.term (.literal (.text path))] ""))

theorem Sql.plan_starOfFile (path : String) :
    (starOfFile path).plan = .ok (.table { items := [.wildcard], names := some ["*"] } path) := by
  rfl

/-- A table created from all columns of a file holds of each name the first column. -/
theorem Database.create_starOfFile {db : Database} {read : ReadFile} {c : Sql.CreateTable} {path : String} {t : Table}
    (hw : 0 < t.width) (hc : c.query = some (Sql.starOfFile path))
    (hfree : db.catalog.contains (storedName (Sql.Name.text c.name)) = false ∨ c.orReplace = true)
    (ht : db.catalog.resolve read path = .ok t) :
    (db.run read (.createTable c)).2 = db.register (Sql.Name.text c.name) t.firsts := by
  have hstar : Select.Star { items := [.wildcard], names := some ["*"] } := ⟨⟨rfl, rfl, rfl, rfl⟩, rfl, rfl⟩
  have hfetch : db.catalog.fetch read ⟨path, Select.tokens { items := [.wildcard], names := some ["*"] }⟩ = .ok t := by
    unfold Catalog.fetch
    rw [ht]; rfl
  have hexec : (Query.table { items := [.wildcard], names := some ["*"] } path).execute (db.catalog.fetch read) =
      .ok t.firsts := by
    refine Query.execute_star hw hstar rfl ?_
    rw [Query.source, hfetch]; rfl
  have hrun : db.catalog.runQuery read (Sql.starOfFile path) = .ok t.firsts := by
    unfold Catalog.runQuery
    rw [Sql.plan_starOfFile, ok_bind, hexec]; rfl
  have hcond : (db.catalog.contains (storedName (Sql.Name.text c.name)) && !c.orReplace) = false := by
    rcases hfree with h | h <;> rw [h]
    · rfl
    · exact Bool.and_false _
  rw [run, create, hcond, hc]
  simp only [Bool.false_eq_true, if_false, hrun]
  rfl

/-- A star gives the table that it reads, and a table created from all columns of a file holds what
the file holds, exactly if every column is equal to the first one of its name. -/
theorem star_identity_iff {t : Table} (ht : t.WellFormed) (hw : 0 < t.width) :
    (∀ (fetch : Fetcher) (q : Query), q.select.Star → q.select.checkNames = .ok () → q.source fetch = .ok (some t) →
      (q.execute fetch = .ok t ↔ ∀ i < t.width, t.column i = t.column (t.fields.idxOf (t.fieldAt i)))) ∧
    ∀ (db : Database) (read : ReadFile) (c : Sql.CreateTable) (path : String),
      c.query = some (Sql.starOfFile path) →
      db.catalog.contains (Database.storedName (Sql.Name.text c.name)) = false ∨ c.orReplace = true →
      db.catalog.resolve read path = .ok t →
      ((db.run read (.createTable c)).2.catalog.get? (Database.storedName (Sql.Name.text c.name)) = some t ↔
        ∀ i < t.width, t.column i = t.column (t.fields.idxOf (t.fieldAt i))) := by
  refine ⟨fun fetch q h hn hs => ?_, fun db read c path hc hfree hr => ?_⟩
  · rw [Query.execute_star hw h hn hs, ← Table.firsts_eq_iff ht, Except.ok.injEq]
  · rw [Database.create_starOfFile hw hc hfree hr, ← Table.firsts_eq_iff ht, Database.register, Catalog.get?_replace,
      Option.some.injEq]

/-! ## Headers with and without a repeated name -/

namespace Sample

def createStar : Sql.CreateTable where
  orReplace := false
  temporary := false
  ifNotExists := false
  name := [{ text := "x" }]
  columns := ""
  query := some (Sql.starOfFile "d.csv")

/-- The text `a,A`, `1,2` in two lines. -/
def twoColumns : List UInt8 := [97, 44, 65, 10, 49, 44, 50, 10]

def pair : Table := ⟨["a", "A"], [[.int 1, .int 2]]⟩

theorem resolve_twoColumns : Catalog.resolve {} (fun _ => .ok twoColumns) "d.csv" = .ok pair := by
  have hnone : Catalog.get? {} "d.csv" = none := rfl
  have hpath : Catalog.csvPath? {} "d.csv" = some "d.csv" := by decide
  have hrecords : Csv.records (Csv.skipMark twoColumns) =
      [(twoColumns, [[97], [65]]), ([49, 44, 50, 10], [[49], [50]])] := by
    rw [Csv.records_of_some rfl, Csv.records_of_some rfl, Csv.records_of_none rfl]
    rfl
  have htable : Csv.tableOfBytes twoColumns = .ok pair := by
    unfold Csv.tableOfBytes
    rw [hrecords]; rfl
  unfold Catalog.resolve
  simp only [hnone, hpath, Catalog.readCsv, htable]

end Sample

open Sample in
/-- Names that differ in letter case only are different names. -/
theorem star_identity_pair :
    pair.WellFormed ∧ 0 < pair.width ∧
      (Query.table { items := [.wildcard] } "t").execute (fun _ => .ok pair) = .ok pair ∧
      (Database.run {} (fun _ => .ok twoColumns) (.createTable createStar)).2.catalog.get? "x" = some pair := by
  have ht : pair.WellFormed := by decide
  have hw : 0 < pair.width := by decide
  have hcolumns : ∀ i < pair.width, pair.column i = pair.column (pair.fields.idxOf (pair.fieldAt i)) := by decide
  have hstar : Select.Star { items := [.wildcard] } := ⟨⟨rfl, rfl, rfl, rfl⟩, rfl, rfl⟩
  obtain ⟨hquery, hcreate⟩ := star_identity_iff ht hw
  exact ⟨ht, hw, (hquery _ (.table { items := [.wildcard] } "t") hstar rfl rfl).2 hcolumns,
    (hcreate {} _ createStar "d.csv" rfl (.inl rfl) resolve_twoColumns).2 hcolumns⟩

open Sample in
/-- Of two columns of one name a star gives the first one twice. -/
theorem not_star_identity :
    ¬ ∀ (fetch : Fetcher) (q : Query) (t : Table), t.WellFormed → 0 < t.width → q.select.Star →
      q.select.checkNames = .ok () → q.source fetch = .ok (some t) → q.execute fetch = .ok t := by
  intro h
  have hrun := h (fun _ => .ok ⟨["a", "a"], [[.int 1, .int 2]]⟩) (.table { items := [.wildcard] } "t")
    ⟨["a", "a"], [[.int 1, .int 2]]⟩ (by decide) (by decide) ⟨⟨rfl, rfl, rfl, rfl⟩, rfl, rfl⟩ rfl rfl
  have hexec : (Query.table { items := [.wildcard] } "t").execute (fun _ => .ok ⟨["a", "a"], [[.int 1, .int 2]]⟩) =
      .ok ⟨["a", "a"], [[.int 1, .int 1]]⟩ := rfl
  rw [hexec, Except.ok.injEq] at hrun
  exact absurd hrun (by decide)

end TableQuery
