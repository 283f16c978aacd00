/-
The stored tables as a map with one entry for each name. Whatever operations a database has gone through,
its names are in lower case and none occurs twice; so a name in any spelling finds at most one table, in
whatever order the tables are kept. An operation changes the entries of the names that it mentions only,
and a table that is created holds the result of its query on the tables that were there before.
-/
import TableQuery.Proofs.Catalog
import TableQuery.Proofs.Except

namespace TableQuery.Database

open Sql (Statement CreateTable)

/-! ## Operations -/

inductive Operation where
  | register (name : String) (t : Table)
  | run (read : ReadFile) (s : Statement)

/-- The database after an operation, also after one that fails. -/
def apply (db : Database) : Operation → Database
  | .register name t => db.register name t
  | .run read s => (db.run read s).2

/-- The names under which an operation may store or drop a table. -/
def Operation.names : Operation → List String
  | .register name _ => [storedName name]
  | .run _ (.createTable c) => [storedName (Sql.Name.text c.name)]
  | .run _ (.dropTable _ names) => names.map fun n => storedName (Sql.Name.text n)
  | .run _ _ => []

/-- The databases that operations lead to from one without tables. -/
inductive Reachable : Database → Prop
  | empty (baseDir : Option String) : Reachable ⟨{ baseDir := baseDir }⟩
  | apply {db : Database} (op : Operation) : Reachable db → Reachable (db.apply op)

/-- All names before this one can be dropped, so a drop of several names comes to it. -/
def DropReaches (db : Database) (ifExists : Bool) (names : List String) (name : String) : Prop :=
  ∃ pre post ns, names = pre ++ name :: post ∧ (db.drop ifExists pre).1 = .ok ns

/-- The operation stores a table under a name in lower case, or drops the one that is there. -/
def Operation.Replaces (db : Database) (name : String) : Operation → Prop
  | .register n _ => storedName n = name
  | .run read (.createTable c) => storedName (Sql.Name.text c.name) = name ∧
      ∃ rows cols, (db.create read c).1 = .ok (.notices [.created name rows cols])
  | .run _ (.dropTable ifExists names) =>
    db.DropReaches ifExists (names.map fun n => storedName (Sql.Name.text n)) name
  | .run _ _ => False

variable {db : Database} {read : ReadFile} {name : String} {t : Table} {p : String × Table}

theorem Operation.mem_names_of_replaces {op : Operation} (h : op.Replaces db name) : name ∈ op.names := by
  cases op with
  | register n u => exact List.mem_singleton.2 h.symm
  | run read s =>
    cases s with
    | createTable c => exact List.mem_singleton.2 h.1.symm
    | dropTable ifExists names =>
      obtain ⟨pre, post, ns, hnames, -⟩ := h
      rw [Operation.names, hnames]
      exact List.mem_append_right _ (List.mem_cons_self ..)
    | query q => exact h.elim
    | other spelling => exact h.elim

/-! ## One operation -/

theorem lower_storedName (name : String) : Text.lower (storedName name) = storedName name := Text.lower_lower name

/-- The three outcomes of a creation: the table is there and kept, there is an error, or the result of the
query is stored. -/
theorem create_cases (db : Database) (read : ReadFile) (c : CreateTable) :
    let name := storedName (Sql.Name.text c.name)
    (c.ifNotExists = true ∧ c.orReplace = false ∧ db.catalog.contains name = true ∧
      db.create read c = (.ok (.notices [.alreadyThere name]), db)) ∨
    (∃ e, db.create read c = (.error e, db)) ∨
    ∃ q t, c.query = some q ∧ db.catalog.runQuery read q = .ok t ∧
      db.create read c = (.ok (.notices [.created name t.size t.width]), ⟨db.catalog.replace name t⟩) := by
  intro name
  unfold create
  simp only
  split
  · rename_i hthere
    rw [Bool.and_eq_true, Bool.not_eq_true'] at hthere
    split
    · rename_i hskip
      exact .inl ⟨hskip, hthere.2, hthere.1, rfl⟩
    · exact .inr (.inl ⟨_, rfl⟩)
  · cases hq : c.query with
    | none => exact .inr (.inl ⟨_, rfl⟩)
    | some q =>
      cases ht : db.catalog.runQuery read q with
      | error e => exact .inr (.inl ⟨e, by simp only [ht]⟩)
      | ok t => exact .inr (.inr ⟨q, t, rfl, ht, by simp only [ht]; rfl⟩)

theorem wellNamed_drop (ifExists : Bool) : ∀ (names : List String) (db : Database), db.catalog.WellNamed →
    (db.drop ifExists names).2.catalog.WellNamed
  | [], _, h => h
  | name :: r, db, h => by
    rw [drop]
    split
    · exact wellNamed_drop ifExists r ⟨db.catalog.erase name⟩ (h.erase name)
    · split
      · exact wellNamed_drop ifExists r db h
      · exact h

/-- A drop leaves the entries of the names that it does not come to. -/
theorem mem_drop_iff {ifExists : Bool} : ∀ {names : List String} {db : Database}, db.catalog.WellNamed →
    (∀ name ∈ names, Text.lower name = name) → ¬ db.DropReaches ifExists names p.1 →
      (p ∈ (db.drop ifExists names).2.catalog.tables ↔ p ∈ db.catalog.tables)
  | [], _, _, _, _ => Iff.rfl
  | name :: r, db, h, hl, hn => by
    have hne : p.1 ≠ name := by
      rintro rfl
      exact hn ⟨[], r, [], rfl, rfl⟩
    have hname := hl name (List.mem_cons_self ..)
    have hr : ∀ n ∈ r, Text.lower n = n := fun n hm => hl n (List.mem_cons_of_mem _ hm)
    rw [drop]
    split
    · rename_i hthere
      have hrest : ¬ DropReaches ⟨db.catalog.erase name⟩ ifExists r p.1 := by
        rintro ⟨pre, post, ns, rfl, hok⟩
        refine hn ⟨name :: pre, post, .dropped name :: ns, rfl, ?_⟩
        rw [drop, if_pos hthere]
        simp only [hok, map_ok]
      have herased : p ∈ (db.catalog.erase name).tables ↔ p ∈ db.catalog.tables :=
        (h.mem_erase_iff hname).trans (and_iff_left hne)
      exact (mem_drop_iff (h.erase name) hr hrest).trans herased
    · rename_i hmissing
      split
      · rename_i hskip
        refine mem_drop_iff h hr ?_
        rintro ⟨pre, post, ns, rfl, hok⟩
        refine hn ⟨name :: pre, post, .notThere name :: ns, rfl, ?_⟩
        rw [drop, if_neg hmissing, if_pos hskip]
        simp only [hok, map_ok]
      · exact Iff.rfl

theorem wellNamed_apply (h : db.catalog.WellNamed) (op : Operation) : (db.apply op).catalog.WellNamed := by
  cases op with
  | register n u => exact h.replace (lower_storedName n) u
  | run read s =>
    cases s with
    | query q => exact h
    | other spelling => exact h
    | dropTable ifExists names => exact wellNamed_drop ifExists _ db h
    | createTable c =>
      show (db.create read c).2.catalog.WellNamed
      obtain ⟨-, -, -, hc⟩ | ⟨e, hc⟩ | ⟨q, t, -, -, hc⟩ := create_cases db read c
      · rw [hc]; exact h
      · rw [hc]; exact h
      · rw [hc]; exact h.replace (lower_storedName _) t

/-- An operation leaves the entries that it does not replace. -/
theorem mem_apply_iff (h : db.catalog.WellNamed) {op : Operation} (hn : ¬ op.Replaces db p.1) :
    p ∈ (db.apply op).catalog.tables ↔ p ∈ db.catalog.tables := by
  cases op with
  | register n u =>
    have hne : p.1 ≠ storedName n := fun he => hn he.symm
    refine (h.mem_replace_iff (lower_storedName n)).trans ⟨?_, fun hp => .inl ⟨hp, hne⟩⟩
    rintro (⟨hp, -⟩ | rfl)
    · exact hp
    · exact absurd rfl hne
  | run read s =>
    cases s with
    | query q => exact Iff.rfl
    | other spelling => exact Iff.rfl
    | dropTable ifExists names =>
      refine mem_drop_iff h (fun name hm => ?_) hn
      obtain ⟨n, -, rfl⟩ := List.mem_map.1 hm
      exact lower_storedName _
    | createTable c =>
      show p ∈ (db.create read c).2.catalog.tables ↔ _
      obtain ⟨-, -, -, hc⟩ | ⟨e, hc⟩ | ⟨q, t, -, -, hc⟩ := create_cases db read c
      · rw [hc]
      · rw [hc]
      · have hne : p.1 ≠ storedName (Sql.Name.text c.name) := fun he => hn ⟨he.symm, t.size, t.width, by rw [hc, he]⟩
        rw [hc]
        refine (h.mem_replace_iff (lower_storedName _)).trans ⟨?_, fun hp => .inl ⟨hp, hne⟩⟩
        rintro (⟨hp, -⟩ | rfl)
        · exact hp
        · exact absurd rfl hne

/-! ## All databases -/

theorem Reachable.wellNamed (h : db.Reachable) : db.catalog.WellNamed := by
  induction h with
  | empty baseDir => exact ⟨fun p hp => (List.not_mem_nil hp).elim, List.nodup_nil⟩
  | apply op _ ih => exact wellNamed_apply ih op

theorem Reachable.runAll : ∀ {ss : List Statement} {db : Database} {last : Except Sql.Error Outcome}, db.Reachable →
    (db.runAll read last ss).2.Reachable
  | [], _, _, h => h
  | s :: r, db, last, h => by
    have hs := h.apply (.run read s)
    rw [Database.apply] at hs
    rw [Database.runAll]
    split
    · rename_i out db1 hrun
      rw [hrun] at hs
      exact runAll hs
    · rename_i e db1 hrun
      rw [hrun] at hs
      exact hs

/-- A script, also one that fails, leads to such a database again. -/
theorem Reachable.executeScript (h : db.Reachable) (read : ReadFile) (text : String) :
    (db.executeScript read text).2.Reachable := by
  unfold Database.executeScript
  split
  · exact h
  · exact runAll h

/-- In every database that operations lead to, the stored tables are a map with one entry for each name.

- No capital letter of ASCII stands in a name, no two names are equal up to the case of these letters,
  and what a name finds does not depend on the order in which the tables are kept.
- An operation, also one that fails, leaves the entries under names that it does not mention.
- A creation that succeeds has kept the table that was there, as it was asked to, or has stored the result
  that its query has on the tables before, as the one entry under its name. -/
theorem Reachable.registry (h : db.Reachable) :
    ((∀ p ∈ db.catalog.tables, ∀ c ∈ p.1.toList, c.isUpper = false) ∧
      (db.catalog.tables.Pairwise fun p p' => Text.sameLetters p.1 p'.1 = false) ∧
      (∀ name : String, ∀ p ∈ db.catalog.tables, ∀ p' ∈ db.catalog.tables, Text.sameLetters p.1 name = true →
        Text.sameLetters p'.1 name = true → p = p') ∧
      ∀ c : Catalog, c.tables.Perm db.catalog.tables → ∀ name, c.entry? name = db.catalog.entry? name) ∧
    (∀ (op : Operation) (name : String) (t : Table), name ∉ op.names →
      ((name, t) ∈ (db.apply op).catalog.tables ↔ (name, t) ∈ db.catalog.tables)) ∧
    ∀ (read : ReadFile) (c : CreateTable) (out : Outcome) (db' : Database),
      db.run read (.createTable c) = (.ok out, db') →
      (c.ifNotExists = true ∧ c.orReplace = false ∧
        db.catalog.contains (storedName (Sql.Name.text c.name)) = true ∧ db' = db) ∨
      ∃ q t, c.query = some q ∧ db.catalog.runQuery read q = .ok t ∧
        ∀ u, (storedName (Sql.Name.text c.name), u) ∈ db'.catalog.tables ↔ u = t := by
  have hw := h.wellNamed
  refine ⟨⟨fun p hp c hc => ?_, hw.pairwise_names, fun name p hp p' hp' hs hs' => ?_,
    fun c hp name => hw.entry?_of_perm hp name⟩, fun op name t hn => ?_, fun read c out db' hrun => ?_⟩
  · rw [← hw.lower p hp] at hc
    exact Text.not_isUpper_of_mem_lower hc
  · exact hw.eq_of_sameLetters hp hp' (Text.sameLetters_trans hs (Text.sameLetters_symm hs'))
  · exact mem_apply_iff hw fun hr => hn (Operation.mem_names_of_replaces hr)
  · rw [run] at hrun
    obtain ⟨hskip, hkeep, hthere, hc⟩ | ⟨e, hc⟩ | ⟨q, t, hq, ht, hc⟩ := create_cases db read c
    · rw [hc] at hrun
      cases hrun
      exact .inl ⟨hskip, hkeep, hthere, rfl⟩
    · rw [hc] at hrun
      cases hrun
    · rw [hc] at hrun
      cases hrun
      refine .inr ⟨q, t, hq, ht, fun u => (hw.mem_replace_iff (lower_storedName _)).trans ?_⟩
      simp

/-! ## A table made of itself -/

namespace Sample

def members : Table := ⟨["id", "age"], [[.int 1, .int 30], [.int 2, .int 20]]⟩

/-- `CREATE OR REPLACE TABLE Members AS SELECT age FROM MEMBERS`. -/
def replaceMembers : CreateTable where
  orReplace := true
  temporary := false
  ifNotExists := false
  name := [{ text := "Members" }]
  columns := ""
  query := some (.mk {} (.select { items := [.term (.column { text := "age" }) none] }
    (.table [{ text := "MEMBERS" }] "")))

def withMembers : Database := apply {} (.register "mEMBERS" members)

end Sample

open Database.Sample in
/-- The new table is made of the one that it replaces, which the query finds in another spelling. -/
theorem registry_members :
    let read : ReadFile := fun _ => .error .notFound
    let ages : Table := ⟨["age"], [[.int 30], [.int 20]]⟩
    let replaced : Database := ⟨{ tables := [("members", ages)] }⟩
    withMembers.Reachable ∧
      withMembers.run read (.createTable replaceMembers) = (.ok (.notices [.created "members" 2 1]), replaced) ∧
      ∃ q, replaceMembers.query = some q ∧ withMembers.catalog.runQuery read q = .ok ages ∧
        ∀ u, (storedName "Members", u) ∈ replaced.catalog.tables ↔ u = ages := by
  intro read ages replaced
  have hr : withMembers.Reachable := .apply _ (.empty none)
  have hrun : withMembers.run read (.createTable replaceMembers) =
      (.ok (.notices [.created "members" 2 1]), replaced) := rfl
  obtain ⟨-, hkeep, -⟩ | ⟨q, t, hq, ht, hstored⟩ := hr.registry.2.2 read replaceMembers _ _ hrun
  · cases hkeep
  · have hages : ages = t := (hstored ages).1 (List.mem_singleton_self _)
    rw [← hages] at ht hstored
    exact ⟨hr, hrun, q, hq, ht, hstored⟩

end TableQuery.Database
