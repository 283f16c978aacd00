/-
What a failing statement leaves behind. A query and the creation of a table fail before they change
anything. Tables are dropped one after the other, so a drop that fails has dropped the tables named
before the one that is missing: it leaves the database as it was exactly if its first name is missing
already.
-/
import TableQuery.Proofs.Catalog
import TableQuery.Proofs.Except

namespace TableQuery

/-! ## Dropping -/

namespace Catalog

theorem length_erase_lt {c : Catalog} {name : String} (h : c.contains name = true) :
    (c.erase name).tables.length < c.tables.length := by
  rw [contains, get?, Option.isSome_map] at h
  obtain ⟨⟨key, t⟩, he⟩ := Option.isSome_iff_exists.1 h
  have hm : (key, t) ∈ c.tables := mem_of_entry? he
  unfold erase
  rw [he]
  simp only
  rw [List.length_filter_lt_length_iff_exists]
  exact ⟨(key, t), hm, by simp⟩

end Catalog

/-- Whether a statement drops tables, and the first of them is there. -/
def Sql.Statement.DropsFirst (db : Database) : Sql.Statement → Prop
  | .dropTable _ (name :: _) => db.catalog.contains (Database.storedName (Sql.Name.text name)) = true
  | _ => False

namespace Database

open Sql (Statement)

theorem length_drop_le (ifExists : Bool) : ∀ (names : List String) (db : Database),
    (db.drop ifExists names).2.catalog.tables.length ≤ db.catalog.tables.length
  | [], db => Nat.le_refl _
  | name :: r, db => by
    rw [drop]
    split
    · rename_i hc
      have hle := length_drop_le ifExists r ⟨db.catalog.erase name⟩
      have hlt := Catalog.length_erase_lt hc
      simp only at hle ⊢
      omega
    · split
      · exact length_drop_le ifExists r db
      · exact Nat.le_refl _

/-- With `IF EXISTS` a drop succeeds. -/
theorem drop_ifExists : ∀ (names : List String) (db : Database), ∃ ns, (db.drop true names).1 = .ok ns
  | [], db => ⟨[], rfl⟩
  | name :: r, db => by
    rw [drop]
    split
    · obtain ⟨ns, h⟩ := drop_ifExists r ⟨db.catalog.erase name⟩
      exact ⟨.dropped name :: ns, by simp only [h, map_ok]⟩
    · obtain ⟨ns, h⟩ := drop_ifExists r db
      exact ⟨.notThere name :: ns, by simp only [if_true, h, map_ok]⟩

/-- A drop that fails has dropped all tables before the first name that is not there. -/
theorem drop_failed {ifExists : Bool} : ∀ {names : List String} {db db' : Database} {e : Sql.Error},
    db.drop ifExists names = (.error e, db') →
      ∃ dropped name rest ns, names = dropped ++ name :: rest ∧ e = .plan (.statement (.tableMissing name)) ∧
        db.drop false dropped = (.ok ns, db') ∧ db'.catalog.contains name = false
  | [], _, _, _, h => by cases h
  | name :: r, db, db', e, h => by
    rw [drop] at h
    split at h
    · rename_i hc
      rcases hd : drop ⟨db.catalog.erase name⟩ ifExists r with ⟨result, db1⟩
      rw [hd] at h
      simp only [Prod.mk.injEq] at h
      obtain ⟨he, rfl⟩ := h
      cases result with
      | ok ns => cases he
      | error e' =>
        cases he
        obtain ⟨dropped, missing, rest, ns, rfl, he, hok, hmissing⟩ := drop_failed hd
        refine ⟨name :: dropped, missing, rest, .dropped name :: ns, rfl, he, ?_, hmissing⟩
        rw [drop, if_pos hc, hok]; rfl
    · rename_i hc
      cases ifExists with
      | true =>
        obtain ⟨ns, hok⟩ := drop_ifExists r db
        simp only [if_true, hok, map_ok, Prod.mk.injEq] at h
        cases h.1
      | false =>
        cases h
        exact ⟨[], name, r, [], rfl, rfl, rfl, by simpa using hc⟩

/-! ## Statements and scripts -/

variable {db db' : Database} {read : ReadFile} {e : Sql.Error}

theorem run_drop_failed {ifExists : Bool} {names : List Sql.Name}
    (h : db.run read (.dropTable ifExists names) = (.error e, db')) :
    db.drop ifExists (names.map fun n => storedName (Sql.Name.text n)) = (.error e, db') := by
  rw [run] at h
  rcases hd : db.drop ifExists (names.map fun n => storedName (Sql.Name.text n)) with ⟨result, db1⟩
  rw [hd] at h
  simp only [Prod.mk.injEq] at h
  obtain ⟨he, rfl⟩ := h
  cases result with
  | ok ns => cases he
  | error e' => cases he; rfl

theorem create_failed {c : Sql.CreateTable} (h : db.create read c = (.error e, db')) : db' = db := by
  unfold create at h
  simp only at h
  split at h
  · split at h <;> cases h
    rfl
  · split at h
    · cases h; rfl
    · split at h
      · cases h; rfl
      · cases h

/-- A statement that fails leaves the database as it was, unless it has dropped a table. -/
theorem run_failed {s : Statement} (h : db.run read s = (.error e, db')) : db' = db ↔ ¬ s.DropsFirst db := by
  cases s with
  | query q =>
    have hdb : db' = db := (congrArg Prod.snd h).symm
    simp [hdb, Statement.DropsFirst]
  | createTable c => simp [create_failed h, Statement.DropsFirst]
  | other spelling =>
    have hdb : db' = db := (congrArg Prod.snd h).symm
    simp [hdb, Statement.DropsFirst]
  | dropTable ifExists names =>
    obtain ⟨dropped, missing, rest, ns, hn, -, hok, hmissing⟩ := drop_failed (run_drop_failed h)
    cases names with
    | nil =>
      rw [List.map_nil] at hn
      exact absurd hn.symm (by simp)
    | cons name names =>
      rw [List.map_cons] at hn
      cases dropped with
      | nil =>
        obtain ⟨rfl, -⟩ := List.cons.inj hn
        cases hok
        simp [Statement.DropsFirst, hmissing]
      | cons first dropped =>
        obtain ⟨hfirst, -⟩ := List.cons.inj hn
        rw [drop] at hok
        split at hok
        · rename_i hc
          -- the first table is gone, and no later drop brings a table back
          have hlt := Catalog.length_erase_lt hc
          have hle := length_drop_le false dropped ⟨db.catalog.erase first⟩
          have hdb : (drop ⟨db.catalog.erase first⟩ false dropped).2 = db' := congrArg Prod.snd hok
          rw [hdb] at hle
          have hne : db' ≠ db := by
            rintro rfl
            simp only at hle
            omega
          simp [hne, Statement.DropsFirst, hfirst, hc]
        · cases hok

/-- All statements succeed, one after the other, and lead from one database to another one. -/
inductive Succeeds (read : ReadFile) : Database → List Statement → Database → Prop
  | nil (db : Database) : Succeeds read db [] db
  | cons {db db1 db2 : Database} {s : Statement} {ss : List Statement} {out : Outcome} :
      db.run read s = (.ok out, db1) → Succeeds read db1 ss db2 → Succeeds read db (s :: ss) db2

/-- A script that fails does so at one of its statements, and none behind it is run. -/
theorem runAll_failed {ss : List Statement} {last : Except Sql.Error Outcome} (hne : ss ≠ [])
    (h : db.runAll read last ss = (.error e, db')) :
    ∃ pre s post mid, ss = pre ++ s :: post ∧ Succeeds read db pre mid ∧ mid.run read s = (.error e, db') := by
  induction ss generalizing db last with
  | nil => exact absurd rfl hne
  | cons s r ih =>
    rw [runAll] at h
    rcases hs : db.run read s with ⟨result, db1⟩
    rw [hs] at h
    cases result with
    | error e' => cases h; exact ⟨[], s, r, db, rfl, .nil db, hs⟩
    | ok out =>
      simp only at h
      by_cases hr : r = []
      · subst hr; cases h
      · obtain ⟨pre, s', post, mid, rfl, hpre, hs'⟩ := ih hr h
        exact ⟨s :: pre, s', post, mid, rfl, .cons hs hpre, hs'⟩

/-- What failures leave behind: a statement that fails leaves the database as it was exactly if it does
not drop a table that is there before it comes to one that is missing; and a script that fails at a
statement leaves the database that this statement leaves, so under the same condition the one after
the statements before it. -/
theorem failure_leaves_iff (db : Database) (read : ReadFile) :
    (∀ (s : Statement) (e : Sql.Error) (db' : Database), db.run read s = (.error e, db') →
      (db' = db ↔ ¬ s.DropsFirst db)) ∧
    ∀ (ss : List Statement) (last : Except Sql.Error Outcome) (e : Sql.Error) (db' : Database), ss ≠ [] →
      db.runAll read last ss = (.error e, db') →
      ∃ pre s post mid, ss = pre ++ s :: post ∧ Succeeds read db pre mid ∧ mid.run read s = (.error e, db') ∧
        (db' = mid ↔ ¬ s.DropsFirst mid) := by
  refine ⟨fun s e db' h => run_failed h, ?_⟩
  intro ss last e db' hne h
  obtain ⟨pre, s, post, mid, hss, hpre, hs⟩ := runAll_failed hne h
  exact ⟨pre, s, post, mid, hss, hpre, hs, run_failed hs⟩

/-! ## Drops of several tables -/

namespace Sample

def twoTables : Database := ⟨{ tables := [("a", ⟨["x"], [[.int 1]]⟩), ("b", ⟨["x"], []⟩)] }⟩

def dropBoth : Statement := .dropTable false [[{ text := "A" }], [{ text := "b" }]]

def noFile : ReadFile := fun _ => .error .notFound

end Sample

open Database.Sample in
/-- The second statement fails at its first name, so what is left is what the first one left. -/
theorem failure_leaves_dropBoth :
    let ss : List Statement := [.dropTable false [[{ text := "a" }]], dropBoth]
    let left : Database := ⟨{ tables := [("b", ⟨["x"], []⟩)] }⟩
    ss ≠ [] ∧
      twoTables.runAll noFile (.ok (.notices [])) ss = (.error (.plan (.statement (.tableMissing "a"))), left) ∧
      ∃ pre s post mid, ss = pre ++ s :: post ∧ Succeeds noFile twoTables pre mid ∧
        mid.run noFile s = (.error (.plan (.statement (.tableMissing "a"))), left) ∧
        (left = mid ↔ ¬ s.DropsFirst mid) := by
  intro ss left
  have hne : ss ≠ [] := by simp [ss]
  have hrun : twoTables.runAll noFile (.ok (.notices [])) ss =
      (.error (.plan (.statement (.tableMissing "a"))), left) := rfl
  exact ⟨hne, hrun, (failure_leaves_iff twoTables noFile).2 ss _ _ left hne hrun⟩

open Database.Sample in
/-- A drop of a table that is there and of one that is missing fails, and the first table is gone. -/
theorem not_failure_unchanged :
    ¬ ∀ (db db' : Database) (read : ReadFile) (s : Statement) (e : Sql.Error),
      db.run read s = (.error e, db') → db' = db := by
  intro h
  have hrun : twoTables.run noFile (.dropTable false [[{ text := "a" }], [{ text := "missing" }]]) =
      (.error (.plan (.statement (.tableMissing "missing"))), ⟨{ tables := [("b", ⟨["x"], []⟩)] }⟩) := rfl
  exact absurd (h _ _ _ _ _ hrun) (by decide)

end Database

end TableQuery
