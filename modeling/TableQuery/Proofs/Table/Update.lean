/-
Updates of a table in place. An update makes its checks and then stores the new fields and the new rows, one
after the other; what is stored before a failure would stay. Each update does what the operation on tables does,
or fails with its error and has stored nothing, so every table that updates lead to is well formed, in every
order of updates and after each of them, also after one that fails.
-/
import TableQuery.Proofs.Table.Shape

namespace TableQuery.Table

/-! ## Updates -/

/-- Changes of a table in place. -/
abbrev InPlace := ExceptT Error (StateM Table)

inductive Update where
  | append (row : Row)
  | setFields (fields : List String)
  | setRows (rows : List Row)
  | replaceContents (fields : List String) (rows : List Row)
  | renameFields (names : List String)
  | truncate (n : Nat)
  | copyFrom (u : Table)
  /-- The table becomes a part of itself. -/
  | sliceRows (start stop : Bound)
  | sliceColumns (start stop : Nat)
  /-- The table gets the columns of another one behind its own. -/
  | chain (u : Table)

namespace Update

/-- The other tables that an update reads. -/
def tables : Update → List Table
  | copyFrom u | chain u => [u]
  | _ => []

def storeFields (fields : List String) : InPlace Unit := modify ({ · with fields })

def storeRows (rows : List Row) : InPlace Unit := modify ({ · with rows })

def checkLength (width found : Nat) : Except Error Unit :=
  if found = width then .ok () else .error (.shapeMismatch width found)

/-- The checks and the stores of an update, in their order. -/
def inPlace : Update → InPlace Unit
  | append row => do
    checkLength (← get).width row.length
    storeRows ((← get).rows ++ [row])
  | setFields fields => do
    checkRows fields.length (← get).rows
    storeFields fields
  | setRows rows => do
    checkRows (← get).width rows
    storeRows rows
  | replaceContents fields rows => do
    checkRows fields.length rows
    storeFields fields
    storeRows rows
  | renameFields names => do
    checkLength (← get).width names.length
    storeFields names
  | truncate n => do storeRows ((← get).rows.take n)
  | copyFrom u => do
    storeFields u.fields
    storeRows u.rows
  | sliceRows start stop => do set ((← get).sliceRows start stop)
  | sliceColumns start stop => do set ((← get).sliceColumns start stop)
  | chain u => do set (← (← get).chain u)

/-- The outcome of an update and the table after it. -/
def run (op : Update) (t : Table) : Except Error Unit × Table := StateT.run op.inPlace.run t

/-- What an update makes of a table as a whole. -/
def result (t : Table) : Update → Except Error Table
  | append row => t.append row
  | setFields fields => t.setFields fields
  | setRows rows => t.setRows rows
  | replaceContents fields rows => ofRows fields rows
  | renameFields names => t.renameFields names
  | truncate n => .ok (t.truncate n)
  | copyFrom u => .ok u
  | sliceRows start stop => .ok (t.sliceRows start stop)
  | sliceColumns start stop => .ok (t.sliceColumns start stop)
  | chain u => t.chain u

/-! ## One update -/

variable {t u : Table} {op : Update} {e : Error}

/-- The table with a new content, or the old one with the error. -/
def outcome (t : Table) : Except Error Table → Except Error Unit × Table
  | .ok u => (.ok (), u)
  | .error e => (.error e, t)

/-- After a check that fails, nothing is stored. -/
theorem run_check (check : Except Error Unit) {store : InPlace Unit} {t u : Table}
    (hstore : StateT.run store.run t = (.ok (), u)) :
    StateT.run (ExceptT.run do (check : InPlace Unit); store) t = outcome t (check >>= fun _ => .ok u) := by
  cases check with
  | error e => rfl
  | ok => exact hstore

theorem ite_eq_checkLength (width found : Nat) (u : Table) :
    (if found = width then .ok u else .error (.shapeMismatch width found)) =
      checkLength width found >>= fun _ => .ok u := by
  unfold checkLength
  split <;> rfl

theorem run_eq (op : Update) (t : Table) : op.run t = outcome t (op.result t) := by
  cases op with
  | append row =>
    rw [result, Table.append, ite_eq_checkLength]
    exact run_check _ rfl
  | setFields fields => exact run_check _ rfl
  | setRows rows => exact run_check _ rfl
  | replaceContents fields rows => exact run_check _ rfl
  | renameFields names =>
    rw [result, Table.renameFields, ite_eq_checkLength]
    exact run_check _ rfl
  | truncate n => rfl
  | copyFrom u => rfl
  | sliceRows start stop => rfl
  | sliceColumns start stop => rfl
  | chain u =>
    show StateT.run (ExceptT.run do set (← (t.chain u : InPlace Table))) t = outcome t (t.chain u)
    cases t.chain u <;> rfl

theorem wellFormed_result (ht : t.WellFormed) (hu : ∀ u ∈ op.tables, u.WellFormed) {v : Table}
    (h : op.result t = .ok v) : v.WellFormed := by
  cases op with
  | append row => exact wellFormed_append ht h
  | setFields | setRows | replaceContents =>
    obtain ⟨rfl, hv⟩ := ofRows_ok h
    exact hv
  | renameFields names => exact wellFormed_renameFields ht h
  | truncate n =>
    cases h
    exact wellFormed_truncate ht n
  | copyFrom u =>
    cases h
    exact hu _ (List.mem_singleton_self _)
  | sliceRows start stop =>
    cases h
    exact wellFormed_sliceRows ht start stop
  | sliceColumns start stop =>
    cases h
    exact wellFormed_sliceColumns ht start stop
  | chain u => exact wellFormed_chain ht (hu u (List.mem_singleton_self _)) h

theorem wellFormed_run (ht : t.WellFormed) (hu : ∀ u ∈ op.tables, u.WellFormed) : (op.run t).2.WellFormed := by
  rw [run_eq]
  cases h : op.result t with
  | error e => exact ht
  | ok v => exact wellFormed_result ht hu h

theorem run_of_error (h : (op.run t).1 = .error e) : (op.run t).2 = t := by
  rw [run_eq] at h ⊢
  cases hr : op.result t with
  | error e' => rfl
  | ok v =>
    rw [hr] at h
    cases h

theorem result_of_ok (h : (op.run t).1 = .ok ()) : op.result t = .ok (op.run t).2 := by
  rw [run_eq] at h ⊢
  cases hr : op.result t with
  | error e =>
    rw [hr] at h
    cases h
  | ok v => rfl

end Update

/-! ## Sequences of updates -/

/-- The tables that are made with checked rows, and those that updates lead to from them with other such
tables. -/
inductive Built : Table → Prop
  | empty (fields : List String) : Built (.empty fields)
  | ofRows {fields : List String} {rows : List Row} {t : Table} : ofRows fields rows = .ok t → Built t
  | update {t : Table} (op : Update) : Built t → (∀ u ∈ op.tables, Built u) → Built (op.run t).2

/-- One step of a sequence of updates. -/
structure Step where
  before : Table
  update : Update
  outcome : Except Error Unit
  after : Table

/-- The steps of a sequence of updates; it goes on after one that fails. -/
def history (t : Table) : List Update → List Step
  | [] => []
  | op :: ops => ⟨t, op, (op.run t).1, (op.run t).2⟩ :: history (op.run t).2 ops

variable {t : Table}

theorem Built.wellFormed (h : t.Built) : t.WellFormed := by
  induction h with
  | empty fields => exact wellFormed_empty fields
  | ofRows h => exact (ofRows_ok h).2
  | update op _ _ ht hu => exact Update.wellFormed_run ht hu

/-- After each step of a sequence of updates every row has one value for each field. A step that fails leaves
the fields and the rows as they were, and one that succeeds makes of them what the operation on tables does. -/
theorem Built.history_wellFormed (h : t.Built) {ops : List Update} (hops : ∀ op ∈ ops, ∀ u ∈ op.tables, Built u) :
    ∀ s ∈ history t ops, s.after.WellFormed ∧ (∀ e, s.outcome = .error e → s.after = s.before) ∧
      (s.outcome = .ok () → s.update.result s.before = .ok s.after) := by
  induction ops generalizing t with
  | nil => exact fun s hs => (List.not_mem_nil hs).elim
  | cons op ops ih =>
    intro s hs
    have hop : ∀ u ∈ op.tables, Built u := hops op List.mem_cons_self
    rcases List.mem_cons.1 hs with rfl | hs
    · refine ⟨(h.update op hop).wellFormed, fun e => Update.run_of_error, Update.result_of_ok⟩
    · exact ih (h.update op hop) (fun op' hop' => hops op' (List.mem_cons_of_mem _ hop')) s hs

namespace Sample

def pair : Table := ⟨["a", "b"], [[.int 1, .text "x"], [.null, .text "y"]]⟩

def single : Table := ⟨["c"], [[.bool true], [.null]]⟩

/-- Rows and names of another length are refused; once the rows are gone, other fields are not. -/
def updates : List Update :=
  [.append [.int 3], .setFields ["a"], .chain single, .replaceContents ["d"] [[.int 4], []],
    .chain (.empty ["e"]), .sliceColumns 1 9, .sliceRows (.excluded 0) .unbounded, .renameFields ["b"],
    .truncate 0, .setFields ["f", "g", "h"], .renameFields ["f"], .append [.null, .null, .null], .copyFrom pair]

end Sample

open Table.Sample in
theorem history_wellFormed_pair :
    pair.Built ∧ (∀ op ∈ updates, ∀ u ∈ op.tables, Built u) ∧
      (history pair updates).map (fun s => (s.outcome.toBool, s.after.width, s.after.size)) =
        [(false, 2, 2), (false, 2, 2), (true, 3, 2), (false, 3, 2), (false, 3, 2), (true, 2, 2), (true, 2, 1),
          (false, 2, 1), (true, 2, 0), (true, 3, 0), (false, 3, 0), (true, 3, 1), (true, 2, 2)] ∧
      ∀ s ∈ history pair updates, s.after.WellFormed ∧ (∀ e, s.outcome = .error e → s.after = s.before) ∧
        (s.outcome = .ok () → s.update.result s.before = .ok s.after) := by
  have hpair : pair.Built := .ofRows (ofRows_eq (by decide))
  have hsingle : single.Built := .ofRows (ofRows_eq (by decide))
  have hops : ∀ op ∈ updates, ∀ u ∈ op.tables, Built u := by
    simp only [updates, List.forall_mem_cons, Update.tables]
    simp [hpair, hsingle, Built.empty]
  exact ⟨hpair, hops, by decide, hpair.history_wellFormed hops⟩

end TableQuery.Table
