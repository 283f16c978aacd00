/-
The checks come first and are complete. Every level of a query is checked before the level below it is
run, so a query with a level that fails its checks makes no request, and its error is that of the outermost
such level. Where all levels pass, the table at the innermost level is requested once, and from then on no
error is about a star, unless it came in place of the requested table.
-/
import TableQuery.Proofs.Query.Fails
import TableQuery.Proofs.Query.Shape

namespace TableQuery

namespace Query

/-! ## Levels -/

/-- The selections of all levels, from the outermost one inward, with whether they have a source. -/
def levels : Query → List (Select × Bool)
  | constant s => [(s, false)]
  | table s _ => [(s, true)]
  | nested s inner => (s, true) :: inner.levels

/-- The selection at the innermost level. -/
def innermost : Query → Select
  | constant s | table s _ => s
  | nested _ inner => inner.innermost

/-! ## Runs with their requests -/

variable {fetch : Fetcher} {q : Query} {e : Error}

/-- A computation that makes no requests, after one that may make some. -/
theorem run_bind_lift {σ α β : Type} {st : σ} (x : ExceptT Error (StateM σ) α) (f : α → Except Error β) :
    (x >>= fun a => (liftM (f a) : ExceptT Error (StateM σ) β)).run.run st =
      ((x.run.run st).1 >>= f, (x.run.run st).2) := by
  show (match x.run.run st with
    | (a, st') => ExceptT.bindCont (fun a => (liftM (f a) : ExceptT Error (StateM σ) β)) a st') = _
  rcases x.run.run st with ⟨e | a, st'⟩ <;> rfl

theorem trace_constant (fetch : Fetcher) (s : Select) :
    (constant s).trace fetch = (s.check false >>= fun _ => s.run none, []) := by
  unfold trace
  rw [runWith]
  cases s.check false <;> rfl

/-- A table is requested after the check. -/
theorem trace_table (fetch : Fetcher) (s : Select) (label : String) :
    (table s label).trace fetch =
      match s.check true with
      | .error e => (.error e, [])
      | .ok _ => (fetch ⟨label, s.tokens⟩ >>= fun t => s.run (some t), [⟨label, s.tokens⟩]) := by
  unfold trace
  rw [runWith]
  cases s.check true with
  | error e => rfl
  | ok _ => cases fetch ⟨label, s.tokens⟩ <;> rfl

/-- The level below is run after the check, and only there requests are made. -/
theorem trace_nested (fetch : Fetcher) (s : Select) (inner : Query) :
    (nested s inner).trace fetch =
      match s.check true with
      | .error e => (.error e, [])
      | .ok _ => ((inner.trace fetch).1 >>= fun t => s.run (some t), (inner.trace fetch).2) := by
  unfold trace
  rw [runWith]
  cases s.check true with
  | error e => rfl
  | ok _ =>
    -- the state is the list of requests, to which the run of this level adds none
    exact run_bind_lift (inner.runWith _) fun t => s.run (some t)

/-- Keeping the requests does not change the result. -/
theorem trace_fst (fetch : Fetcher) : ∀ q : Query, (q.trace fetch).1 = q.execute fetch
  | constant s => by
    rw [trace_constant, execute_eq]
    rfl
  | table s label => by
    rw [trace_table, execute_eq]
    show _ = s.check true >>= fun _ => (fetch ⟨label, s.tokens⟩).map some >>= s.run
    cases s.check true with
    | error e => rfl
    | ok _ => cases fetch ⟨label, s.tokens⟩ <;> rfl
  | nested s inner => by
    rw [trace_nested, execute_eq]
    show _ = s.check true >>= fun _ => (inner.execute fetch).map some >>= s.run
    rw [trace_fst fetch inner]
    cases s.check true with
    | error e => rfl
    | ok _ => cases inner.execute fetch <;> rfl

/-! ## Checks before requests -/

/-- The outermost level that fails its checks ends the query, and no request was made. -/
theorem trace_of_failed : ∀ {q : Query} {outer inner : List (Select × Bool)} {level : Select × Bool},
    q.levels = outer ++ level :: inner → (∀ l ∈ outer, l.1.check l.2 = .ok ()) → level.1.check level.2 = .error e →
      q.trace fetch = (.error e, [])
  | constant s, [], inner, level, hl, _, he => by
    cases hl
    rw [trace_constant, he]
    rfl
  | table s label, [], inner, level, hl, _, he => by
    cases hl
    rw [trace_table, he]
  | nested s q, [], inner, level, hl, _, he => by
    cases hl
    rw [trace_nested, he]
  | nested s q, l :: outer, inner, level, hl, ho, he => by
    obtain ⟨hhead, htail⟩ := List.cons.inj hl
    cases hhead
    have hs : s.check true = .ok () := ho (s, true) (List.mem_cons_self ..)
    have ih := trace_of_failed htail (fun l hm => ho l (List.mem_cons_of_mem _ hm)) he
    rw [trace_nested, hs, ih]
    rfl
  | constant s, l :: outer, inner, level, hl, _, _ => by simp [levels] at hl
  | table s label, l :: outer, inner, level, hl, _, _ => by simp [levels] at hl

/-- A query whose levels pass their checks requests the table at the innermost level. -/
theorem requests_of_checked : ∀ {q : Query}, (∀ l ∈ q.levels, l.1.check l.2 = .ok ()) →
    (q.trace fetch).2 = match q.baseLabel? with
      | some label => [⟨label, q.innermost.tokens⟩]
      | none => []
  | constant s, _ => by
    rw [trace_constant]
    rfl
  | table s label, h => by
    have hs : s.check true = .ok () := h (s, true) (List.mem_cons_self ..)
    rw [trace_table, hs]
    rfl
  | nested s q, h => by
    have hs : s.check true = .ok () := h (s, true) (List.mem_cons_self ..)
    rw [trace_nested, hs]
    exact requests_of_checked (q := q) fun l hm => h l (List.mem_cons_of_mem _ hm)

/-- Outside the bounds of a run, the error of a level is that of its checks or of its source. -/
theorem check_or_source_of_error {shape : Prop} (he : ¬ e.Within shape)
    (hw : ∀ src, q.source fetch = .ok src → shape ∨ (src.getD Select.dummy).WellFormed)
    (h : q.execute fetch = .error e) : q.select.check q.hasSource = .error e ∨ q.source fetch = .error e := by
  rw [execute_eq] at h
  rcases bind_error h with h | ⟨_, hc, h⟩
  · exact .inl h
  rcases bind_error h with h | ⟨src, hsrc, h⟩
  · exact .inr h
  · have hrun : FailsWithin shape (q.select.run src) :=
      Select.failsWithin_run (Select.check_eq_ok_iff.1 hc) (hw src hsrc)
    exact absurd (hrun e h) he

/-- Outside the bounds of the runs, an error comes from the checks of some level or from the request. -/
theorem origin_of_error {shape : Prop} (he : ¬ e.Within shape)
    (hf : shape ∨ ∀ r t, fetch r = .ok t → t.WellFormed) : ∀ {q : Query}, q.execute fetch = .error e →
      (∃ l ∈ q.levels, l.1.check l.2 = .error e) ∨
        ∃ label, q.baseLabel? = some label ∧ fetch ⟨label, q.innermost.tokens⟩ = .error e
  | constant s, h => by
    have hw : ∀ src, (constant s).source fetch = .ok src → shape ∨ (src.getD Select.dummy).WellFormed := by
      rintro src ⟨⟩
      exact .inr (by decide)
    rcases check_or_source_of_error he hw h with hcheck | hsource
    · exact .inl ⟨(s, false), List.mem_cons_self .., hcheck⟩
    · cases hsource
  | table s label, h => by
    have hw : ∀ src, (table s label).source fetch = .ok src → shape ∨ (src.getD Select.dummy).WellFormed := by
      intro src hsrc
      obtain ⟨t, ht, rfl⟩ := map_eq_ok hsrc
      exact hf.imp_right fun hf => hf _ t ht
    rcases check_or_source_of_error he hw h with hcheck | hsource
    · exact .inl ⟨(s, true), List.mem_cons_self .., hcheck⟩
    · exact .inr ⟨label, rfl, map_eq_error hsource⟩
  | nested s q, h => by
    have hw : ∀ src, (nested s q).source fetch = .ok src → shape ∨ (src.getD Select.dummy).WellFormed := by
      intro src hsrc
      obtain ⟨t, ht, rfl⟩ := map_eq_ok hsrc
      obtain ⟨_, -, hwell, -⟩ := execute_ok_shape ht
      exact .inr hwell
    rcases check_or_source_of_error he hw h with hcheck | hsource
    · exact .inl ⟨(s, true), List.mem_cons_self .., hcheck⟩
    · -- the level below is a query of its own
      exact (origin_of_error he hf (map_eq_error hsource)).imp_left fun ⟨l, hl, hcheck⟩ =>
        ⟨l, List.mem_cons_of_mem _ hl, hcheck⟩

/-- In a query whose levels pass their checks, a fault of a star comes from the request. -/
theorem fetch_of_wildcard {w : WildcardFault} (h : ∀ l ∈ q.levels, l.1.check l.2 = .ok ())
    (he : q.execute fetch = .error (.wildcard w)) :
    ∃ label, q.baseLabel? = some label ∧ fetch ⟨label, q.innermost.tokens⟩ = .error (.wildcard w) := by
  have hwithin : ¬(Error.wildcard w).Within True := id
  rcases origin_of_error hwithin (.inl trivial) he with ⟨l, hl, hcheck⟩ | hrequest
  · rw [h l hl] at hcheck
    cases hcheck
  · exact hrequest

/-- The checks are complete and precede all requests, for every depth of nesting and every fetcher.

- If some level fails its checks, the error is that of the outermost such level, and nothing is requested.
- Otherwise the only request is for the label at the innermost level and the columns which this level
  refers to, and there is none if the innermost level has no source. From then on an error about a star
  comes from this request.

Requests are counted in a run that keeps them, which has the result of the execution. -/
theorem checks_complete (fetch : Fetcher) (q : Query) :
    (q.trace fetch).1 = q.execute fetch ∧
    (∀ (outer inner : List (Select × Bool)) (level : Select × Bool) (e : Error), q.levels = outer ++ level :: inner →
      (∀ l ∈ outer, l.1.check l.2 = .ok ()) → level.1.check level.2 = .error e → q.trace fetch = (.error e, [])) ∧
    ((∀ l ∈ q.levels, l.1.check l.2 = .ok ()) →
      (q.trace fetch).2 = (match q.baseLabel? with
        | some label => [⟨label, q.innermost.tokens⟩]
        | none => []) ∧
      ∀ w, q.execute fetch = .error (.wildcard w) →
        ∃ label, q.baseLabel? = some label ∧ fetch ⟨label, q.innermost.tokens⟩ = .error (.wildcard w)) := by
  refine ⟨trace_fst fetch q, fun outer inner level e hl ho he => ?_, fun h => ?_⟩
  · exact trace_of_failed hl ho he
  · exact ⟨requests_of_checked h, fun w he => fetch_of_wildcard h he⟩

end Query

/-! ## Examples -/

namespace Sample

/-- `SELECT n FROM (SELECT Count(*) AS n FROM orders GROUP BY region)`. -/
def counted : Query := .nested { items := [.column "n"] }
  (.table { items := [.call "Count" [.wildcard]], names := some ["n"], groupBy := [.column "region"] } "orders")

/-- Both levels below the outermost one fail: a star in a filter, and an aggregate among group keys. -/
def misplaced : Query := .nested { items := [.wildcard] }
  (.nested { items := [.column "n"], filter := some (.call "abs" [.wildcard]) }
    (.table { items := [.column "n"], groupBy := [.call "sum" [.column "n"]] } "orders"))

/-- A fetcher with a fault of its own. -/
def refusing : Fetcher := fun _ => .error (.wildcard .evaluated)

end Sample

open Sample in
/-- The upper one of two failing levels decides, and a count of rows asks for all columns. -/
theorem Query.checks_complete_nested :
    misplaced.trace refusing = (.error (.wildcard (.clause .filter)), []) ∧
      (counted.trace refusing).2 = [⟨"orders", .all⟩] ∧
      counted.execute refusing = .error (.wildcard .evaluated) ∧
      ∃ label, counted.baseLabel? = some label ∧
        refusing ⟨label, counted.innermost.tokens⟩ = .error (.wildcard .evaluated) := by
  have houter : ∀ l ∈ misplaced.levels.take 1, l.1.check l.2 = .ok () := by decide
  have hlevels : ∀ l ∈ counted.levels, l.1.check l.2 = .ok () := by decide
  have hexecute : counted.execute refusing = .error (.wildcard .evaluated) := rfl
  obtain ⟨-, hfailed, -⟩ := Query.checks_complete refusing misplaced
  obtain ⟨-, -, hchecked⟩ := Query.checks_complete refusing counted
  obtain ⟨hrequests, hwildcard⟩ := hchecked hlevels
  exact ⟨hfailed (misplaced.levels.take 1) _ _ _ rfl houter rfl, hrequests, hexecute, hwildcard _ hexecute⟩

end TableQuery
