/-
`SELECT DISTINCT` removes exactly the repeated rows. It is planned as the same selection with all items as
group keys. On a table with names that are pairwise different up to letter case, it has a result wherever
the selection without `DISTINCT` has one: the rows of that result, in their order, without those that have
the values of an earlier row.
-/
import TableQuery.Database
import TableQuery.Proofs.Query.Distinct
import TableQuery.Proofs.Query.Spelling.Columns
import TableQuery.Proofs.Sql.Evaluation
import TableQuery.Proofs.Sql.Selection

namespace TableQuery

namespace Sql

/-! ## Items -/

/-- An item that is no star and calls no aggregate. -/
def Item.Rowwise : Item → Prop
  | .term t _ => t.hasAggregate = false
  | .star | .tableStar _ => False

/-- Stars are items or arguments; no term is planned as one. -/
theorem Term.plan_ne_wildcard : ∀ (t : Term) {e : Expr}, t.plan = .ok e → e ≠ .wildcard
  | .column i, e, h => by
    rw [Term.plan] at h
    cases h
    simp
  | .path parts, e, h => by
    match parts, h with
    | [_, i], h =>
      rw [Term.plan] at h
      cases h
      simp
    | [], h | [_], h | _ :: _ :: _ :: _, h => simp [Term.plan] at h
  | .literal l, e, h => by
    rw [Term.plan] at h
    split at h <;> cases h
    simp
  | .parens t, e, h => t.plan_ne_wildcard (by rwa [Term.plan] at h)
  | .unary .plus t, e, h => t.plan_ne_wildcard (by rwa [Term.plan] at h)
  | .unary .minus t, e, h => by
    rw [Term.plan] at h
    obtain ⟨x, -, h⟩ := bind_ok h
    cases h
    cases x with
    | lit v => cases v <;> simp [Expr.minus]
    | _ => simp [Expr.minus]
  | .unary .not t, e, h => by
    rw [Term.plan] at h
    obtain ⟨x, -, h⟩ := bind_ok h
    cases h
    simp [Expr.negate]
  | .binary op l r, e, h => by
    rw [Term.plan] at h
    split at h
    · obtain ⟨x, -, h⟩ := bind_ok h
      obtain ⟨y, -, h⟩ := bind_ok h
      cases h
      simp [Expr.binary]
    · cases h
  | .isNull negated t, e, h => by
    rw [Term.plan] at h
    obtain ⟨x, -, h⟩ := bind_ok h
    cases h
    cases negated <;> simp [Expr.negateIf, Expr.negate]
  | .between negated t low high, e, h => by
    rw [Term.plan] at h
    obtain ⟨x, -, h⟩ := bind_ok h
    obtain ⟨l, -, h⟩ := bind_ok h
    obtain ⟨u, -, h⟩ := bind_ok h
    cases h
    cases negated <;> simp [Expr.negateIf, Expr.negate, Expr.binary]
  | .inList negated t items, e, h => by
    rw [Term.plan] at h
    obtain ⟨x, -, h⟩ := bind_ok h
    obtain ⟨xs, -, h⟩ := bind_ok h
    cases h
    obtain ⟨n, as, hcall⟩ | ⟨b, hlit⟩ := Expr.anyEqual_cases x negated xs
    · simp [hcall]
    · simp [hlit]
  | .like form t pattern, e, h => by
    rw [Term.plan] at h
    obtain ⟨x, -, h⟩ := bind_ok h
    obtain ⟨y, -, h⟩ := bind_ok h
    cases h
    cases form.negated <;> simp [Expr.negateIf, Expr.negate, Expr.binary]
  | .cast form t type, e, h => by
    rw [Term.plan] at h
    split at h
    · obtain ⟨x, -, h⟩ := bind_ok h
      cases h
      simp
    · cases h
  | .rounded up t extra, e, h => by
    rw [Term.plan] at h
    obtain ⟨x, -, h⟩ := bind_ok h
    cases h
    simp
  | .trim t, e, h => by
    rw [Term.plan] at h
    obtain ⟨x, -, h⟩ := bind_ok h
    cases h
    simp
  | .call name form args, e, h => by
    obtain ⟨f, es, -, -, -, rfl⟩ := plan_call_iff.1 h
    simp
  | .callQuery name query, e, h => by
    rw [Term.plan] at h
    cases h
  | .other spelling, e, h => by
    rw [Term.plan] at h
    cases h

/-- The plan of such an item is no star and calls no aggregate either. -/
theorem planItem_rowwise {i : Item} (hi : i.Rowwise) {p : Expr × String} (h : planItem i = .ok p) :
    p.1 ≠ .wildcard ∧ p.1.containsAggregate = false := by
  cases i with
  | star => exact hi.elim
  | tableStar table => exact hi.elim
  | term t label =>
    obtain ⟨e, he, h⟩ := bind_ok h
    cases h
    exact ⟨t.plan_ne_wildcard he, noAggregate_plan t he hi⟩

/-! ## Plans -/

theorem planDistinct_yes {scope : Scope} (hne : scope.exprs ≠ [])
    (hi : ∀ e ∈ scope.exprs, e ≠ .wildcard ∧ e.containsAggregate = false) :
    planDistinct scope [] .yes = .ok scope.exprs := by
  have hstar : .wildcard ∉ scope.exprs := fun hm => (hi _ hm).1 rfl
  have hall : scope.exprs.all (·.containsAggregate) = false := by
    obtain ⟨e, he⟩ := List.exists_mem_of_ne_nil _ hne
    exact List.all_eq_false.2 ⟨e, he, by simp [(hi e he).2]⟩
  simp [planDistinct, hstar, hall]

section

variable {items : List Item} {filter : Option Term} {sel : Select}

/-- Without further clauses a selection of such items is planned with items and filter alone, and with
`DISTINCT` the items are the group keys as well. -/
theorem planSelection_distinct (hne : items ≠ []) (hi : ∀ i ∈ items, i.Rowwise)
    (h : planSelection {} { items := items, filter := filter } = .ok sel) :
    sel.Plain ∧ sel.items ≠ [] ∧ (∀ e ∈ sel.items, e ≠ .wildcard ∧ e.containsAggregate = false) ∧
      planSelection {} { distinct := .yes, items := items, filter := filter } = .ok sel.distinct := by
  unfold planSelection at h ⊢
  obtain ⟨planned, hitems, h⟩ := bind_ok h
  obtain ⟨condition, hfilter, h⟩ := bind_ok h
  cases h
  have hexprs : ∀ e ∈ planned.map (·.1), e ≠ .wildcard ∧ e.containsAggregate = false := by
    intro e he
    obtain ⟨p, hp, rfl⟩ := List.mem_map.1 he
    obtain ⟨i, him, hplan⟩ := mem_of_mapM_ok hitems p hp
    exact planItem_rowwise (hi i him) hplan
  have hplanned : planned.map (·.1) ≠ [] := by
    intro hnil
    have hlen := (mapM_ok_forall₂ hitems).length_eq
    rw [List.map_eq_nil_iff.1 hnil, List.length_nil, List.length_eq_zero_iff] at hlen
    exact hne hlen
  refine ⟨⟨rfl, rfl, rfl, rfl⟩, hplanned, hexprs, ?_⟩
  have hgroup : planGrouping ⟨planned⟩ (.by []) = .ok [] := rfl
  have hkeys : planDistinct ⟨planned⟩ [] .yes = .ok (planned.map (·.1)) := planDistinct_yes hplanned hexprs
  simp only [hitems, hfilter, ok_bind, hgroup, hkeys]
  rfl

end

end Sql

/-! ## Results -/

/-- A projection keeps names that differ by more than letter case. -/
theorem Table.distinct_project {t p : Table} {tokens : TokenSet} (hd : Distinct t.fields)
    (h : t.project tokens = .ok p) : Distinct p.fields := by
  unfold project at h
  split at h
  · cases h
    exact hd
  · obtain ⟨named, -, h⟩ := bind_ok h
    cases h
    refine distinct_select hd (List.nodup_range.filter _) fun i hi => ?_
    exact List.mem_range.1 (List.mem_filter.1 hi).1

theorem Catalog.runQuery_of_plan {c : Catalog} {read : ReadFile} {w : Sql.QueryExpr} {q : Query} (h : w.plan = .ok q) :
    c.runQuery read w = (q.execute (c.fetch read)).mapError Sql.Error.engine := by
  rw [runQuery, h, ok_bind]

/-- `SELECT DISTINCT` removes exactly the repeated rows. The source names a table, stored or in a file, whose
names are pairwise different up to letter case, and the items are neither stars nor do they call aggregates.
Wherever `SELECT` has a result, `SELECT DISTINCT` has it without the rows that have the values of an earlier
row, in the form in which equal values are equal. -/
theorem Catalog.runQuery_distinct {c : Catalog} {read : ReadFile} {items : List Sql.Item} {filter : Option Sql.Term}
    {source : Sql.Source} {label : String} {t r : Table}
    (hsource : source.plan = .ok (Query.table · label)) (ht : c.resolve read label = .ok t)
    (hd : Table.Distinct t.fields) (hne : items ≠ []) (hi : ∀ i ∈ items, i.Rowwise)
    (hr : c.runQuery read (.mk {} (.select { items := items, filter := filter } source)) = .ok r) :
    c.runQuery read (.mk {} (.select { distinct := .yes, items := items, filter := filter } source)) =
      .ok r.withoutRepeats := by
  obtain ⟨q, hplan, -⟩ := bind_ok hr
  rw [runQuery_of_plan hplan] at hr
  have hframe : Sql.planFrame {} = .ok () := rfl
  rw [Sql.QueryExpr.plan_select, hframe, ok_bind, hsource, ok_bind] at hplan
  obtain ⟨sel, hsel, rfl⟩ := map_eq_ok hplan
  obtain ⟨hplain, hsome, hitems, hdistinct⟩ := Sql.planSelection_distinct hne hi hsel
  have hplan' : (Sql.QueryExpr.mk {} (.select { distinct := .yes, items := items, filter := filter } source)).plan =
      .ok (.table sel.distinct label) := by
    rw [Sql.QueryExpr.plan_select, hframe, ok_bind, hsource, ok_bind, hdistinct]
    rfl
  have hexec := mapError_eq_ok hr
  have hchecked : sel.Checked true := by
    rw [Query.execute_eq] at hexec
    obtain ⟨_, hc, -⟩ := bind_ok hexec
    exact Select.check_eq_ok_iff.1 hc
  have hrowwise : sel.Rowwise :=
    ⟨hsome, fun e he => (hitems e he).2, fun e he => (hchecked.items e he).resolve_left (hitems e he).1⟩
  have hfetch : ∀ p, c.fetch read ⟨label, sel.tokens⟩ = .ok p → Table.Distinct p.fields := by
    intro p hp
    rw [Catalog.fetch, ht, ok_bind] at hp
    exact Table.distinct_project hd hp
  rw [runQuery_of_plan hplan', Query.execute_distinct hplain hrowwise hfetch hexec]
  rfl

/-! ## An example -/

namespace Sample

/-- The third row is the first one with its number as a float. -/
def repos : Table := ⟨["Lang", "stars"],
  [[.text "rust", .int 1], [.text "lean", .int 2], [.text "rust", .float (.ofInt 1)], [.text "lean", .int 0],
    [.text "lean", .int 2], [.text "rust", .int 3]]⟩

def stored : Catalog := { tables := [("repos", repos)] }

/-- The items of `SELECT lang, STARS`. -/
def langAndStars : List Sql.Item :=
  [.term (.column { text := "lang" }) none, .term (.column { text := "STARS" }) none]

/-- `stars > 0`. -/
def starred : Sql.Term := .binary (.relation .gt) (.column { text := "stars" }) (.literal (.number "0" false))

/-- `FROM Repos`. -/
def fromRepos : Sql.Source := .table [{ text := "Repos" }] ""

end Sample

open Sample in
/-- Rows are repeated if their values are equal as group keys. -/
theorem runQuery_distinct_repos :
    let read : ReadFile := fun _ => .error .notFound
    let plain : Table := ⟨["lang", "STARS"], [[.text "rust", .int 1], [.text "lean", .int 2],
      [.text "rust", .float (.ofInt 1)], [.text "lean", .int 2], [.text "rust", .int 3]]⟩
    Table.Distinct repos.fields ∧
      stored.runQuery read (.mk {} (.select { items := langAndStars, filter := some starred } fromRepos)) = .ok plain ∧
      stored.runQuery read
          (.mk {} (.select { distinct := .yes, items := langAndStars, filter := some starred } fromRepos)) =
        .ok ⟨["lang", "STARS"], [[.text "rust", .int 1], [.text "lean", .int 2], [.text "rust", .int 3]]⟩ := by
  intro read plain
  have hd : Table.Distinct repos.fields := by decide
  have hr : stored.runQuery read (.mk {} (.select { items := langAndStars, filter := some starred } fromRepos)) =
      .ok plain := rfl
  have hi : ∀ i ∈ langAndStars, i.Rowwise := by
    intro i hi
    simp only [langAndStars, List.mem_cons, List.not_mem_nil, or_false] at hi
    rcases hi with rfl | rfl <;> rfl
  have hsource : fromRepos.plan = .ok (Query.table · "Repos") := rfl
  have ht : stored.resolve read "Repos" = .ok repos := rfl
  exact ⟨hd, hr, Catalog.runQuery_distinct hsource ht hd (by simp [langAndStars]) hi hr⟩

end TableQuery
