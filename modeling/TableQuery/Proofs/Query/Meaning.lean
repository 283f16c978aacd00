/-
The meaning of a selection, said on rows of full width: the rows that the filter keeps are put into
groups by the values of the group keys, the groups filtered, their rows ordered, then the groups,
and the items evaluated on each group. Every group has all columns of the source, and no key ever
becomes a column.
-/
import TableQuery.Proofs.Query.Stages
import TableQuery.Proofs.Order.Sort

namespace TableQuery

/-! ## Groups and order without key columns -/

namespace Table

/-- One table for each key, in the order of first occurrence; row `i` of `t` has the `i`-th key. -/
def groupsBy (t : Table) (keys : List (List Value)) : List Table :=
  keys.eraseDups.map fun key => { t with rows := ((keys.zip t.rows).filter (·.1 == key)).map (·.2) }

/-- The rows in the stable order of the keys evaluated for each of them. -/
def orderedBy (t : Table) (orderBy : List OrderKey) : Except Error Table := do
  let columns ← orderBy.mapM fun k => Expr.evalRows t k.expr
  columns.forM Order.checkComparable
  let keyed := (rowsOfColumns t.size columns).zip t.rows
  return { t with rows := (Order.stableSort (fun a b => Order.keyLess orderBy a.1 b.1) keyed).map (·.2) }

end Table

namespace Select

/-! ## Stages -/

/-- The values of the group keys for each row, in the form in which equal values are equal. -/
def groupKeys (s : Select) (t : Table) : Except Error (List (List Value)) := do
  let columns ← s.groupBy.mapM fun e => Expr.evalRows t e
  return (rowsOfColumns t.size columns).map (·.map Value.groupKey)

/-- Without group keys all rows form one group. -/
def groups (s : Select) (t : Table) : Except Error (List Table) := do
  if s.groupBy.isEmpty then return [t]
  return t.groupsBy (← s.groupKeys t)

/-- Whether the group filter is true in every row of a group. -/
def holdsOn (s : Select) (g : Table) : Except Error Bool :=
  match s.having with
  | some condition => do allTrue (← Expr.evalRows g condition)
  | none => .ok true

def groupsWhere (s : Select) : List Table → Except Error (List Table)
  | [] => .ok []
  | g :: r => do
    let holds ← s.holdsOn g
    let rest ← s.groupsWhere r
    return if holds then g :: rest else rest

/-- First the rows inside each group, then the groups by the keys evaluated on each as a whole. -/
def ordered (s : Select) (gs : List Table) : Except Error (List Table) := do
  if s.orderBy.isEmpty then return gs
  Order.sortTables s.orderBy (← gs.mapM (·.orderedBy s.orderBy))

/-- The values of the items on a group, of which only the first row counts if it collapses. -/
def rowsOn (s : Select) (items : List Expr) (g : Table) : Except Error (List Row) := do
  let out ← Expr.evalTable g items
  return if s.collapses items then out.rows.take 1 else out.rows

/-- The result of a selection for the table read from the source, if there is one. -/
def meaning (s : Select) (source : Option Table) : Except Error Table := do
  let t := source.getD dummy
  if source.isSome && t.isEmpty then return .empty (s.namesOn t.fields)
  let k ← s.kept t
  if k.isEmpty then return .empty (s.namesOn t.fields)
  let gs ← s.ordered (← s.groupsWhere (← s.groups k))
  let rows ← gs.mapM (s.rowsOn (s.itemsOn t.fields))
  return s.limited ⟨s.namesOn t.fields, rows.flatten⟩

end Select

/-! ## Fields of groups -/

theorem Table.fields_groupsBy {t g : Table} {keys : List (List Value)} (h : g ∈ t.groupsBy keys) :
    g.fields = t.fields := by
  obtain ⟨key, -, rfl⟩ := List.mem_map.1 h
  rfl

theorem Table.fields_orderedBy {t u : Table} {orderBy : List OrderKey} (h : t.orderedBy orderBy = .ok u) :
    u.fields = t.fields := by
  unfold orderedBy at h
  obtain ⟨columns, -, h⟩ := bind_ok h
  obtain ⟨_, -, h⟩ := bind_ok h
  cases h; rfl

namespace Select

variable {s : Select}

theorem fields_groups {t : Table} {gs : List Table} (h : s.groups t = .ok gs) : ∀ g ∈ gs, g.fields = t.fields := by
  unfold groups at h
  split at h
  · cases h
    intro g hg
    rw [List.mem_singleton.1 hg]
  · obtain ⟨keys, -, h⟩ := bind_ok h
    cases h
    exact fun g hg => Table.fields_groupsBy hg

theorem groupsWhere_subset : ∀ {gs hs : List Table}, s.groupsWhere gs = .ok hs → hs ⊆ gs
  | [], hs, h => by cases h; exact List.Subset.refl _
  | g :: gs, hs, h => by
    rw [groupsWhere] at h
    obtain ⟨holds, -, h⟩ := bind_ok h
    obtain ⟨rest, hr, h⟩ := bind_ok h
    have hsub := groupsWhere_subset hr
    cases h
    split
    · exact List.cons_subset_cons g hsub
    · exact fun x hx => List.mem_cons_of_mem g (hsub hx)

theorem fields_ordered {fields : List String} {gs hs : List Table} (hg : ∀ g ∈ gs, g.fields = fields)
    (h : s.ordered gs = .ok hs) : ∀ g ∈ hs, g.fields = fields := by
  unfold ordered at h
  split at h
  · cases h; exact hg
  · obtain ⟨sorted, hs, h⟩ := bind_ok h
    intro g hm
    obtain ⟨g', hm', hgo⟩ := mem_of_mapM_ok hs g ((Order.sortTables_perm h).subset hm)
    exact (Table.fields_orderedBy hgo).trans (hg g' hm')

end Select

end TableQuery
