/-
The columns that a selection works on: those that its expressions refer to, each once, in the order
of first mention. A star stands for all columns of the table.
-/
import TableQuery.Proofs.Expr.Frame
import TableQuery.Proofs.Expr.Token

namespace TableQuery

theorem addNew_eq_addOnce : addNew = addOnce := rfl

/-! ## Tokens -/

namespace Expr

theorem leavesOf_append : ∀ es fs : List Expr, leavesOf (es ++ fs) = leavesOf es ++ leavesOf fs
  | [], _ => rfl
  | e :: es, fs => by rw [List.cons_append, leavesOf, leavesOf, leavesOf_append es fs, List.append_assoc]

/-- Expressions that refer to nothing else add no tokens. -/
theorem tokens_append {es fs : List Expr} (h : leavesOf fs ⊆ leavesOf es) : tokens (es ++ fs) = tokens es := by
  by_cases hw : .wildcard ∈ leavesOf es
  · rw [tokens_of_mem hw, tokens_of_mem (leavesOf_append es fs ▸ List.mem_append_left _ hw)]
  · have hw' : .wildcard ∉ leavesOf (es ++ fs) := by
      rw [leavesOf_append, List.mem_append]
      exact fun hm => hw (hm.elim id fun hm => h hm)
    rw [tokens_of_not_mem hw, tokens_of_not_mem hw', leavesOf_append, List.foldl_append,
      foldl_addOnce_of_subset fun x hx => mem_foldl_addOnce.2 (.inr (h hx))]

theorem isWildcard_tokens {es : List Expr} : (tokens es).isWildcard = true ↔ .wildcard ∈ leavesOf es := by
  rw [tokens_eq_canonical, TokenSet.isWildcard_canonical]

theorem mem_columns {es : List Expr} (h : .wildcard ∉ leavesOf es) {name : String} :
    name ∈ (tokens es).columns ↔ .column name ∈ leavesOf es := by
  rw [tokens_of_not_mem h, TokenSet.columns, List.mem_filterMap]
  constructor
  · rintro ⟨t, ht, hn⟩
    rw [mem_foldl_addOnce] at ht
    split at hn
    · cases hn; exact ht.resolve_left List.not_mem_nil
    · cases hn
  · exact fun hm => ⟨.column name, mem_foldl_addOnce.2 (.inr hm), rfl⟩

end Expr

/-! ## Choosing columns -/

namespace Table

/-- Every column that the tokens name is there. -/
def Resolves (t : Table) (ts : List Token) : Prop := ∀ name, .column name ∈ ts → (t.columnIndex? name).isSome

/-- Every column that the tokens name is among those at the given places. -/
def Holds (t : Table) (cols : List Nat) (ts : List Token) : Prop :=
  ∀ name, .column name ∈ ts → ∃ i ∈ cols, t.columnIndex? name = some i

/-- Of the columns that the tokens name, those that are there are among those at the given places. -/
def Keeps (t : Table) (cols : List Nat) (ts : List Token) : Prop :=
  ∀ name, .column name ∈ ts → ∀ i, t.columnIndex? name = some i → i ∈ cols

variable {t u : Table} {ts ts' : List Token}

/-- Whether the column that a token names is there. -/
def finds (t : Table) : Token → Bool
  | .column name => (t.columnIndex? name).isSome
  | .wildcard => true

theorem resolves_iff {t : Table} {ts : List Token} : t.Resolves ts ↔ ∀ x ∈ ts, t.finds x = true := by
  constructor
  · intro h x hx
    cases x with
    | column name => exact h name hx
    | wildcard => rfl
  · exact fun h name hn => h (.column name) hn

instance (t : Table) (ts : List Token) : Decidable (t.Resolves ts) := decidable_of_iff _ resolves_iff.symm

theorem columnIndex?_congr (h : t.fields = u.fields) (name : String) : t.columnIndex? name = u.columnIndex? name := by
  unfold columnIndex?; rw [h]

theorem Resolves.mono (h : t.Resolves ts) (hs : ts' ⊆ ts) : t.Resolves ts' := fun name hn => h name (hs hn)

theorem Resolves.congr (h : t.Resolves ts) (hf : t.fields = u.fields) : u.Resolves ts :=
  fun name hn => columnIndex?_congr hf name ▸ h name hn

theorem Holds.mono {cols cols' : List Nat} (h : t.Holds cols ts) (hc : cols ⊆ cols') (hs : ts' ⊆ ts) :
    t.Holds cols' ts' := by
  intro name hn
  obtain ⟨i, hi, hti⟩ := h name (hs hn)
  exact ⟨i, hc hi, hti⟩

theorem Keeps.mono {cols cols' : List Nat} (h : t.Keeps cols ts) (hc : cols ⊆ cols') : t.Keeps cols' ts :=
  fun name hn i hi => hc (h name hn i hi)

theorem Holds.congr {cols : List Nat} (h : t.Holds cols ts) (hf : t.fields = u.fields) : u.Holds cols ts :=
  fun name hn => columnIndex?_congr hf name ▸ h name hn

theorem addNamed_eq {f : String → Nat} : ∀ {names : List String} {chosen : List Nat},
    (∀ name ∈ names, t.columnIndex? name = some (f name)) →
      t.addNamed chosen names = .ok ((names.map f).foldl addOnce chosen)
  | [], _, _ => rfl
  | name :: names, chosen, h => by
    rw [addNamed, h name (List.mem_cons_self ..), addNew_eq_addOnce]
    exact addNamed_eq fun n hn => h n (List.mem_cons_of_mem _ hn)

theorem choose_of_mem {es : List Expr} (h : .wildcard ∈ Expr.leavesOf es) (chosen : List Nat) :
    t.choose chosen es = .ok ((List.range t.width).foldl addOnce chosen) := by
  rw [← addNew_eq_addOnce]; exact if_pos (Expr.isWildcard_tokens.2 h)

theorem choose_of_not_mem {es : List Expr} (h : .wildcard ∉ Expr.leavesOf es) (chosen : List Nat) :
    t.choose chosen es = t.addNamed chosen (Expr.tokens es).columns :=
  if_neg fun hw => h (Expr.isWildcard_tokens.1 hw)

/-- Where columns are chosen by name, all names were found. -/
theorem addNamed_ok : ∀ {names : List String} {chosen is : List Nat}, t.addNamed chosen names = .ok is →
    ∃ js : List Nat, is = js.foldl addOnce chosen ∧ (∀ j ∈ js, j < t.width) ∧
      ∀ name ∈ names, ∃ j ∈ js, t.columnIndex? name = some j
  | [], _, _, h => by cases h; exact ⟨[], rfl, by simp, by simp⟩
  | name :: names, chosen, is, h => by
    rw [addNamed] at h
    split at h
    · rename_i i hi
      obtain ⟨js, rfl, hlt, hnames⟩ := addNamed_ok h
      refine ⟨i :: js, rfl, List.forall_mem_cons.2 ⟨columnIndex?_lt hi, hlt⟩, fun n hn => ?_⟩
      rcases List.mem_cons.1 hn with rfl | hn
      · exact ⟨i, List.mem_cons_self .., hi⟩
      · obtain ⟨j, hj, hnj⟩ := hnames n hn
        exact ⟨j, List.mem_cons_of_mem _ hj, hnj⟩
    · cases h

/-- Columns of the table are added, among them all that the expressions refer to. -/
theorem choose_ok {es : List Expr} {chosen is : List Nat} (h : t.choose chosen es = .ok is) :
    ∃ js : List Nat, is = js.foldl addOnce chosen ∧ (∀ j ∈ js, j < t.width) ∧ t.Keeps js (Expr.leavesOf es) := by
  by_cases hw : .wildcard ∈ Expr.leavesOf es
  · rw [choose_of_mem hw] at h
    cases h
    exact ⟨List.range t.width, rfl, fun j hj => List.mem_range.1 hj,
      fun name _ i hi => List.mem_range.2 (columnIndex?_lt hi)⟩
  · rw [choose_of_not_mem hw] at h
    obtain ⟨js, rfl, hlt, hnames⟩ := addNamed_ok h
    refine ⟨js, rfl, hlt, fun name hn i hi => ?_⟩
    obtain ⟨j, hj, hnj⟩ := hnames name ((Expr.mem_columns hw).2 hn)
    cases hi.symm.trans hnj
    exact hj

/-- Columns can be chosen if all of them are there. -/
theorem exists_choose {es : List Expr} (h : t.Resolves (Expr.leavesOf es)) (chosen : List Nat) :
    ∃ is, t.choose chosen es = .ok is := by
  by_cases hw : .wildcard ∈ Expr.leavesOf es
  · exact ⟨_, choose_of_mem hw chosen⟩
  · have hplace : ∀ name ∈ (Expr.tokens es).columns, t.columnIndex? name = some ((t.columnIndex? name).getD 0) := by
      intro name hn
      obtain ⟨i, hi⟩ := Option.isSome_iff_exists.1 (h name ((Expr.mem_columns hw).1 hn))
      rw [hi]; rfl
    exact ⟨_, (choose_of_not_mem hw chosen).trans (addNamed_eq hplace)⟩

end Table

end TableQuery
