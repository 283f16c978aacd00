/-
The columns that two lists of expressions choose, if they differ only in the letter case of column
names. On a table whose names are pairwise different up to letter case they choose the same columns.
-/
import TableQuery.Proofs.Expr.Spelling
import TableQuery.Proofs.Query.Choice

namespace TableQuery

/-! ## Places added once -/

section AddOnce

variable {α β : Type} [BEq α] [LawfulBEq α] [BEq β] [LawfulBEq β]

theorem nodup_foldl_addOnce : ∀ {as l : List α}, l.Nodup → (as.foldl addOnce l).Nodup
  | [], _, h => h
  | a :: as, l, h => by
    refine nodup_foldl_addOnce (l := addOnce l a) ?_
    unfold addOnce
    split
    · exact h
    · rename_i ha
      rw [List.nodup_append]
      refine ⟨h, List.pairwise_singleton _ a, ?_⟩
      rintro b hb _ hm rfl
      exact ha (List.contains_iff_mem.2 (List.mem_singleton.1 hm ▸ hb))

/-- Looking up each name once, or as often as it occurs, leads to the same places. -/
theorem mapM_foldl_addOnce (f : α → Option β) (places : List β) : ∀ as l : List α,
    ((as.foldl addOnce l).mapM f).map (·.foldl addOnce places) = ((l ++ as).mapM f).map (·.foldl addOnce places)
  | [], l => by rw [List.append_nil, List.foldl_nil]
  | a :: as, l => by
    rw [List.foldl_cons, mapM_foldl_addOnce f places as, addOnce]
    split
    · rename_i ha
      rw [List.mapM_append, List.mapM_append, List.mapM_cons]
      rcases hl : l.mapM f with _ | bs
      · rfl
      · -- the repeated name leads to a place that is among those of `l`
        obtain ⟨b, hb, hab⟩ := exists_right_of_forall₂ (mapM_eq_some.1 hl) a (List.contains_iff_mem.1 ha)
        rw [hab]
        rcases as.mapM f with _ | cs
        · rfl
        · have hmem : b ∈ bs.foldl addOnce places := mem_foldl_addOnce.2 (.inr hb)
          refine congrArg some ?_
          show (bs ++ cs).foldl addOnce places = (bs ++ b :: cs).foldl addOnce places
          rw [List.foldl_append, List.foldl_append, List.foldl_cons, addOnce, if_pos (List.contains_iff_mem.2 hmem)]
    · rw [List.append_assoc, List.singleton_append]

end AddOnce

/-! ## Columns chosen -/

namespace Table

variable {t : Table} {chosen is : List Nat} {es fs : List Expr}

/-- The place of the column that a token names. -/
def place? (t : Table) : Token → Option Nat
  | .column name => t.columnIndex? name
  | .wildcard => none

theorem place?_lowerColumn (hd : Distinct t.fields) (x : Token) : t.place? x.lowerColumn = t.place? x := by
  cases x with
  | column name => exact columnIndex?_of_sameLetters hd (Text.sameLetters_lowerAscii name)
  | wildcard => rfl

theorem mapM_columns : ∀ {ts : List Token}, .wildcard ∉ ts →
    (TokenSet.columns ⟨ts⟩).mapM t.columnIndex? = ts.mapM t.place?
  | [], _ => rfl
  | .wildcard :: _, h => absurd (List.mem_cons_self ..) h
  | .column name :: ts, h => by
    have ih := mapM_columns fun hm => h (List.mem_cons_of_mem _ hm)
    unfold TokenSet.columns at ih ⊢
    simp only [List.filterMap_cons, List.mapM_cons, ih]
    rfl

theorem toOption_addNamed : ∀ (names : List String) (chosen : List Nat),
    (t.addNamed chosen names).toOption = (names.mapM t.columnIndex?).map (·.foldl addOnce chosen)
  | [], _ => rfl
  | name :: names, chosen => by
    rw [addNamed, List.mapM_cons]
    cases t.columnIndex? name with
    | none => rfl
    | some i =>
      refine (toOption_addNamed names (addNew chosen i)).trans ?_
      cases names.mapM t.columnIndex? <;> rfl

/-- The places chosen are those that the columns of the expressions name, each once. -/
theorem toOption_choose (t : Table) (chosen : List Nat) (es : List Expr) :
    (t.choose chosen es).toOption =
      if .wildcard ∈ Expr.leavesOf es then some ((List.range t.width).foldl addOnce chosen)
      else ((Expr.leavesOf es).mapM t.place?).map (·.foldl addOnce chosen) := by
  split
  · rename_i hw
    rw [choose_of_mem hw]
    rfl
  · rename_i hw
    have hw' : Token.wildcard ∉ (Expr.leavesOf es).foldl addOnce [] := by
      rw [mem_foldl_addOnce]
      rintro (h | h)
      · cases h
      · exact hw h
    rw [choose_of_not_mem hw, toOption_addNamed, Expr.tokens_of_not_mem hw, mapM_columns hw', mapM_foldl_addOnce]
    rfl

theorem mem_leavesOf_alike (h : List.Forall₂ Expr.Alike es fs) :
    .wildcard ∈ Expr.leavesOf es ↔ .wildcard ∈ Expr.leavesOf fs := by
  have hwild : ∀ ts : List Token, .wildcard ∈ ts.map Token.lowerColumn ↔ .wildcard ∈ ts := by
    intro ts
    rw [List.mem_map]
    constructor
    · rintro ⟨x, hx, he⟩
      cases x with
      | column name => cases he
      | wildcard => exact hx
    · exact fun hm => ⟨.wildcard, hm, rfl⟩
  rw [← hwild, Expr.leavesOf_alike h, hwild]

theorem choose_alike (hd : Distinct t.fields) (h : List.Forall₂ Expr.Alike es fs) (chosen : List Nat) :
    (t.choose chosen es).toOption = (t.choose chosen fs).toOption := by
  have hplaces : ∀ ts : List Token, (ts.map Token.lowerColumn).mapM t.place? = ts.mapM t.place? := by
    intro ts
    rw [List.mapM_map]
    exact congrArg (ts.mapM ·) (funext (place?_lowerColumn hd))
  have hleaves := Expr.leavesOf_alike h
  rw [toOption_choose, toOption_choose, ← hplaces (Expr.leavesOf es), hleaves, hplaces]
  simp only [mem_leavesOf_alike h]

theorem project_alike (hd : Distinct t.fields) (h : List.Forall₂ Expr.Alike es fs) :
    (t.project (Expr.tokens es)).toOption = (t.project (Expr.tokens fs)).toOption := by
  by_cases hw : .wildcard ∈ Expr.leavesOf es
  · rw [Expr.tokens_of_mem hw, Expr.tokens_of_mem ((mem_leavesOf_alike h).1 hw)]
  · have hw' : Token.wildcard ∉ Expr.leavesOf fs := fun hm => hw ((mem_leavesOf_alike h).2 hm)
    have hchoose := choose_alike hd h []
    rw [choose_of_not_mem hw, choose_of_not_mem hw'] at hchoose
    unfold project
    rw [if_neg fun hs => hw (Expr.isWildcard_tokens.1 hs), if_neg fun hs => hw' (Expr.isWildcard_tokens.1 hs)]
    exact toOption_bind_congr hchoose fun _ _ => rfl

/-- Different columns of a table with distinct names have distinct names. -/
theorem distinct_select (hd : Distinct t.fields) {cols : List Nat} (hn : cols.Nodup) (hc : ∀ i ∈ cols, i < t.width) :
    Distinct (t.select cols).fields := by
  unfold Distinct select
  rw [List.pairwise_map]
  refine hn.imp_of_mem fun {i j} hi hj hne => ?_
  by_contra hs
  exact hne (hd.index_eq (hc i hi) (hc j hj) (Bool.not_eq_false _ ▸ hs))

end Table

end TableQuery
