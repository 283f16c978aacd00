/-
The columns that expressions refer to, as a set. Whatever is added to a set, one token or all of another set, its
tokens are those of a canonical form: a star alone once a star was given, and until then the tokens given, each
where it was first given. Every addition keeps the form, so a test for the star may look at the first token only.
The walk through expressions makes the canonical form of their leaves from left to right.
-/
import TableQuery.Expr.Token
import TableQuery.Proofs.FirstOccurrence

namespace TableQuery

namespace TokenSet

variable {ts us : List Token} {t : Token}

/-! ## The canonical form -/

/-- A star alone if there is one, else every token where it first occurs. -/
def canonical (ts : List Token) : TokenSet := if .wildcard ∈ ts then all else ⟨ts.eraseDups⟩

theorem canonical_of_mem (h : .wildcard ∈ ts) : canonical ts = all := if_pos h

theorem canonical_of_not_mem (h : .wildcard ∉ ts) : canonical ts = ⟨ts.eraseDups⟩ := if_neg h

theorem nodup_canonical (ts : List Token) : (canonical ts).tokens.Nodup := by
  unfold canonical
  split
  · exact List.nodup_singleton _
  · exact nodup_eraseDups ts

theorem wildcard_mem_canonical : .wildcard ∈ (canonical ts).tokens ↔ .wildcard ∈ ts := by
  by_cases h : .wildcard ∈ ts
  · rw [canonical_of_mem h]
    exact iff_of_true (List.mem_singleton_self _) h
  · rw [canonical_of_not_mem h, List.mem_eraseDups]

theorem isWildcard_eq_false {s : TokenSet} (hs : .wildcard ∉ s.tokens) : s.isWildcard = false := by
  unfold isWildcard
  rcases s with ⟨_ | ⟨t, ts⟩⟩
  · rfl
  · simp only [List.head?_cons, beq_eq_false_iff_ne, ne_eq, Option.some.injEq]
    rintro rfl
    exact hs (List.mem_cons_self ..)

/-- In canonical form a star is the first token if there is one at all. -/
theorem isWildcard_canonical : (canonical ts).isWildcard = true ↔ .wildcard ∈ ts := by
  by_cases h : .wildcard ∈ ts
  · rw [canonical_of_mem h]
    exact iff_of_true rfl h
  · rw [isWildcard_eq_false (mt wildcard_mem_canonical.1 h)]
    exact iff_of_false Bool.false_ne_true h

/-! ## Additions -/

theorem insert_canonical (ts : List Token) (t : Token) : (canonical ts).insert t = canonical (ts ++ [t]) := by
  by_cases hw : .wildcard ∈ ts
  · rw [canonical_of_mem hw, canonical_of_mem (List.mem_append_left _ hw)]
    rfl
  have hstar : (canonical ts).isWildcard = false := isWildcard_eq_false (mt wildcard_mem_canonical.1 hw)
  have hin : (canonical ts).contains t = true ↔ t ∈ ts := by
    rw [canonical_of_not_mem hw, contains, List.contains_iff_mem, List.mem_eraseDups]
  rw [insert, hstar, Bool.false_or]
  by_cases ht : t = .wildcard
  · subst ht
    rw [if_neg (mt hin.1 hw), if_pos rfl, canonical_of_mem (by simp)]
  · have hw' : .wildcard ∉ ts ++ [t] := by
      rw [List.mem_append, List.mem_singleton]
      exact fun h => h.elim hw fun h => ht h.symm
    rw [canonical_of_not_mem hw', canonical_of_not_mem hw, eraseDups_append_singleton] at *
    by_cases hmem : t ∈ ts
    · rw [if_pos (hin.2 hmem), if_pos hmem]
    · rw [if_neg (mt hin.1 hmem), if_neg ht, if_neg hmem]

theorem insertMany_canonical (ts us : List Token) : (canonical ts).insertMany us = canonical (ts ++ us) := by
  induction us generalizing ts with
  | nil => rw [List.append_nil, insertMany, List.foldl_nil]
  | cons u us ih =>
    have hstep : (canonical ts).insertMany (u :: us) = ((canonical ts).insert u).insertMany us := rfl
    rw [hstep, insert_canonical, ih, List.append_assoc, List.singleton_append]

/-- One change of a set: a token is added, or all tokens of another set. -/
inductive Change where
  | insert (t : Token)
  | union (u : TokenSet)

/-- The tokens that a change gives. -/
def Change.given : Change → List Token
  | .insert t => [t]
  | .union u => u.tokens

def change (s : TokenSet) : Change → TokenSet
  | .insert t => s.insert t
  | .union u => s.union u

/-- A set after changes. -/
def changes (s : TokenSet) (cs : List Change) : TokenSet := cs.foldl change s

theorem change_canonical (ts : List Token) (c : Change) : (canonical ts).change c = canonical (ts ++ c.given) := by
  cases c with
  | insert t => exact insert_canonical ts t
  | union u => exact insertMany_canonical ts u.tokens

theorem changes_canonical (ts : List Token) (cs : List Change) :
    (canonical ts).changes cs = canonical (ts ++ cs.flatMap Change.given) := by
  induction cs generalizing ts with
  | nil => rw [List.flatMap_nil, List.append_nil, changes, List.foldl_nil]
  | cons c cs ih =>
    have hstep : (canonical ts).changes (c :: cs) = ((canonical ts).change c).changes cs := rfl
    rw [hstep, change_canonical, ih, List.append_assoc, List.flatMap_cons]

end TokenSet

/-! ## Expressions -/

namespace Expr

open TokenSet (canonical)

mutual

theorem collect_canonical : ∀ (e : Expr) (ts : List Token), collect (canonical ts) e = canonical (ts ++ leaves e)
  | .lit _, ts => by rw [collect, leaves, List.append_nil]
  | .column name, ts => TokenSet.insert_canonical ts (.column name)
  | .wildcard, ts => TokenSet.insert_canonical ts .wildcard
  | .call _ args, ts => collectAll_canonical args ts

theorem collectAll_canonical : ∀ (es : List Expr) (ts : List Token),
    collectAll (canonical ts) es = canonical (ts ++ leavesOf es)
  | [], ts => by rw [collectAll, leavesOf, List.append_nil]
  | e :: es, ts => by
    rw [collectAll, collect_canonical e ts, collectAll_canonical es, leavesOf, List.append_assoc]

end

theorem tokens_eq_canonical (es : List Expr) : tokens es = canonical (leavesOf es) := collectAll_canonical es []

theorem tokens_of_mem {es : List Expr} (h : .wildcard ∈ leavesOf es) : tokens es = .all := by
  rw [tokens_eq_canonical, TokenSet.canonical_of_mem h]

theorem tokens_of_not_mem {es : List Expr} (h : .wildcard ∉ leavesOf es) :
    tokens es = ⟨(leavesOf es).foldl addOnce []⟩ := by
  rw [tokens_eq_canonical, TokenSet.canonical_of_not_mem h, foldl_addOnce_nil]

end Expr

/-- A set that was empty holds, after any changes, a star alone if a star was given to it, and else the tokens given,
each where it was first given. A set that was the star stays the star. Such a set has no token twice and no column
beside a star, so the star is found in first place. The tokens of expressions are those of their leaves, of
whatever depth, given from left to right. -/
theorem TokenSet.tokens_changes (cs : List Change) (es : List Expr) :
    (changes .empty cs).tokens =
        (if .wildcard ∈ cs.flatMap Change.given then [.wildcard] else (cs.flatMap Change.given).eraseDups) ∧
      changes .all cs = .all ∧
      (∀ s ∈ [TokenSet.empty, .all], (s.changes cs).tokens.Nodup ∧
        (.wildcard ∈ (s.changes cs).tokens → s.changes cs = .all) ∧
        ((s.changes cs).isWildcard = true ↔ s = .all ∨ .wildcard ∈ cs.flatMap Change.given)) ∧
      Expr.tokens es = canonical (Expr.leavesOf es) := by
  have hempty : changes .empty cs = canonical (cs.flatMap Change.given) := changes_canonical [] cs
  have hall : changes .all cs = .all :=
    (changes_canonical [.wildcard] cs).trans (canonical_of_mem (List.mem_cons_self ..))
  refine ⟨?_, hall, ?_, Expr.tokens_eq_canonical es⟩
  · rw [hempty, canonical]
    split <;> rfl
  · rintro s hs
    rcases List.mem_cons.1 hs with rfl | hs
    · rw [hempty]
      refine ⟨nodup_canonical _, fun h => canonical_of_mem (wildcard_mem_canonical.1 h), ?_⟩
      rw [isWildcard_canonical]
      exact (or_iff_right (by decide)).symm
    · rw [List.mem_singleton.1 hs, hall]
      exact ⟨List.nodup_singleton _, fun _ => rfl, iff_of_true rfl (.inl rfl)⟩

/-- A star in an aggregate call absorbs the columns before and behind it. -/
example : Expr.tokens [.column "a", .call "count" [.wildcard], .column "b"] = .all := by decide

end TableQuery
