/-
What parsers read. A statement about a parser speaks of its results where it succeeds, and is put together from
statements about its parts. Of the terms, only the literal itself is a text: every operator behind one makes
another term of it.
-/
import TableQuery.Proofs.Except
import TableQuery.Sql.Parser.Statement

namespace TableQuery.Sql

namespace Parser

variable {α β : Type} {p : Parser α} {f : α → Parser β} {ls rest : List Lexeme} {a : α}

theorem bind_of_ok (h : p ls = .ok (a, rest)) : (p >>= f) ls = f a rest := by
  show (p ls >>= fun r => f r.1 r.2) = _
  rw [h]
  rfl

/-- If the parser succeeds on the lexemes, this holds of its result and of what it leaves of them. -/
def Yields (p : Parser α) (ls : List Lexeme) (P : α → List Lexeme → Prop) : Prop :=
  ∀ a rest, p ls = .ok (a, rest) → P a rest

/-- If the parser succeeds, this holds of its result, whatever was read. -/
def Gives (p : Parser α) (P : α → Prop) : Prop := ∀ ls, Yields p ls fun a _ => P a

namespace Yields

variable {P Q : α → List Lexeme → Prop} {R : β → List Lexeme → Prop}

theorem bind (hp : Yields p ls Q) (hf : ∀ a rest, Q a rest → Yields (f a) rest R) : Yields (p >>= f) ls R := by
  intro b rest h
  obtain ⟨⟨a, ls'⟩, ha, h⟩ := bind_ok h
  exact hf a ls' (hp a ls' ha) b rest h

/-- A first part of which it is known what it does here. -/
theorem step (hp : p ls = .ok (a, rest)) (hf : Yields (f a) rest R) : Yields (p >>= f) ls R := by
  intro b rest' h
  rw [bind_of_ok hp] at h
  exact hf b rest' h

/-- A first part that says nothing about what follows. -/
theorem skip (hf : ∀ a rest, Yields (f a) rest R) : Yields (p >>= f) ls R :=
  bind (Q := fun _ _ => True) (fun _ _ _ => trivial) fun a rest _ => hf a rest

theorem pure (h : P a ls) : Yields (pure a : Parser α) ls P := by
  intro b rest hb
  cases hb
  exact h

theorem fail : Yields (fail : Parser α) ls P := fun _ _ h => by cases h

theorem mono (hp : Yields p ls Q) (h : ∀ a rest, Q a rest → P a rest) : Yields p ls P :=
  fun a rest hr => h a rest (hp a rest hr)

/-- A parser that is attempted leaves everything where it fails. -/
theorem attempt (hp : Yields p ls P) :
    Yields (attempt p) ls fun o rest => match o with
      | some a => P a rest
      | none => rest = ls := by
  intro o rest h
  unfold Parser.attempt at h
  split at h
  · rename_i hread
    cases h
    exact hp _ _ hread
  · cases h
  · cases h
    rfl

/-- The first element of a list. -/
theorem list {S : α → Prop} (hp : Yields p ls fun a _ => S a) :
    Yields (list p) ls fun as _ => ∃ a more, as = a :: more ∧ S a := by
  refine .step rfl ?_
  refine .bind hp fun a rest ha => .skip fun ends rest => ?_
  cases ends with
  | true => exact .pure ⟨a, [], rfl, ha⟩
  | false => exact .skip fun more _ => .pure ⟨a, more, rfl, ha⟩

end Yields

namespace Gives

variable {P : α → Prop} {R : β → Prop}

theorem bind (hf : ∀ a, Gives (f a) R) : Gives (p >>= f) R := fun _ => .skip fun a rest => hf a rest

theorem pure (h : P a) : Gives (pure a : Parser α) P := fun _ => .pure h

theorem fail : Gives (fail : Parser α) P := fun _ => .fail

end Gives

end Parser

/-! ## Terms that are texts -/

/-- Not a text literal. -/
def Term.NotText (t : Term) : Prop := ∀ s, t ≠ .literal (.text s)

namespace Grammar

open Sql.Parser (Gives Yields)

variable (g : Grammar) (start : List Lexeme) (left : Term)

theorem gives_spelled {α : Type} (p : Parser α) : Gives (spelled start p) Term.NotText :=
  .bind fun _ => .bind fun _ => .pure nofun

theorem gives_isTerm : Gives (g.isTerm start left) Term.NotText := by
  unfold isTerm
  refine .bind fun negated => .bind fun isNull => ?_
  split
  · exact .pure nofun
  · refine .bind fun truth => ?_
    split
    · exact .bind fun _ => .pure nofun
    · exact .bind fun _ => gives_spelled start _

theorem gives_inTerm (negated : Bool) : Gives (g.inTerm start left negated) Term.NotText := by
  unfold inTerm
  refine .bind fun unnest => ?_
  split
  · exact gives_spelled start _
  · refine .bind fun _ => .bind fun q => ?_
    split
    · exact gives_spelled start _
    · exact .bind fun _ => .bind fun _ => .pure nofun

theorem gives_likeTerm (negated anyCase : Bool) : Gives (g.likeTerm left negated anyCase) Term.NotText := by
  unfold likeTerm
  refine .bind fun any => .bind fun pattern => .bind fun escapes => ?_
  split
  · exact .bind fun _ => .pure nofun
  · exact .pure nofun

theorem gives_negatableTerm : Gives (g.negatableTerm start left) Term.NotText := by
  unfold negatableTerm
  refine .bind fun negated => .bind fun word => ?_
  split
  · exact g.gives_inTerm start left negated
  · exact .bind fun _ => .bind fun _ => .bind fun _ => .pure nofun
  · exact g.gives_likeTerm left negated false
  · exact g.gives_likeTerm left negated true
  · exact .bind fun _ => gives_spelled start _
  · exact gives_spelled start _
  · exact .fail

/-- An operator makes a term that is no text. -/
theorem gives_operation (strength : Nat) : Gives (g.operation start left strength) Term.NotText := by
  unfold operation
  refine .bind fun behind => .bind fun l => ?_
  split
  · exact .fail
  split
  · refine .bind fun word => ?_
    split
    · exact gives_spelled start _
    · exact .bind fun _ => .pure nofun
  split
  · exact .bind fun _ => .pure nofun
  split
  · exact gives_spelled start _
  split
  · exact g.gives_isTerm start left
  · exact .bind fun _ => gives_spelled start _
  · exact .bind fun _ => g.gives_negatableTerm start left

/-- Behind a first term it stands alone, or operators made another term of it, which is no text. -/
theorem gives_operationsUpTo (bound n : Nat) (left : Term) :
    Gives (g.operationsUpTo start bound n left) fun t => t = left ∨ t.NotText := by
  induction n generalizing left with
  | zero => exact .fail
  | succ n ih =>
    unfold operationsUpTo
    refine .bind fun strength => ?_
    split
    · exact .pure (.inl rfl)
    · intro ls
      refine (g.gives_operation start left strength ls).bind fun t rest ht => ?_
      refine (ih t rest).mono fun t' _ ht' => .inr ?_
      rcases ht' with rfl | ht'
      · exact ht
      · exact ht'

end Grammar

end TableQuery.Sql
