/-
What is seen of a printed text. The characters of an escape code, from the escape character up to its last
letter, are not shown; all others are. A text of one line shows the same wherever it stands, so what a line
shows is put together from what its parts show.
-/
import TableQuery.Output.Grid
import TableQuery.Proofs.Except
import Mathlib.Data.List.Forall2

namespace TableQuery.Style

/-! ## Texts without codes -/

/-- Neither line breaks nor escape characters. -/
def Plain (s : String) : Prop := '\n' ∉ s.toList ∧ '\x1b' ∉ s.toList

instance (s : String) : Decidable (Plain s) := inferInstanceAs (Decidable (_ ∧ _))

theorem Plain.append {s t : String} (hs : Plain s) (ht : Plain t) : Plain (s ++ t) := by
  rw [Plain, String.toList_append, List.mem_append, List.mem_append, not_or, not_or]
  exact ⟨⟨hs.1, ht.1⟩, hs.2, ht.2⟩

theorem plain_repeated {c : Char} (hbreak : '\n' ≠ c) (hesc : '\x1b' ≠ c) (n : Nat) : Plain (Grid.repeated c n) := by
  rw [Plain, Grid.repeated, String.toList_ofList]
  exact ⟨fun h => hbreak (List.eq_of_mem_replicate h), fun h => hesc (List.eq_of_mem_replicate h)⟩

theorem plain_intercalate {sep : String} (hsep : Plain sep) : ∀ {ss : List String}, (∀ s ∈ ss, Plain s) →
    Plain (sep.intercalate ss)
  | [], _ => by
    rw [String.intercalate_nil]
    decide
  | [s], h => by
    rw [String.intercalate_singleton]
    exact h s (List.mem_singleton_self s)
  | s :: s' :: ss, h => by
    have hrest := plain_intercalate hsep fun t ht => h t (List.mem_cons_of_mem s ht)
    rw [String.intercalate_cons_cons]
    exact ((h s List.mem_cons_self).append hsep).append hrest

/-- The digits of a number. -/
theorem plain_toString (n : Nat) : Plain (toString n) := by
  have hdigits : ∀ c ∈ (toString n).toList, c.isDigit = true := fun c hc =>
    Nat.isDigit_of_mem_toDigits (by decide) (by decide) (Nat.toList_repr ▸ hc)
  exact ⟨fun h => absurd (hdigits _ h) (by decide), fun h => absurd (hdigits _ h) (by decide)⟩

/-! ## What is shown -/

/-- The characters outside of escape codes; a code ends with the letter m. -/
def visibleFrom (inCode : Bool) : List Char → List Char
  | [] => []
  | c :: r =>
    if inCode then visibleFrom (c != 'm') r
    else if c = '\x1b' then visibleFrom true r
    else c :: visibleFrom false r

def visible (cs : List Char) : List Char := visibleFrom false cs

theorem visible_append {cs : List Char} (h : '\x1b' ∉ cs) (r : List Char) : visible (cs ++ r) = cs ++ visible r := by
  induction cs with
  | nil => rfl
  | cons c cs ih =>
    rw [List.mem_cons, not_or] at h
    show (if c = '\x1b' then _ else c :: visible (cs ++ r)) = _
    rw [if_neg (Ne.symm h.1), ih h.2, List.cons_append]

/-- On one line a text shows these characters, whatever stands behind it. -/
structure Shows (s : String) (cs : List Char) : Prop where
  visible_append : ∀ r, visible (s.toList ++ r) = cs ++ visible r
  oneLine : '\n' ∉ s.toList

variable {s t : String} {cs ds : List Char}

theorem Shows.visible_eq (h : Shows s cs) : visible s.toList = cs := by
  have hnil : visible [] = [] := rfl
  have hs := h.visible_append []
  rwa [List.append_nil, hnil, List.append_nil] at hs

theorem Plain.shows (h : Plain s) : Shows s s.toList := ⟨visible_append h.2, h.1⟩

theorem Shows.append (hs : Shows s cs) (ht : Shows t ds) : Shows (s ++ t) (cs ++ ds) where
  visible_append r := by
    rw [String.toList_append, List.append_assoc, hs.visible_append, ht.visible_append, List.append_assoc]
  oneLine := by
    rw [String.toList_append, List.mem_append, not_or]
    exact ⟨hs.oneLine, ht.oneLine⟩

/-- Pieces one behind the other. -/
theorem Shows.join {α : Type} {f : α → String} {g : α → List Char} {xs : List α} (h : ∀ x ∈ xs, Shows (f x) (g x)) :
    Shows (String.join (xs.map f)) (xs.flatMap g) where
  visible_append r := by
    rw [String.toList_join, List.flatMap_map]
    induction xs with
    | nil => rfl
    | cons x xs ih =>
      rw [List.flatMap_cons, List.flatMap_cons, List.append_assoc, (h x List.mem_cons_self).visible_append,
        ih fun y hy => h y (List.mem_cons_of_mem x hy), List.append_assoc]
  oneLine := by
    rw [String.toList_join, List.flatMap_map, List.mem_flatMap]
    rintro ⟨x, hx, hbreak⟩
    exact (h x hx).oneLine hbreak

/-- A style is not shown itself. -/
theorem Shows.paint {style : String} (hstyle : Shows style []) (hs : Shows s cs) : Shows (paint style s) cs := by
  have hreset : Shows reset [] := ⟨fun _ => rfl, by decide⟩
  have h := (hstyle.append hs).append hreset
  rwa [List.nil_append, List.append_nil] at h

theorem shows_border : Shows border [] := ⟨fun _ => rfl, by decide⟩

theorem shows_footer : Shows footer [] := ⟨fun _ => rfl, by decide⟩

/-! ## Lines -/

/-- The lines of a text, each ended by a line break. -/
def linesOf (text : String) : List (List Char) := (text.toList.splitOn '\n').dropLast

theorem intercalate_concat_nil (sep : List Char) (ls : List (List Char)) :
    sep.intercalate (ls ++ [[]]) = ls.flatMap (· ++ sep) := by
  induction ls with
  | nil => rfl
  | cons l ls ih =>
    rw [List.cons_append, List.intercalate_cons_of_ne_nil (by simp), ih, List.flatMap_cons]

theorem linesOf_join {ls : List String} (h : ∀ l ∈ ls, '\n' ∉ l.toList) :
    linesOf (String.join (ls.map (· ++ "\n"))) = ls.map String.toList := by
  have htext : (String.join (ls.map (· ++ "\n"))).toList = ['\n'].intercalate (ls.map String.toList ++ [[]]) := by
    rw [String.toList_join, List.flatMap_map, intercalate_concat_nil, List.flatMap_map]
    simp only [String.toList_append]
    rfl
  rw [linesOf, htext, List.splitOn_intercalate, List.dropLast_concat]
  · intro l hl
    rcases List.mem_append.1 hl with hl | hl
    · obtain ⟨s, hs, rfl⟩ := List.mem_map.1 hl
      exact h s hs
    · rw [List.mem_singleton.1 hl]
      exact List.not_mem_nil
  · simp

/-- What the lines of a text show. -/
def shownLines (text : String) : List (List Char) := (linesOf text).map visible

theorem shownLines_join {ls : List String} {shown : List (List Char)} (h : List.Forall₂ Shows ls shown) :
    shownLines (String.join (ls.map (· ++ "\n"))) = shown := by
  have hbreak : ∀ l ∈ ls, '\n' ∉ l.toList := fun l hl => by
    obtain ⟨cs, -, hcs⟩ := exists_right_of_forall₂ h l hl
    exact hcs.oneLine
  rw [shownLines, linesOf_join hbreak]
  clear hbreak
  induction h with
  | nil => rfl
  | cons hs _ ih => rw [List.map_cons, List.map_cons, hs.visible_eq, ih]

end TableQuery.Style
