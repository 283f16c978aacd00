/-
The grid of a table. For a well-formed table with a column nothing runs out while its grid is made: every row
has a value for each column, a long table has the rows that are cut out of it, and no width is less than what
is taken from it. If no name and no cell has line breaks or escape characters, all lines show as many
characters; the names, and of each row the text of every cell, stand whole between the lines of their columns,
for all rows in order if there are at most forty, else for the first twenty, a line of dots and the last twenty.
-/
import TableQuery.Proofs.Output.Style
import Mathlib.Algebra.Order.Ring.Nat

namespace TableQuery.Grid

open TableQuery.Style

/-! ## Cells -/

theorem toList_pad (a : Align) (width : Nat) (s : String) : ∃ m n, m + n = width - s.length ∧
    (pad a width s).toList = List.replicate m ' ' ++ s.toList ++ List.replicate n ' ' := by
  cases a with
  | left => exact ⟨0, width - s.length, Nat.zero_add _, by simp [pad, repeated]⟩
  | right => exact ⟨width - s.length, 0, rfl, by simp [pad, repeated]⟩
  | center =>
    refine ⟨(width - s.length) / 2, width - s.length - (width - s.length) / 2, by omega, ?_⟩
    simp [pad, repeated]

theorem plain_pad (a : Align) (width : Nat) {s : String} (hs : Plain s) : Plain (pad a width s) := by
  have hspaces : ∀ n, Plain (repeated ' ' n) := plain_repeated (by decide) (by decide)
  cases a with
  | left => exact hs.append (hspaces _)
  | right => exact (hspaces _).append hs
  | center => exact ((hspaces _).append hs).append (hspaces _)

/-- The whole text between spaces. -/
def Padded (s : String) (cell : List Char) : Prop :=
  ∃ m n, cell = List.replicate m ' ' ++ s.toList ++ List.replicate n ' '

/-- A text that fits, in a style. -/
def IsCell (width : Nat) (s cell : String) : Prop :=
  Plain s ∧ s.length ≤ width ∧ ∃ style a, Shows style [] ∧ cell = paint style (pad a width s)

variable {width : Nat} {s cell : String}

theorem IsCell.shows (h : IsCell width s cell) :
    ∃ shown, Shows cell shown ∧ shown.length = width ∧ Padded s shown := by
  obtain ⟨hs, hle, style, a, hstyle, rfl⟩ := h
  obtain ⟨m, n, hmn, hpad⟩ := toList_pad a width s
  refine ⟨_, hstyle.paint (plain_pad a width hs).shows, ?_, m, n, hpad⟩
  rw [hpad, List.length_append, List.length_append, List.length_replicate, List.length_replicate, String.length_toList]
  omega

/-! ## Lines of cells -/

/-- A line in which each text stands in its column, between vertical lines. -/
def IsRow (widths : List Nat) (texts : List String) (line : List Char) : Prop := ∃ cells : List (List Char),
  line = cells.flatMap (fun c => '│' :: ' ' :: (c ++ [' '])) ++ ['│'] ∧
    List.Forall₂ (fun w c => c.length = w) widths cells ∧ List.Forall₂ Padded texts cells

theorem IsRow.length_eq {widths : List Nat} {texts : List String} {line : List Char} (h : IsRow widths texts line) :
    line.length = widths.sum + 3 * widths.length + 1 := by
  obtain ⟨cells, rfl, hwidths, -⟩ := h
  rw [List.length_append]
  induction hwidths with
  | nil => rfl
  | cons hc _ ih =>
    simp only [List.flatMap_cons, List.length_append, List.length_cons, List.length_nil, List.sum_cons] at ih ⊢
    omega

theorem shows_bar : Shows bar ['│'] := shows_border.paint (Plain.shows (by decide))

theorem exists_isRow {α : Type} {xs : List α} {width : α → Nat} {text cell : α → String}
    (h : ∀ x ∈ xs, IsCell (width x) (text x) (cell x)) :
    ∃ line, Shows (boxed (xs.map cell)) line ∧ IsRow (xs.map width) (xs.map text) line := by
  choose! shown hshows hlength hpadded using fun x hx => (h x hx).shows
  refine ⟨xs.flatMap (fun x => '│' :: ' ' :: (shown x ++ [' '])) ++ ['│'], ?_, xs.map shown, ?_, ?_, ?_⟩
  · have hspace : Shows " " [' '] := Plain.shows (by decide)
    rw [boxed, List.map_map]
    exact (Shows.join fun x hx => ((shows_bar.append hspace).append (hshows x hx)).append hspace).append shows_bar
  · rw [List.flatMap_map]
  · rw [List.forall₂_map_left_iff, List.forall₂_map_right_iff, List.forall₂_same]
    exact hlength
  · rw [List.forall₂_map_left_iff, List.forall₂_map_right_iff, List.forall₂_same]
    exact hpadded

/-! ## Rows -/

variable {t : Table} {ls : List Line} {cs : List Column} {col inner : Nat} {name : String} {c : Column}

theorem difference?_of_le {a b : Nat} (h : b ≤ a) : difference? a b = some (a - b) := if_pos h

theorem rowsBetween?_of_le {first last : Nat} (h : first ≤ last) (hlast : last ≤ t.size) :
    rowsBetween? t first last = some ((t.rows.take last).drop first) := if_pos ⟨h, hlast⟩

theorem isLong_iff : isLong t = true ↔ 40 < t.size := decide_eq_true_iff

/-- The texts of a line in a number of columns. -/
def Line.texts (width : Nat) : Line → List String
  | row values => values.map Value.toText
  | dots => List.replicate width dotsText

/-- The texts that the grid has to show, line by line. -/
def bodyTexts (t : Table) : List (List String) :=
  if t.size ≤ 40 then t.rows.map (·.map Value.toText)
  else (t.rows.take 20).map (·.map Value.toText) ++
    List.replicate t.width "···" :: (t.rows.drop (t.size - 20)).map (·.map Value.toText)

/-- The line is one of the table. -/
def Line.Of (t : Table) (l : Line) : Prop := l = dots ∨ ∃ row ∈ t.rows, l = .row row

theorem of_mem_map_row {rows : List Row} (hsub : rows ⊆ t.rows) : ∀ l ∈ rows.map Line.row, l.Of t := by
  intro l hl
  obtain ⟨row, hr, rfl⟩ := List.mem_map.1 hl
  exact .inr ⟨row, hsub hr, rfl⟩

theorem lines?_short (h : t.size ≤ 40) : lines? t = some (t.rows.map .row) := by
  have hlong : isLong t = false := Bool.eq_false_iff.2 fun hlong => Nat.not_lt.2 h (isLong_iff.1 hlong)
  have hall : rowsBetween? t 0 t.size = some t.rows := by
    rw [rowsBetween?_of_le (Nat.zero_le _) (Nat.le_refl _), Table.size, List.take_length, List.drop_zero]
  simp only [lines?, hlong, Bool.false_eq_true, if_false, hall, Option.bind_eq_bind, Option.bind_some,
    Option.pure_def]

theorem lines?_long (h : 40 < t.size) :
    lines? t = some ((t.rows.take 20).map .row ++ .dots :: (t.rows.drop (t.size - 20)).map .row) := by
  have hlong : isLong t = true := isLong_iff.2 h
  have hle : 20 ≤ t.size := by omega
  have hhead : rowsBetween? t 0 headRows = some (t.rows.take 20) := rowsBetween?_of_le (Nat.zero_le _) hle
  have hdiff : difference? t.size tailRows = some (t.size - tailRows) := difference?_of_le hle
  have htail : rowsBetween? t (t.size - tailRows) t.size = some (t.rows.drop (t.size - 20)) := by
    rw [rowsBetween?_of_le (Nat.sub_le _ _) (Nat.le_refl _), Table.size, List.take_length]
    rfl
  simp only [lines?, hlong, if_true, hhead, hdiff, htail, Option.bind_eq_bind, Option.bind_some, Option.pure_def]

theorem lines?_eq (t : Table) : ∃ ls, lines? t = some ls ∧ ls.map (Line.texts t.width) = bodyTexts t ∧
    ∀ l ∈ ls, l.Of t := by
  have htexts : Line.texts t.width ∘ Line.row = (·.map Value.toText) := rfl
  by_cases hsize : t.size ≤ 40
  · refine ⟨_, lines?_short hsize, ?_, of_mem_map_row (List.Subset.refl _)⟩
    rw [bodyTexts, if_pos hsize, List.map_map, htexts]
  · refine ⟨_, lines?_long (Nat.not_le.1 hsize), ?_, ?_⟩
    · rw [bodyTexts, if_neg hsize, List.map_append, List.map_cons, List.map_map, List.map_map, htexts]
      rfl
    · rw [List.forall_mem_append, List.forall_mem_cons]
      exact ⟨of_mem_map_row (List.take_subset _ _), .inl rfl, of_mem_map_row (List.drop_subset _ _)⟩

/-! ## Columns -/

/-- The column is of this name, and as wide as its name, its kind and every cell. -/
structure Column.Holds (ls : List Line) (name : String) (col : Nat) (c : Column) : Prop where
  name_eq : c.name = name
  name_le : name.length ≤ c.width
  kind_le : c.kind.name.length ≤ c.width
  cell_le : ∀ l ∈ ls, ∀ s, l.cell? col = some s → s.length ≤ c.width

theorem Column.Holds.widen (h : c.Holds ls name col) (extra : Nat) :
    Column.Holds ls name col { c with width := c.width + extra } where
  name_eq := h.name_eq
  name_le := Nat.le_add_right_of_le h.name_le
  kind_le := Nat.le_add_right_of_le h.kind_le
  cell_le l hl s hs := Nat.le_add_right_of_le (h.cell_le l hl s hs)

theorem exists_columnKind? {rows : List Row} (h : ∀ row ∈ rows, col < row.length) :
    ∃ kind, columnKind? col rows = some kind := by
  induction rows with
  | nil => exact ⟨.null, rfl⟩
  | cons row rows ih =>
    rw [List.forall_mem_cons] at h
    rw [columnKind?, List.getElem?_eq_getElem h.1]
    by_cases hnull : row[col].isNull = true
    · obtain ⟨kind, hkind⟩ := ih h.2
      exact ⟨kind, (if_pos hnull).trans hkind⟩
    · exact ⟨row[col].kind, if_neg hnull⟩

theorem exists_cell? (ht : t.WellFormed) {l : Line} (hl : l.Of t) (hcol : col < t.width) :
    ∃ s, l.cell? col = some s := by
  rcases hl with rfl | ⟨row, hrow, rfl⟩
  · exact ⟨dotsText, rfl⟩
  · have hlt : col < row.length := Nat.lt_of_lt_of_eq hcol (ht row hrow).symm
    exact ⟨row[col].toText, by rw [Line.cell?, List.getElem?_eq_getElem hlt]; rfl⟩

theorem le_foldl_max (ns : List Nat) (n : Nat) : n ≤ ns.foldl max n ∧ ∀ k ∈ ns, k ≤ ns.foldl max n := by
  induction ns generalizing n with
  | nil => exact ⟨Nat.le_refl n, fun k hk => by cases hk⟩
  | cons m ns ih =>
    obtain ⟨hle, hall⟩ := ih (max n m)
    refine ⟨Nat.le_trans (Nat.le_max_left n m) hle, List.forall_mem_cons.2 ⟨?_, hall⟩⟩
    exact Nat.le_trans (Nat.le_max_right n m) hle

theorem exists_column? (ht : t.WellFormed) (hls : ∀ l ∈ ls, l.Of t) (hcol : col < t.width) (name : String) :
    ∃ c, column? t ls name col = some c ∧ c.Holds ls name col := by
  obtain ⟨kind, hkind⟩ := exists_columnKind? fun row hrow => Nat.lt_of_lt_of_eq hcol (ht row hrow).symm
  obtain ⟨cells, hcells, -⟩ := exists_mapM_some fun l hl =>
    (exists_cell? ht (hls l hl) hcol).imp fun _ hs => ⟨hs, trivial⟩
  obtain ⟨hname, hall⟩ := le_foldl_max (cells.map String.length) (max name.length kind.name.length)
  have hcolumn : column? t ls name col =
      some ⟨name, kind, (cells.map String.length).foldl max (max name.length kind.name.length)⟩ := by
    simp only [column?, hkind, hcells, Option.bind_eq_bind, Option.bind_some, Option.pure_def]
  refine ⟨_, hcolumn, rfl, ?_, ?_, ?_⟩
  · exact Nat.le_trans (Nat.le_max_left _ _) hname
  · exact Nat.le_trans (Nat.le_max_right _ _) hname
  · intro l hl s hs
    obtain ⟨s', hs', heq⟩ := exists_right_of_forall₂ (mapM_eq_some.1 hcells) l hl
    rw [hs, Option.some_inj] at heq
    exact hall _ (List.mem_map.2 ⟨s', hs', by rw [heq]⟩)

/-- To make the last of some columns wider keeps what holds of them. -/
theorem exists_widenLast? {α : Type} {R : α → Column → Prop} {xs : List α} (extra : Nat)
    (h : List.Forall₂ R xs cs) (hne : cs ≠ []) (hwiden : ∀ x c, R x c → R x { c with width := c.width + extra }) :
    ∃ cs', widenLast? extra cs = some cs' ∧ List.Forall₂ R xs cs' ∧
      (cs'.map (·.width)).sum = (cs.map (·.width)).sum + extra := by
  induction h with
  | nil => exact absurd rfl hne
  | @cons x c xs cs hc hcs ih =>
    cases cs with
    | nil =>
      cases hcs
      exact ⟨[{ c with width := c.width + extra }], rfl, .cons (hwiden x c hc) .nil, by simp⟩
    | cons d ds =>
      obtain ⟨cs', hcs', hR, hsum⟩ := ih (List.cons_ne_nil d ds)
      refine ⟨c :: cs', ?_, .cons hc hR, ?_⟩
      · rw [widenLast?, hcs']
        · rfl
        · exact List.cons_ne_nil d ds
      · rw [List.map_cons, List.sum_cons, hsum, List.map_cons (l := d :: ds), List.sum_cons, Nat.add_assoc]

theorem foldr_width_add (cs : List Column) (k n : Nat) :
    cs.foldr (fun c m => c.width + k + m) n = (cs.map (·.width)).sum + k * cs.length + n := by
  induction cs with
  | nil => simp
  | cons c cs ih =>
    rw [List.foldr_cons, ih, List.map_cons, List.sum_cons, List.length_cons, Nat.mul_succ]
    omega

theorem innerWidth?_eq (hne : cs ≠ []) : ∃ inner, innerWidth? cs = some inner ∧
    inner + 1 = (cs.map (·.width)).sum + 3 * cs.length := by
  have hpos := List.length_pos_iff.2 hne
  have hsum := foldr_width_add cs 2 cs.length
  refine ⟨_, difference?_of_le (by omega), ?_⟩
  omega

/-- Columns that hold what they have to show, the width between the outer lines, and room for the footer. -/
structure Framed (t : Table) (ls : List Line) (cs : List Column) (inner : Nat) : Prop where
  holds : List.Forall₂ (fun x c => Column.Holds ls x.1 x.2 c) t.fields.zipIdx cs
  inner_eq : inner + 1 = (cs.map (·.width)).sum + 3 * cs.length
  footer_le : footerWidth t ≤ inner

theorem exists_columns? (ht : t.WellFormed) (hw : 0 < t.width) (hls : ∀ l ∈ ls, l.Of t) :
    ∃ cs inner, columns? t ls = some (cs, inner) ∧ Framed t ls cs inner := by
  have hcolumn : ∀ x ∈ t.fields.zipIdx, ∃ c, column? t ls x.1 x.2 = some c ∧ c.Holds ls x.1 x.2 := fun x hx =>
    exists_column? ht hls (List.snd_lt_of_mem_zipIdx hx) x.1
  obtain ⟨cs, hcs, hholds⟩ := exists_mapM_some hcolumn
  have hlen : cs.length = t.width := by rw [← hholds.length_eq, List.length_zipIdx, Table.width]
  have hne : cs ≠ [] := List.ne_nil_of_length_pos (hlen ▸ hw)
  obtain ⟨inner, hinner, heq⟩ := innerWidth?_eq hne
  have hcolumns : columns? t ls = if inner < footerWidth t then
        (difference? (footerWidth t) inner).bind fun extra =>
          (widenLast? extra cs).bind fun cs => some (cs, inner + extra)
      else some (cs, inner) := by
    show ((t.fields.zipIdx.mapM fun x => column? t ls x.1 x.2).bind fun cs => _) = _
    rw [hcs]
    show ((innerWidth? cs).bind fun inner => _) = _
    rw [hinner]
    rfl
  by_cases hfooter : inner < footerWidth t
  · obtain ⟨cs', hcs', hholds', hsum⟩ := exists_widenLast? (footerWidth t - inner) hholds hne
      fun x c hc => hc.widen _
    refine ⟨cs', inner + (footerWidth t - inner), ?_, hholds', ?_, by omega⟩
    · rw [hcolumns, if_pos hfooter, difference?_of_le (Nat.le_of_lt hfooter), Option.bind_some, hcs']
      rfl
    · have hlen' : cs'.length = cs.length := by rw [← hholds'.length_eq, hholds.length_eq]
      omega
  · exact ⟨cs, inner, by rw [hcolumns, if_neg hfooter], hholds, heq, Nat.not_lt.1 hfooter⟩

/-! ## The lines of the body -/

/-- Names and cells have neither line breaks nor escape characters. -/
structure PlainTable (t : Table) : Prop where
  names : ∀ name ∈ t.fields, Plain name
  cells : ∀ row ∈ t.rows, ∀ v ∈ row, Plain v.toText

namespace Framed

theorem length_eq (h : Framed t ls cs inner) : cs.length = t.width := by
  rw [← h.holds.length_eq, List.length_zipIdx, Table.width]

theorem names_eq (h : Framed t ls cs inner) : cs.map (·.name) = t.fields := by
  have hnames : List.Forall₂ (· = ·) (cs.map (·.name)) (t.fields.zipIdx.map (·.1)) := by
    rw [List.forall₂_map_left_iff, List.forall₂_map_right_iff]
    exact h.holds.flip.imp fun _ _ hc => hc.name_eq
  rwa [List.forall₂_eq_eq_eq, List.zipIdx_map_fst] at hnames

theorem labels_le (h : Framed t ls cs inner) : ∀ c ∈ cs, c.name.length ≤ c.width ∧ c.kind.name.length ≤ c.width := by
  intro c hc
  obtain ⟨x, -, hx⟩ := exists_left_of_forall₂ h.holds c hc
  exact ⟨hx.name_eq ▸ hx.name_le, hx.kind_le⟩

theorem cell_le (h : Framed t ls cs inner) (hc : cs[col]? = some c) {l : Line} (hl : l ∈ ls)
    (hs : l.cell? col = some s) : s.length ≤ c.width := by
  obtain ⟨hcol, rfl⟩ := List.getElem?_eq_some_iff.1 hc
  obtain ⟨hlen, hget⟩ := List.forall₂_iff_get.1 h.holds
  have hholds := hget col (hlen ▸ hcol) hcol
  refine hholds.cell_le l hl s ?_
  simpa using hs

end Framed

/-- The values of a row beside their columns. -/
theorem cells?_row {values : Row} (hlen : values.length = cs.length) :
    Line.cells? cs (.row values) = some ((cs.zip values).map fun x => valueCell x.1 x.2) := by
  rw [Line.cells?, mapM_eq_some, List.forall₂_iff_get]
  refine ⟨by simp [hlen], fun i h1 h2 => ?_⟩
  have hi : i < values.length := by simpa [hlen] using h1
  simp [List.getElem?_eq_getElem hi]

theorem isCell_dots (hc : dotsText.length ≤ c.width) : IsCell c.width dotsText (dotsCell c) :=
  ⟨by decide, hc, footer, .center, shows_footer, rfl⟩

theorem isCell_value {v : Value} (hv : Plain v.toText) (hle : v.toText.length ≤ c.width) :
    IsCell c.width v.toText (valueCell c v) := by
  refine ⟨hv, hle, ?_⟩
  unfold valueCell
  split
  · exact ⟨_, _, ⟨fun _ => rfl, by decide⟩, rfl⟩
  · exact ⟨_, _, ⟨fun _ => rfl, by decide⟩, rfl⟩

theorem isCell_name (hc : Plain c.name) (hle : c.name.length ≤ c.width) : IsCell c.width c.name (nameCell c) :=
  ⟨hc, hle, bold ++ header, .center, ⟨fun _ => rfl, by decide⟩, rfl⟩

theorem isCell_kind (hle : c.kind.name.length ≤ c.width) : IsCell c.width c.kind.name (kindCell c) :=
  ⟨by cases c.kind <;> decide, hle, kind, .center, ⟨fun _ => rfl, by decide⟩, rfl⟩

/-- Every line of the body shows its texts in the columns. -/
theorem exists_bodyLine (ht : t.WellFormed) (hp : PlainTable t) (h : Framed t ls cs inner) {l : Line} (hl : l ∈ ls)
    (hof : l.Of t) : ∃ printed shown, (l.cells? cs).map boxed = some printed ∧ Shows printed shown ∧
      IsRow (cs.map (·.width)) (l.texts t.width) shown := by
  rcases hof with rfl | ⟨values, hrow, rfl⟩
  · have hdots : ∀ c ∈ cs, IsCell c.width dotsText (dotsCell c) := fun c hc => by
      obtain ⟨col, hcol⟩ := List.mem_iff_getElem?.1 hc
      exact isCell_dots (h.cell_le hcol hl rfl)
    obtain ⟨shown, hshown, hisRow⟩ := exists_isRow hdots
    rw [List.map_const', h.length_eq] at hisRow
    exact ⟨_, shown, rfl, hshown, hisRow⟩
  · have hlen : values.length = cs.length := (ht values hrow).trans h.length_eq.symm
    have hvalues : ∀ x ∈ cs.zip values, IsCell x.1.width x.2.toText (valueCell x.1 x.2) := fun x hx => by
      obtain ⟨col, hcol⟩ := List.mem_iff_getElem?.1 hx
      obtain ⟨hc, hv⟩ := List.getElem?_zip_eq_some.1 hcol
      exact isCell_value (hp.cells values hrow _ (List.mem_of_getElem? hv))
        (h.cell_le hc hl (by rw [Line.cell?, hv]; rfl))
    obtain ⟨shown, hshown, hisRow⟩ := exists_isRow hvalues
    refine ⟨_, shown, by rw [cells?_row hlen]; rfl, hshown, ?_⟩
    have hwidths : (cs.zip values).map (fun x => x.1.width) = cs.map (·.width) := by
      show (cs.zip values).map (Column.width ∘ Prod.fst) = cs.map Column.width
      rw [← List.map_map, List.map_fst_zip (Nat.le_of_eq hlen.symm)]
    have htexts : (cs.zip values).map (fun x => x.2.toText) = values.map Value.toText := by
      show (cs.zip values).map (Value.toText ∘ Prod.snd) = _
      rw [← List.map_map, List.map_snd_zip (Nat.le_of_eq hlen)]
    rwa [hwidths, htexts] at hisRow

/-! ## Lines of the frame -/

theorem length_intercalate {sep : String} (hsep : sep.length = 1) : ∀ {ss : List String}, ss ≠ [] →
    (sep.intercalate ss).length + 1 = ss.foldr (fun s n => s.length + 1 + n) 0
  | [s], _ => by simp
  | s :: s' :: ss, _ => by
    have hrest := length_intercalate hsep (List.cons_ne_nil s' ss)
    rw [List.foldr_cons, ← hrest, String.intercalate_cons_cons, String.length_append, String.length_append, hsep]
    omega

theorem exists_rule (left cross right : String) (hleft : Plain left ∧ left.length = 1)
    (hcross : Plain cross ∧ cross.length = 1) (hright : Plain right ∧ right.length = 1) (hne : cs ≠ []) :
    ∃ shown, Shows (rule left cross right cs) shown ∧ shown.length = (cs.map (·.width)).sum + 3 * cs.length + 1 := by
  have hpieces : ∀ s ∈ cs.map fun c => repeated '─' (c.width + 2), Plain s := fun s hs => by
    obtain ⟨c, -, rfl⟩ := List.mem_map.1 hs
    exact plain_repeated (by decide) (by decide) _
  have hplain := (hleft.1.append (plain_intercalate hcross.1 hpieces)).append hright.1
  refine ⟨_, shows_border.paint hplain.shows, ?_⟩
  have hpiecesNe : cs.map (fun c => repeated '─' (c.width + 2)) ≠ [] := fun h => hne (List.map_eq_nil_iff.1 h)
  have hlen := length_intercalate hcross.2 hpiecesNe
  have hsum : (cs.map fun c => repeated '─' (c.width + 2)).foldr (fun s n => s.length + 1 + n) 0 =
      (cs.map (·.width)).sum + 3 * cs.length := by
    rw [List.foldr_map]
    simp only [repeated, String.length_ofList, List.length_replicate]
    exact foldr_width_add cs 3 0
  rw [String.length_toList, String.length_append, String.length_append, hleft.2, hright.2]
  omega

theorem plain_footerLeft (t : Table) : Plain (footerLeft t) := by
  unfold footerLeft
  split
  · exact (((plain_toString _).append (by decide)).append (plain_toString _)).append (by decide)
  · exact (plain_toString _).append (by decide)

theorem plain_footerRight (t : Table) : Plain (footerRight t) := (plain_toString _).append (by decide)

theorem exists_footerLine? (h : Framed t ls cs inner) : ∃ printed shown, footerLine? t inner = some printed ∧
    Shows printed shown ∧ shown.length = inner + 2 := by
  have hroom : (footerLeft t).length + (footerRight t).length + 2 ≤ inner := Nat.le_of_succ_le h.footer_le
  have hspace : Shows " " [' '] := Plain.shows (by decide)
  have hgap := plain_repeated (c := ' ') (by decide) (by decide)
    (inner - ((footerLeft t).length + (footerRight t).length + 2))
  have hfooter := shows_footer.paint
    (((plain_footerLeft t).append hgap).append (plain_footerRight t)).shows
  refine ⟨_, _, by rw [footerLine?, difference?_of_le hroom]; rfl,
    (((shows_bar.append hspace).append hfooter).append hspace).append shows_bar, ?_⟩
  simp only [List.length_append, String.length_toList, String.length_append, repeated, String.length_ofList,
    List.length_replicate, List.length_cons, List.length_nil]
  omega

theorem exists_edge (inner : Nat) : ∃ shown, Shows (paint border ("└" ++ repeated '─' inner ++ "┘")) shown ∧
    shown.length = inner + 2 := by
  have hplain : Plain ("└" ++ repeated '─' inner ++ "┘") :=
    ((show Plain "└" by decide).append (plain_repeated (by decide) (by decide) inner)).append (by decide)
  refine ⟨_, shows_border.paint hplain.shows, ?_⟩
  simp [repeated]

/-! ## The whole grid -/

theorem exists_body (ht : t.WellFormed) (hp : PlainTable t) (h : Framed t ls cs inner) (hof : ∀ l ∈ ls, l.Of t) :
    ∃ printed shown, (ls.mapM fun l => (l.cells? cs).map boxed) = some printed ∧ List.Forall₂ Shows printed shown ∧
      List.Forall₂ (IsRow (cs.map (·.width))) (ls.map (Line.texts t.width)) shown := by
  choose! printed shown hprinted hshows hrow using fun l hl => exists_bodyLine ht hp h hl (hof l hl)
  refine ⟨ls.map printed, ls.map shown, ?_, ?_, ?_⟩
  · rw [mapM_eq_some, List.forall₂_map_right_iff, List.forall₂_same]
    exact hprinted
  · rw [List.forall₂_map_left_iff, List.forall₂_map_right_iff, List.forall₂_same]
    exact hshows
  · rw [List.forall₂_map_left_iff, List.forall₂_map_right_iff, List.forall₂_same]
    exact hrow

/-- The lines show a whole table in columns of these widths. All of them have the same number of characters; the
second one has the names; between four lines above and three lines below, the texts of the body follow one another. -/
structure IsGrid (t : Table) (widths : List Nat) (lines : List (List Char)) : Prop where
  widths_length : widths.length = t.width
  rectangular : ∀ line ∈ lines, line.length = widths.sum + 3 * t.width + 1
  names : ∃ names, lines[1]? = some names ∧ IsRow widths t.fields names
  body : ∃ above body below, lines = above ++ body ++ below ∧ above.length = 4 ∧ below.length = 3 ∧
    List.Forall₂ (IsRow widths) (bodyTexts t) body

/-- A frame around the lines of the body. -/
theorem isGrid_of {widths : List Nat} {above body below : List (List Char)} (hwidths : widths.length = t.width)
    (habove : above.length = 4) (hbelow : below.length = 3)
    (hframe : ∀ line ∈ above ++ below, line.length = widths.sum + 3 * t.width + 1)
    (hnames : ∃ names, above[1]? = some names ∧ IsRow widths t.fields names)
    (hbody : List.Forall₂ (IsRow widths) (bodyTexts t) body) : IsGrid t widths (above ++ body ++ below) where
  widths_length := hwidths
  rectangular line hline := by
    rw [List.append_assoc, List.mem_append, List.mem_append] at hline
    rcases hline with h | h | h
    · exact hframe line (List.mem_append_left below h)
    · obtain ⟨texts, -, hrow⟩ := exists_left_of_forall₂ hbody line h
      rw [hrow.length_eq, hwidths]
    · exact hframe line (List.mem_append_right above h)
  names := by
    obtain ⟨names, hsecond, hrow⟩ := hnames
    exact ⟨names, by rw [List.append_assoc, List.getElem?_append_left (by omega), hsecond], hrow⟩
  body := ⟨above, body, below, rfl, habove, hbelow, hbody⟩

theorem exists_gridLines? (ht : t.WellFormed) (hw : 0 < t.width) (hp : PlainTable t) :
    ∃ printed shown widths, gridLines? t = some printed ∧ List.Forall₂ Shows printed shown ∧
      IsGrid t widths shown := by
  obtain ⟨ls, hls, htexts, hof⟩ := lines?_eq t
  obtain ⟨cs, inner, hcs, h⟩ := exists_columns? ht hw hof
  have hne : cs ≠ [] := List.ne_nil_of_length_pos (h.length_eq.symm ▸ hw)
  -- the lines of the frame
  obtain ⟨upper, hupper, hupperLen⟩ := exists_rule "┌" "┬" "┐" (by decide) (by decide) (by decide) hne
  obtain ⟨middle, hmiddle, hmiddleLen⟩ := exists_rule "├" "┼" "┤" (by decide) (by decide) (by decide) hne
  obtain ⟨lower, hlower, hlowerLen⟩ := exists_rule "├" "┴" "┤" (by decide) (by decide) (by decide) hne
  obtain ⟨footer, footerShown, hfooter, hfooterShown, hfooterLen⟩ := exists_footerLine? h
  obtain ⟨edge, hedge, hedgeLen⟩ := exists_edge inner
  -- the lines of cells
  obtain ⟨names, hnames, hnamesRow⟩ := exists_isRow fun c hc =>
    isCell_name (hp.names _ (h.names_eq ▸ List.mem_map_of_mem hc)) (h.labels_le c hc).1
  obtain ⟨kinds, hkinds, hkindsRow⟩ := exists_isRow fun c hc => isCell_kind (h.labels_le c hc).2
  obtain ⟨body, bodyShown, hbody, hbodyShown, hbodyRows⟩ := exists_body ht hp h hof
  refine ⟨[rule "┌" "┬" "┐" cs, boxed (cs.map nameCell), boxed (cs.map kindCell), rule "├" "┼" "┤" cs] ++ body ++
      [rule "├" "┴" "┤" cs, footer, paint border ("└" ++ repeated '─' inner ++ "┘")],
    [upper, names, kinds, middle] ++ bodyShown ++ [lower, footerShown, edge], cs.map (·.width), ?_, ?_, ?_⟩
  · simp only [gridLines?, hls, hcs, hbody, hfooter, Option.bind_eq_bind, Option.bind_some, Option.pure_def]
    rfl
  · have habove := List.Forall₂.cons hupper (.cons hnames (.cons hkinds (.cons hmiddle .nil)))
    have hbelow := List.Forall₂.cons hlower (.cons hfooterShown (.cons hedge .nil))
    exact List.rel_append (List.rel_append habove hbodyShown) hbelow
  · have hrow : ∀ {texts line}, IsRow (cs.map (·.width)) texts line →
        line.length = (cs.map (·.width)).sum + 3 * cs.length + 1 := fun hr => by rw [hr.length_eq, List.length_map]
    have hinner : inner + 2 = (cs.map (·.width)).sum + 3 * cs.length + 1 := congrArg (· + 1) h.inner_eq
    refine isGrid_of ((List.length_map _).trans h.length_eq) rfl rfl ?_ ⟨names, rfl, ?_⟩ (htexts ▸ hbodyRows)
    · rw [← h.length_eq]
      simp only [List.cons_append, List.nil_append, List.forall_mem_cons]
      exact ⟨hupperLen, hrow hnamesRow, hrow hkindsRow, hmiddleLen, hlowerLen, hfooterLen.trans hinner,
        hedgeLen.trans hinner, List.forall_mem_nil _⟩
    · rw [← h.names_eq]
      exact hnamesRow

/-- What is printed of a table with a column shows the table whole. -/
theorem print_complete (ht : t.WellFormed) (hw : 0 < t.width) (hp : PlainTable t) :
    ∃ text widths, print? t = some text ∧ IsGrid t widths (shownLines text) := by
  obtain ⟨printed, shown, widths, hlines, hshows, hgrid⟩ := exists_gridLines? ht hw hp
  refine ⟨String.join (printed.map (· ++ "\n")), widths, ?_, ?_⟩
  · rw [print?, if_neg (Nat.pos_iff_ne_zero.1 hw), hlines]
    rfl
  · rw [shownLines_join hshows]
    exact hgrid

namespace Sample

/-- The visits of many guests, the first of whom left a name. -/
def visits : Table := ⟨["né", "n"], [.text "Zoë", .int 12] :: List.replicate 50 [.null, .int (-7)]⟩

end Sample

open Sample in
/-- A long table that is narrower than its footer. -/
theorem print_complete_visits : (visits.WellFormed ∧ PlainTable visits ∧ 40 < visits.size) ∧
    ∃ text widths, print? visits = some text ∧ IsGrid visits widths (shownLines text) := by
  have hp : PlainTable visits := ⟨by decide, by decide⟩
  exact ⟨⟨by decide, hp, by decide⟩, print_complete (by decide) (by decide) hp⟩

end TableQuery.Grid
