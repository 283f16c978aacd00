/-
Reading back what is written as comma-separated values. Behind every field that is written stands a comma or a
line feed, and up to there the reader finds the bytes of the field and nothing else, in quotes or not; so it
finds the records that were written, and after trimming and typing the table that they came from.
-/
import TableQuery.Output.Mode
import TableQuery.Proofs.Csv
import TableQuery.Proofs.Text.Blank
import TableQuery.Proofs.Text.Utf8

namespace TableQuery.Csv

open Text (utf8)
open String (utf8EncodeChar)

/-! ## One field -/

/-- A character that is written without quotes. -/
def IsPlain (c : Char) : Prop := c ≠ ',' ∧ c ≠ '"' ∧ c ≠ '\n' ∧ c ≠ '\r'

theorem isPlain_of_not_needsQuotes {field : List Char} (h : needsQuotes field = false) : ∀ c ∈ field, IsPlain c := by
  intro c hc
  have hn := List.any_eq_false.1 h c hc
  simpa [IsPlain, and_assoc] using hn

theorem ne_quote_of_mem {c : Char} (hc : c ≠ '"') : ∀ b ∈ utf8EncodeChar c, b ≠ quote := by
  rintro b hb rfl
  exact hc (Text.eq_of_mem_utf8EncodeChar (d := '"') (by decide) hb)

theorem stepPlain_of_mem {c : Char} (hc : IsPlain c) : ∀ b ∈ utf8EncodeChar c, stepPlain b = .keep .plain := by
  intro b hb
  have hne {d : Char} (hd : d.toNat < 128) (hcd : c ≠ d) : b ≠ UInt8.ofNat d.toNat := by
    rintro rfl
    exact hcd (Text.eq_of_mem_utf8EncodeChar hd hb)
  have hcomma : b ≠ comma := hne (d := ',') (by decide) hc.1
  have hfeed : b ≠ lineFeed := hne (d := '\n') (by decide) hc.2.2.1
  have hreturn : b ≠ carriageReturn := hne (d := '\r') (by decide) hc.2.2.2
  simp [stepPlain, isLineEnd, hcomma, hfeed, hreturn]

/-- Outside of quotes it makes no difference where a field is being read, but for a quote. -/
theorem fieldsFrom_eq_plain {mode : Mode} (hm : mode ≠ .quoted) (field : Field) {b : UInt8} (hb : b ≠ quote)
    (r : List UInt8) : fieldsFrom mode field (b :: r) = fieldsFrom .plain field (b :: r) := by
  have hs : step mode b = step .plain b := by
    cases mode with
    | quoted => exact absurd rfl hm
    | start | plain | closing => simp [step, hb]
  rw [fieldsFrom, fieldsFrom, hs]

theorem fieldsFrom_plain_append {bs : List UInt8} (h : ∀ b ∈ bs, stepPlain b = .keep .plain) (field : Field)
    (r : List UInt8) : fieldsFrom .plain field (bs ++ r) = fieldsFrom .plain (bs.reverse ++ field) r := by
  induction bs generalizing field with
  | nil => rfl
  | cons b bs ih =>
    have hb : step .plain b = .keep .plain := h b List.mem_cons_self
    rw [List.cons_append, fieldsFrom, hb, List.reverse_cons, List.append_assoc]
    exact ih (fun b' hb' => h b' (List.mem_cons_of_mem _ hb')) _

theorem fieldsFrom_quoted_append {bs : List UInt8} (h : ∀ b ∈ bs, b ≠ quote) (field : Field) (r : List UInt8) :
    fieldsFrom .quoted field (bs ++ r) = fieldsFrom .quoted (bs.reverse ++ field) r := by
  induction bs generalizing field with
  | nil => rfl
  | cons b bs ih =>
    have hb : step .quoted b = .keep .quoted := if_neg (h b List.mem_cons_self)
    rw [List.cons_append, fieldsFrom, hb, List.reverse_cons, List.append_assoc]
    exact ih (fun b' hb' => h b' (List.mem_cons_of_mem _ hb')) _

/-- Quotes are read as half as many. -/
theorem fieldsFrom_doubleQuotes (cs : List Char) (field : Field) (r : List UInt8) :
    fieldsFrom .quoted field (utf8 (doubleQuotes cs) ++ r) = fieldsFrom .quoted ((utf8 cs).reverse ++ field) r := by
  induction cs generalizing field with
  | nil => rfl
  | cons c cs ih =>
    have hd : doubleQuotes (c :: cs) = (if c = '"' then ['"', '"'] else [c]) ++ doubleQuotes cs :=
      List.flatMap_cons
    rw [hd, Text.utf8_append, List.append_assoc, Text.utf8_cons, List.reverse_append, List.append_assoc]
    by_cases hc : c = '"'
    · subst hc
      exact ih (quote :: field)
    · have hc' : utf8 [c] = utf8EncodeChar c := List.append_nil _
      rw [if_neg hc, hc', fieldsFrom_quoted_append (ne_quote_of_mem hc), ih]

/-- A field that is written is read up to what stands behind it. -/
theorem fieldsFrom_writeField (cs : List Char) {b : UInt8} (hb : b ≠ quote) (r : List UInt8) :
    fieldsFrom .start [] (utf8 (writeField cs) ++ b :: r) = fieldsFrom .plain (utf8 cs).reverse (b :: r) := by
  rw [writeField]
  split
  · have hw : utf8 ('"' :: doubleQuotes cs ++ ['"']) ++ b :: r =
        quote :: (utf8 (doubleQuotes cs) ++ quote :: b :: r) := by
      simp only [List.cons_append, Text.utf8_cons, Text.utf8_append, List.append_assoc]
      rfl
    rw [hw]
    show fieldsFrom .quoted [] _ = _
    rw [fieldsFrom_doubleQuotes, List.append_nil]
    exact fieldsFrom_eq_plain (by decide : Mode.closing ≠ .quoted) _ hb r
  · rename_i hq
    have hplain := isPlain_of_not_needsQuotes (Bool.not_eq_true _ ▸ hq)
    have hkeep : ∀ b ∈ utf8 cs, stepPlain b = .keep .plain := by
      intro b hb
      obtain ⟨c, hc, hb⟩ := List.mem_flatMap.1 hb
      exact stepPlain_of_mem (hplain c hc) b hb
    have hquote : ∀ b ∈ utf8 cs, b ≠ quote := by
      intro b hb
      obtain ⟨c, hc, hb⟩ := List.mem_flatMap.1 hb
      exact ne_quote_of_mem (hplain c hc).2.1 b hb
    have hstart : fieldsFrom .start [] (utf8 cs ++ b :: r) = fieldsFrom .plain [] (utf8 cs ++ b :: r) := by
      cases hcs : utf8 cs with
      | nil => exact fieldsFrom_eq_plain (by decide) _ hb r
      | cons b' bs => exact fieldsFrom_eq_plain (by decide) _ (hquote b' (hcs ▸ List.mem_cons_self)) _
    rw [hstart, fieldsFrom_plain_append hkeep, List.append_nil]

/-! ## Records -/

theorem fieldsFrom_line (r : List UInt8) : ∀ (f : List Char) (fs : List (List Char)),
    fieldsFrom .start [] (utf8 ([','].intercalate ((f :: fs).map writeField)) ++ lineFeed :: r) =
      ((f :: fs).map utf8, r)
  | f, [] => by
    rw [List.map_singleton, List.intercalate_singleton, fieldsFrom_writeField f (by decide)]
    show ([(utf8 f).reverse.reverse], r) = _
    rw [List.reverse_reverse]
    rfl
  | f, g :: fs => by
    have hline : utf8 ([','].intercalate ((f :: g :: fs).map writeField)) ++ lineFeed :: r =
        utf8 (writeField f) ++ comma :: (utf8 ([','].intercalate ((g :: fs).map writeField)) ++ lineFeed :: r) := by
      rw [List.map_cons, List.map_cons, List.intercalate_cons_cons, Text.utf8_append, Text.utf8_append,
        List.append_assoc, List.append_assoc]
      rfl
    rw [hline, fieldsFrom_writeField f (by decide), fieldsFrom]
    show ((utf8 f).reverse.reverse :: (fieldsFrom .start [] _).1, (fieldsFrom .start [] _).2) = _
    rw [fieldsFrom_line r g fs, List.reverse_reverse]
    rfl

theorem fieldsFrom_writeRecord {fields : List (List Char)} (h : fields ≠ []) (r : List UInt8) :
    fieldsFrom .start [] (utf8 (writeRecord fields) ++ r) = (fields.map utf8, r) := by
  obtain ⟨f, fs, rfl⟩ := List.exists_cons_of_ne_nil h
  rw [writeRecord]
  split
  · rename_i hempty
    -- the line is empty: the field is alone and empty, and its quotes are read as nothing
    have hline := fieldsFrom_line r f fs
    rw [List.isEmpty_iff.1 hempty] at hline
    rw [← hline]
    rfl
  · have hfeed : utf8 ['\n'] = [lineFeed] := rfl
    rw [Text.utf8_append, List.append_assoc, hfeed]
    exact fieldsFrom_line r f fs

/-- A line begins with a quote, a comma, or the first character of its first field. -/
theorem exists_cons_writeRecord (f : List Char) (fs : List (List Char)) :
    ∃ c r, writeRecord (f :: fs) = c :: r ∧ (c = '"' ∨ c = ',' ∨ f.head? = some c ∧ IsPlain c) := by
  obtain ⟨rest, hline⟩ : ∃ rest, [','].intercalate ((f :: fs).map writeField) = writeField f ++ rest ∧
      (rest = [] ∨ rest.head? = some ',') := by
    cases fs with
    | nil => exact ⟨[], by rw [List.map_singleton, List.intercalate_singleton, List.append_nil], .inl rfl⟩
    | cons g gs =>
      rw [List.map_cons, List.map_cons, List.intercalate_cons_cons, List.append_assoc]
      exact ⟨_, rfl, .inr rfl⟩
  obtain ⟨hline, hrest⟩ := hline
  rw [writeRecord, hline]
  cases f with
  | nil =>
    rcases hrest with rfl | hrest
    · exact ⟨'"', _, rfl, .inl rfl⟩
    · obtain ⟨tail, rfl⟩ := List.head?_eq_some_iff.1 hrest
      exact ⟨',', _, rfl, .inr (.inl rfl)⟩
  | cons c cs =>
    cases hq : needsQuotes (c :: cs) with
    | true => exact ⟨'"', _, by rw [writeField, if_pos hq]; rfl, .inl rfl⟩
    | false =>
      refine ⟨c, cs ++ rest ++ ['\n'], by simp [writeField, hq], .inr (.inr ⟨rfl, ?_⟩)⟩
      exact isPlain_of_not_needsQuotes hq c List.mem_cons_self

theorem nextRecord_writeRecord {fields : List (List Char)} (h : fields ≠ []) (r : List UInt8) :
    nextRecord (utf8 (writeRecord fields) ++ r) = some (fields.map utf8, r) := by
  have hfields := fieldsFrom_writeRecord h r
  obtain ⟨f, fs, rfl⟩ := List.exists_cons_of_ne_nil h
  obtain ⟨c, cs, hc, hfirst⟩ := exists_cons_writeRecord f fs
  have hend : ∀ b ∈ utf8EncodeChar c, isLineEnd b = false := by
    have hne : c ≠ '\n' ∧ c ≠ '\r' := by
      rcases hfirst with rfl | rfl | ⟨-, hp⟩
      · decide
      · decide
      · exact hp.2.2
    intro b hb
    rw [isLineEnd, Bool.or_eq_false_iff, beq_eq_false_iff_ne, beq_eq_false_iff_ne]
    refine ⟨?_, ?_⟩
    · rintro rfl
      exact hne.1 (Text.eq_of_mem_utf8EncodeChar (d := '\n') (by decide) hb)
    · rintro rfl
      exact hne.2 (Text.eq_of_mem_utf8EncodeChar (d := '\r') (by decide) hb)
  obtain ⟨b, bs, hb⟩ := List.exists_cons_of_ne_nil (Text.utf8EncodeChar_ne_nil c)
  have hbytes : utf8 (writeRecord (f :: fs)) ++ r = b :: (bs ++ utf8 cs ++ r) := by
    rw [hc, Text.utf8_cons, hb]
    rfl
  rw [hbytes] at hfields ⊢
  rw [nextRecord, List.dropWhile_cons_of_neg (by rw [hend b (hb ▸ List.mem_cons_self)]; decide)]
  exact congrArg some hfields

theorem map_snd_records {rs : List (List (List Char))} (h : ∀ fields ∈ rs, fields ≠ []) :
    (records (utf8 (writeRecords rs))).map (·.2) = rs.map (·.map utf8) := by
  induction rs with
  | nil => rw [records_of_none rfl]; rfl
  | cons fields rs ih =>
    have hbytes : utf8 (writeRecords (fields :: rs)) = utf8 (writeRecord fields) ++ utf8 (writeRecords rs) := by
      rw [writeRecords, List.flatMap_cons, Text.utf8_append]
      rfl
    rw [hbytes, records_of_some (nextRecord_writeRecord (h fields List.mem_cons_self) _), List.map_cons,
      ih fun fields' hf => h fields' (List.mem_cons_of_mem _ hf), List.map_cons]

/-- Without a byte-order mark at the start of the first field, none is found in the file. -/
theorem skipMark_writeRecords {f : List Char} {fs : List (List Char)} {rs : List (List (List Char))}
    (h : f.head? ≠ some '\uFEFF') :
    skipMark (utf8 (writeRecords ((f :: fs) :: rs))) = utf8 (writeRecords ((f :: fs) :: rs)) := by
  obtain ⟨c, cs, hc, hfirst⟩ := exists_cons_writeRecord f fs
  have hmark : c ≠ '\uFEFF' := by
    rcases hfirst with rfl | rfl | ⟨hf, -⟩
    · decide
    · decide
    · rintro rfl
      exact h hf
  have hbytes : writeRecords ((f :: fs) :: rs) = c :: (cs ++ writeRecords rs) := by
    rw [writeRecords, List.flatMap_cons, hc]
    rfl
  rw [hbytes, skipMark]
  exact fun r hr => hmark (Text.eq_of_utf8_cons (d := '\uFEFF') hr)

/-! ## Trimming -/

/-- The ASCII white space that is cut off the bytes of a cell. -/
def isAsciiBlankChar (c : Char) : Bool := c == ' ' || c == '\t' || c == '\n' || c == '\x0c' || c == '\r'

theorem isBlank_of_isAsciiBlankChar {c : Char} (h : isAsciiBlankChar c = true) : Text.isBlank c = true := by
  simp only [isAsciiBlankChar, Bool.or_eq_true, beq_iff_eq] at h
  rcases h with (((rfl | rfl) | rfl) | rfl) | rfl <;> rfl

theorem isAsciiBlank_ofNat_all : ∀ n < 128, isAsciiBlank (UInt8.ofNat n) = isAsciiBlankChar (Char.ofNat n) := by
  decide

/-- All bytes of a character are cut off, or none. -/
theorem isAsciiBlank_of_mem (c : Char) : ∀ b ∈ utf8EncodeChar c, isAsciiBlank b = isAsciiBlankChar c := by
  intro b hb
  by_cases hc : c.toNat < 128
  · rw [Text.utf8EncodeChar_of_lt hc, List.mem_singleton] at hb
    rw [hb, isAsciiBlank_ofNat_all c.toNat hc, Char.ofNat_toNat]
  · have hle := Text.le_of_mem_utf8EncodeChar (Nat.not_lt.1 hc) b hb
    have hbyte : isAsciiBlank b = false := by
      rw [← Bool.not_eq_true]
      intro h
      simp only [isAsciiBlank, Bool.or_eq_true, beq_iff_eq] at h
      rcases h with (((rfl | rfl) | rfl) | rfl) | rfl <;> exact absurd hle (by decide)
    have hchar : isAsciiBlankChar c = false := by
      rw [← Bool.not_eq_true]
      intro h
      simp only [isAsciiBlankChar, Bool.or_eq_true, beq_iff_eq] at h
      rcases h with (((rfl | rfl) | rfl) | rfl) | rfl <;> exact hc (by decide)
    rw [hbyte, hchar]

/-- Cutting bytes off that are told by their characters. -/
theorem dropWhile_flatMap {g : Char → List UInt8} {p : UInt8 → Bool} {q : Char → Bool}
    (hg : ∀ c, g c ≠ [] ∧ ∀ b ∈ g c, p b = q c) : ∀ cs : List Char,
    (cs.flatMap g).dropWhile p = (cs.dropWhile q).flatMap g
  | [] => rfl
  | c :: cs => by
    obtain ⟨hne, hall⟩ := hg c
    cases hq : q c with
    | true =>
      rw [List.flatMap_cons, List.dropWhile_append_of_pos fun b hb => (hall b hb).trans hq,
        List.dropWhile_cons_of_pos hq, dropWhile_flatMap hg cs]
    | false =>
      obtain ⟨b, bs, hb⟩ := List.exists_cons_of_ne_nil hne
      have hp : ¬p b = true := by simp [hall b (hb ▸ List.mem_cons_self), hq]
      rw [List.dropWhile_cons_of_neg (by simp [hq]), List.flatMap_cons, hb, List.cons_append,
        List.dropWhile_cons_of_neg hp]

/-- The characters that are left of a cell when its bytes are trimmed. -/
def trimAscii (cs : List Char) : List Char :=
  ((cs.dropWhile isAsciiBlankChar).reverse.dropWhile isAsciiBlankChar).reverse

theorem trimBytes_utf8 (cs : List Char) : trimBytes (utf8 cs) = utf8 (trimAscii cs) := by
  have hfront : ∀ c, utf8EncodeChar c ≠ [] ∧ ∀ b ∈ utf8EncodeChar c, isAsciiBlank b = isAsciiBlankChar c :=
    fun c => ⟨Text.utf8EncodeChar_ne_nil c, isAsciiBlank_of_mem c⟩
  have hback : ∀ c, (List.reverse ∘ utf8EncodeChar) c ≠ [] ∧
      ∀ b ∈ (List.reverse ∘ utf8EncodeChar) c, isAsciiBlank b = isAsciiBlankChar c :=
    fun c => ⟨fun h => (hfront c).1 (List.reverse_eq_nil_iff.1 h), fun b hb => (hfront c).2 b (List.mem_reverse.1 hb)⟩
  rw [trimBytes, utf8, dropWhile_flatMap hfront, List.reverse_flatMap, dropWhile_flatMap hback, List.reverse_flatMap,
    trimAscii, utf8]
  congr 1
  funext c
  exact List.reverse_reverse _

/-- Only white space is cut off the bytes, which is cut off the text as well. -/
theorem trimChars_trimAscii (cs : List Char) : Text.trimChars (trimAscii cs) = Text.trimChars cs := by
  have hblank {ds : List Char} : ∀ b ∈ ds.takeWhile isAsciiBlankChar, Text.isBlank b = true := fun b hb =>
    isBlank_of_isAsciiBlankChar (List.all_eq_true.1 List.all_takeWhile b hb)
  have hback (ds : List Char) : ds = (ds.reverse.dropWhile isAsciiBlankChar).reverse ++
      (ds.reverse.takeWhile isAsciiBlankChar).reverse := by
    rw [← List.reverse_append, List.takeWhile_append_dropWhile, List.reverse_reverse]
  conv_rhs => rw [← List.takeWhile_append_dropWhile (p := isAsciiBlankChar) (l := cs),
    Text.trimChars_blanks_append hblank, hback (cs.dropWhile isAsciiBlankChar),
    Text.trimChars_append_blanks fun b hb => hblank b (List.mem_reverse.1 hb)]
  rfl

/-! ## Tables -/

/-- Names and cells are decoded and trimmed. -/
theorem decodeFields_map {α : Type} {bytes : α → Field} {text : α → String} : ∀ {xs : List α} (i : Nat),
    (∀ x ∈ xs, ∃ s, Text.decode (bytes x) = .ok s ∧ Text.trim s = text x) →
      decodeFields i (xs.map bytes) = .ok (xs.map text)
  | [], _, _ => rfl
  | x :: xs, i, h => by
    obtain ⟨s, hs, htrim⟩ := h x List.mem_cons_self
    rw [List.map_cons, decodeFields, hs]
    simp only
    rw [decodeFields_map (i + 1) fun x' hx' => h x' (List.mem_cons_of_mem _ hx'), map_ok, htrim, List.map_cons]

theorem trim_trimBytes (s : String) : ∃ s', Text.decode (trimBytes (utf8 s.toList)) = .ok s' ∧
    Text.trim s' = Text.trim s := by
  refine ⟨String.ofList (trimAscii s.toList), ?_, ?_⟩
  · rw [trimBytes_utf8, Text.decode_utf8]
  · rw [Text.trim, String.toList_ofList, trimChars_trimAscii, Text.trim]

variable {t : Table}

/-- The values of a row are read back from its cells. -/
theorem rowsFrom_cells {file : List UInt8} {width : Nat} : ∀ {rows : List Row} {rs : List (List UInt8 × List Field)}
    (record : Nat), rs.map (·.2) = rows.map (·.map fun v => utf8 (cell v).toList) →
      (∀ row ∈ rows, row.length = width) → (∀ row ∈ rows, ∀ v ∈ row, Value.ofCell (Text.trim (cell v)) = v) →
      rowsFrom file width record rs = .ok rows
  | [], rs, _, hrs, _, _ => by
    rw [List.map_eq_nil_iff.1 hrs]
    rfl
  | row :: rows, rs, record, hrs, hwidth, hcells => by
    obtain ⟨⟨rest, fields⟩, rs, rfl, hfields, hrs⟩ := List.map_eq_cons_iff.1 hrs
    have hfields : fields = row.map fun v => utf8 (cell v).toList := hfields
    have hlen : ¬fields.length ≠ width := by
      rw [hfields, List.length_map, hwidth row List.mem_cons_self]
      exact fun h => h rfl
    have hdecode : decodeFields 0 (fields.map trimBytes) = .ok (row.map fun v => Text.trim (cell v)) := by
      rw [hfields, List.map_map]
      exact decodeFields_map 0 fun v _ => trim_trimBytes (cell v)
    have hrow : (row.map fun v => Text.trim (cell v)).map Value.ofCell = row := by
      rw [List.map_map]
      conv_rhs => rw [← List.map_id row]
      apply List.map_congr_left
      intro v hv
      rw [Function.comp_apply, hcells row List.mem_cons_self v hv, id]
    rw [rowsFrom, if_neg hlen, hdecode]
    simp only
    rw [rowsFrom_cells (record + 1) hrs (fun r hr => hwidth r (List.mem_cons_of_mem _ hr))
      fun r hr => hcells r (List.mem_cons_of_mem _ hr), map_ok, hrow]

/-- The header and the rows are as wide as the table. -/
theorem ne_nil_of_mem_texts (ht : t.WellFormed) (hwidth : 1 ≤ t.width) :
    ∀ fs ∈ (t.fields :: t.rows.map (·.map cell)).map (·.map String.toList), fs ≠ [] := by
  intro fs hfs
  obtain ⟨texts, htexts, rfl⟩ := List.mem_map.1 hfs
  rw [← List.length_pos_iff, List.length_map]
  rcases List.mem_cons.1 htexts with rfl | htexts
  · exact hwidth
  · obtain ⟨row, hrow, rfl⟩ := List.mem_map.1 htexts
    rw [List.length_map, ht row hrow]
    exact hwidth

/-- A table that is written as comma-separated values is read back from its bytes, if its names are trimmed, the
first of them does not begin with a byte-order mark, and each cell is the value that the text written for it
stands for. -/
theorem tableOfBytes_print (ht : t.WellFormed) (hwidth : 1 ≤ t.width) (hnames : ∀ name ∈ t.fields, Text.trim name = name)
    (hmark : ∀ name ∈ t.fields.head?, name.toList.head? ≠ some '\uFEFF')
    (hcells : ∀ row ∈ t.rows, ∀ v ∈ row, Value.ofCell (Text.trim (cell v)) = v) :
    tableOfBytes (Text.encode (t.print .csv)) = .ok t := by
  obtain ⟨fields, rows⟩ := t
  obtain ⟨name, names, rfl⟩ := List.exists_cons_of_length_pos hwidth
  -- the records that are written, and those that are read
  have hbytes : Text.encode (Table.print ⟨name :: names, rows⟩ .csv) =
      utf8 (writeRecords (((name :: names) :: rows.map (·.map cell)).map (·.map String.toList))) := by
    rw [Table.print, ofTable, Text.encode_eq, String.toList_ofList]
  have hrecords := map_snd_records (ne_nil_of_mem_texts ht hwidth)
  rw [List.map_cons, List.map_cons] at hrecords
  obtain ⟨⟨bytes, header⟩, rs, hread, hheader, hrs⟩ := List.map_eq_cons_iff.1 hrecords
  have hheader : header = (name :: names).map fun n => utf8 n.toList := by
    rw [show header = ((name :: names).map String.toList).map utf8 from hheader, List.map_map]
    rfl
  have hrs : rs.map (·.2) = rows.map (·.map fun v => utf8 (cell v).toList) := by
    rw [hrs, List.map_map, List.map_map]
    simp only [Function.comp_def, List.map_map]
  -- the header is decoded and trimmed, the rows are typed as well
  have hfields : decodeFields 0 header = .ok (name :: names) := by
    have htrim : (name :: names).map Text.trim = name :: names := by
      conv_rhs => rw [← List.map_id (name :: names)]
      exact List.map_congr_left fun n hn => hnames n hn
    have hdecode : decodeFields 0 ((name :: names).map fun n => utf8 n.toList) = .ok ((name :: names).map Text.trim) :=
      decodeFields_map 0 fun n _ => ⟨n, by rw [Text.decode_utf8, String.ofList_toList], rfl⟩
    rw [hheader, hdecode, htrim]
  have hlen : header.length = (name :: names).length := by rw [hheader, List.length_map]
  have hrows : ∀ file, rowsFrom file header.length 1 rs = .ok rows := fun file =>
    rowsFrom_cells 1 hrs (fun row hrow => (ht row hrow).trans hlen.symm) hcells
  rw [tableOfBytes, hbytes, List.map_cons, List.map_cons, skipMark_writeRecords (hmark name rfl), hread]
  simp only
  rw [hfields]
  simp only
  rw [hrows, map_ok]

/-- A header and a first row of nothing, and cells with all the characters that are written in quotes. -/
def lone : Table := ⟨[""], [[.null], [.text "x, \"y\"\r\nz"], [.text "\"é"], [.int (-7)], [.bool true]]⟩

theorem tableOfBytes_print_lone :
    (lone.WellFormed ∧ 1 ≤ lone.width ∧ (∀ name ∈ lone.fields, Text.trim name = name) ∧
      (∀ name ∈ lone.fields.head?, name.toList.head? ≠ some '\uFEFF') ∧
      ∀ row ∈ lone.rows, ∀ v ∈ row, Value.ofCell (Text.trim (cell v)) = v) ∧
      tableOfBytes (Text.encode (lone.print .csv)) = .ok lone := by
  have hwidth : 1 ≤ lone.width := by decide
  have hnames : ∀ name ∈ lone.fields, Text.trim name = name := by decide
  have hmark : ∀ name ∈ lone.fields.head?, name.toList.head? ≠ some '\uFEFF' := by decide
  have hcells : ∀ row ∈ lone.rows, ∀ v ∈ row, Value.ofCell (Text.trim (cell v)) = v := by decide +kernel
  have ht : lone.WellFormed := by decide
  exact ⟨⟨ht, hwidth, hnames, hmark, hcells⟩, tableOfBytes_print ht hwidth hnames hmark hcells⟩

end TableQuery.Csv
