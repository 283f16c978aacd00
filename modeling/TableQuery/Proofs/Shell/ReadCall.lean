/-
The calls that the shell writes to read a file: in the statement that loads a file, and as suggestions. The loading
statement doubles the quotes in the name of the file, so its call is a source of this file and of no other,
whatever the name. A suggestion has the name as it is, so it names the file only if there is no quote in it.
-/
import TableQuery.Shell.Run
import TableQuery.Proofs.Shell.Completion
import TableQuery.Proofs.Sql.Cutting
import TableQuery.Proofs.Sql.TableFunction

namespace TableQuery

namespace Sql

open Lexeme (Reaches doubled ofChars readQuoted)
open Grammar (EndsSource FromReads ofLevels)

/-! ## Specification -/

/-- Lexemes that stand for a file: behind the `FROM` of a selection they are its source, if nothing follows that belongs
to the source too, and whatever follows, no other file or table is read. -/
structure StandsFor (call : List Lexeme) (file : String) : Prop where
  source : ∀ n ls distinct items rest, EndsSource rest →
    (ofLevels (n + 1)).selectHead ls = .ok ((distinct, items, true), call ++ rest) →
    ∃ source, source.plan = .ok (.table · file) ∧
      (ofLevels (n + 1)).selection ls = (ofLevels (n + 1)).selectTail distinct items source rest
  only : ∀ n rest q, FromReads n (call ++ rest) q → ∃ s, q = .table s file

/-- A text names a file: it is cut into lexemes that stand for the file, whatever follows. -/
def NamesFile (call file : String) : Prop :=
  ∃ ls, (∀ after, Reaches (call.toList ++ after) ls after) ∧ StandsFor ls file

/-- No selection whose sources are behind this text, whatever follows, reads the file. -/
def NeverReads (call file : String) : Prop :=
  ∀ n after ls q, ofChars (call.toList ++ after) = .ok ls → FromReads n ls q → ∀ s, q ≠ .table s file

theorem standsFor_fileCall (file : String) : StandsFor (fileCall file) file where
  source n ls distinct items rest hrest h :=
    ⟨.file file, Source.plan_file file, Grammar.selection_fileCall file hrest h⟩
  only n rest q h := by
    rw [fileCall, List.append_assoc] at h
    exact h.eq_table

/-- In a selection of all columns, the file is what is read. -/
theorem StandsFor.fromReads {call : List Lexeme} {file : String} (h : StandsFor call file) :
    ∃ s, FromReads 1 call (.table s file) := by
  obtain ⟨source, hplan, hselection⟩ := h.source 0 (selectAll ++ (call ++ [])) .no [.star] [] trivial
    (selectHead_selectAll 1 _)
  rw [List.append_nil] at hselection
  have hbody : (ofLevels 1).selection (selectAll ++ call) = .ok (.select { items := [.star] } source, []) := hselection
  have hquery : Body.plan {} (.select { items := [.star] } source) =
      .ok (.table { items := [.wildcard], names := some ["*"] } file) := by
    rw [Body.plan, hplan]
    rfl
  exact ⟨_, _, _, _, _, _, _, selectHead_selectAll 1 call, hbody, hquery⟩

/-! ## Cutting -/

theorem reaches_selectAll (cs : List Char) : Reaches ("SELECT * FROM ".toList ++ cs) selectAll cs := by
  have hselect : Reaches ("SELECT * FROM ".toList ++ cs) [.word ⟨"SELECT", none, "SELECT"⟩]
      ("* FROM ".toList ++ cs) :=
    Lexeme.reaches_keyword (c := 'S') (w := "ELECT".toList) (by decide +kernel) (by decide +kernel) _
  have hfrom : Reaches ("FROM ".toList ++ cs) [.word ⟨"FROM", none, "FROM"⟩] cs :=
    Lexeme.reaches_keyword (c := 'F') (w := "ROM".toList) (by decide +kernel) (by decide +kernel) _
  exact hselect.trans (.trans (.of_read rfl) (.trans (.blank rfl _) hfrom))

theorem reaches_createT (cs : List Char) : Reaches ("CREATE TABLE t AS ".toList ++ cs) createT cs := by
  have hcreate : Reaches ("CREATE TABLE t AS ".toList ++ cs) [.word ⟨"CREATE", none, "CREATE"⟩]
      ("TABLE t AS ".toList ++ cs) :=
    Lexeme.reaches_keyword (c := 'C') (w := "REATE".toList) (by decide +kernel) (by decide +kernel) _
  have htable : Reaches ("TABLE t AS ".toList ++ cs) [.word ⟨"TABLE", none, "TABLE"⟩] ("t AS ".toList ++ cs) :=
    Lexeme.reaches_keyword (c := 'T') (w := "ABLE".toList) (by decide +kernel) (by decide +kernel) _
  have ht : Reaches ("t AS ".toList ++ cs) [.word ⟨"t", none, "T"⟩] ("AS ".toList ++ cs) :=
    Lexeme.reaches_keyword (c := 't') (w := []) (by decide +kernel) (by decide +kernel) _
  have has : Reaches ("AS ".toList ++ cs) [.word ⟨"AS", none, "AS"⟩] cs :=
    Lexeme.reaches_keyword (c := 'A') (w := ['S']) (by decide +kernel) (by decide +kernel) _
  exact hcreate.trans (htable.trans (ht.trans has))

theorem reaches_openCall (cs : List Char) :
    Reaches ("read_csv('".toList ++ cs) [.word ⟨"read_csv", none, "READ_CSV"⟩, .symbol "("] ('\'' :: cs) := by
  have hword : Reaches ("read_csv('".toList ++ cs) [.word (.plain "read_csv")] ('(' :: '\'' :: cs) :=
    Lexeme.reaches_word (c := 'r') (w := "ead_csv".toList) (by decide +kernel) (by decide +kernel) (by decide) _
  have hplain : Word.plain "read_csv" = ⟨"read_csv", none, "READ_CSV"⟩ := by decide +kernel
  rw [hplain] at hword
  exact hword.trans (.of_read rfl)

theorem reaches_callStart {cs s rest : List Char} (h : readQuoted '\'' cs = some (s, rest)) :
    Reaches ("read_csv('".toList ++ cs) (callStart (String.ofList s)) rest :=
  (reaches_openCall cs).trans (Lexeme.reaches_text h)

/-- The argument of a call is the text up to its closing quote, whatever follows. -/
theorem ofChars_openCall {cs : List Char} {ls : List Lexeme} (h : ofChars ("read_csv('".toList ++ cs) = .ok ls) :
    ∃ s rest more, readQuoted '\'' cs = some (s, rest) ∧ ls = callStart (String.ofList s) ++ more := by
  cases hquoted : readQuoted '\'' cs with
  | none =>
    rw [(reaches_openCall cs).ofChars_eq, Lexeme.ofChars_cons, Lexeme.read_text, hquoted] at h
    cases h
  | some r =>
    obtain ⟨s, rest⟩ := r
    rw [(reaches_callStart hquoted).ofChars_eq] at h
    obtain ⟨more, -, rfl⟩ := map_eq_ok h
    exact ⟨s, rest, more, rfl, rfl⟩

end Sql

namespace Shell

open Sql (NamesFile NeverReads fileCall callStart)
open Sql.Lexeme (Reaches doubled ofChars readQuoted)

/-! ## Calls -/

theorem toList_readCall (file : String) (after : List Char) :
    (readCall file).toList ++ after = "read_csv('".toList ++ (file.toList ++ '\'' :: ')' :: after) := by
  simp [readCall]

/-- With its quotes doubled, a name is read back. -/
theorem reaches_doubled (file : String) (after : List Char) :
    Reaches ((readCall (String.ofList (doubled '\'' file.toList))).toList ++ after) (fileCall file) after := by
  have hquoted : readQuoted '\'' (doubled '\'' file.toList ++ '\'' :: ')' :: after) =
      some (file.toList, ')' :: after) := Sql.Lexeme.readQuoted_eq_some_iff.2 ⟨rfl, by simp⟩
  have hstart := Sql.reaches_callStart hquoted
  rw [String.ofList_toList] at hstart
  have hchars : (String.ofList (doubled '\'' file.toList)).toList = doubled '\'' file.toList := String.toList_ofList
  rw [toList_readCall, hchars]
  exact hstart.trans (.of_read rfl)

theorem namesFile_doubled (file : String) : NamesFile (readCall (String.ofList (doubled '\'' file.toList))) file :=
  ⟨fileCall file, reaches_doubled file, Sql.standsFor_fileCall file⟩

/-- As it is, a name with a quote is the argument of no call that its text starts. -/
theorem ofChars_readCall {file : String} {after : List Char} {ls : List Sql.Lexeme} (hfile : '\'' ∈ file.toList)
    (h : ofChars ((readCall file).toList ++ after) = .ok ls) : ∃ s more, s ≠ file ∧ ls = callStart s ++ more := by
  rw [toList_readCall] at h
  obtain ⟨s, rest, more, hquoted, rfl⟩ := Sql.ofChars_openCall h
  refine ⟨String.ofList s, more, ?_, rfl⟩
  rintro rfl
  obtain ⟨hcs, -⟩ := Sql.Lexeme.readQuoted_eq_some_iff.1 hquoted
  rw [String.toList_ofList] at hfile hcs
  exact Sql.Lexeme.not_mem_of_doubled_eq (by decide) hcs.symm hfile

theorem neverReads_readCall {file : String} (hfile : '\'' ∈ file.toList) : NeverReads (readCall file) file := by
  intro n after ls q h hq s
  obtain ⟨other, more, hother, rfl⟩ := ofChars_readCall hfile h
  obtain ⟨s', rfl⟩ := hq.eq_table
  rintro ⟨⟩
  exact hother rfl

theorem namesFile_readCall_iff (file : String) : NamesFile (readCall file) file ↔ '\'' ∉ file.toList := by
  constructor
  · rintro ⟨ls, hls, hfile⟩ hquote
    obtain ⟨s, hreads⟩ := hfile.fromReads
    exact neverReads_readCall hquote _ _ _ _ (hls []).ofChars_nil hreads s rfl
  · intro hquote
    have h := namesFile_doubled file
    rwa [Sql.Lexeme.doubled_of_not_mem hquote, String.ofList_toList] at h

/-! ## Whole statements -/

theorem reaches_selectDoubled (file : String) :
    Reaches ("SELECT * FROM ".toList ++ (readCall (String.ofList (doubled '\'' file.toList))).toList)
      (Sql.selectAll ++ fileCall file) [] := by
  have hcall := reaches_doubled file []
  rw [List.append_nil] at hcall
  exact (Sql.reaches_selectAll _).trans hcall

/-- In a selection of all columns behind no other words, a name without quotes is read as it is. -/
theorem parseQuery_readCall {file : String} (hfile : '\'' ∉ file.toList) :
    Sql.parseQuery ("SELECT * FROM " ++ readCall file) =
      .ok (.table { items := [.wildcard], names := some ["*"] } file) := by
  have hread := reaches_selectDoubled file
  rw [Sql.Lexeme.doubled_of_not_mem hfile, String.ofList_toList] at hread
  have hstatement : Sql.Statement.ofString ("SELECT * FROM " ++ readCall file) = .ok [.query (Sql.wholeFile file)] := by
    unfold Sql.Statement.ofString Sql.Lexeme.ofString
    rw [String.toList_append, hread.ofChars_nil]
    exact Sql.ofLexemes_selectAll file
  unfold Sql.parseQuery
  rw [hstatement]
  exact Sql.plan_wholeFile file

theorem loadStatement_eq (file : String) : loadStatement file =
    "CREATE TABLE t AS SELECT * FROM " ++ readCall (String.ofList (doubled '\'' file.toList)) := by
  have happ : "CREATE TABLE t AS SELECT * FROM read_csv('" = "CREATE TABLE t AS SELECT * FROM " ++ "read_csv('" := by
    decide
  unfold loadStatement readCall
  rw [happ, String.append_assoc, String.append_assoc, String.append_assoc]
  rfl

theorem ofString_loadStatement (file : String) : Sql.Statement.ofString (loadStatement file) =
    .ok [.createTable ⟨false, false, false, [⟨"t", none⟩], "", some (Sql.wholeFile file)⟩] := by
  have hread := (Sql.reaches_createT _).trans (reaches_selectDoubled file)
  have hchars : (loadStatement file).toList = "CREATE TABLE t AS ".toList ++ ("SELECT * FROM ".toList ++
      (readCall (String.ofList (doubled '\'' file.toList))).toList) := by
    have hwords : "CREATE TABLE t AS SELECT * FROM " = "CREATE TABLE t AS " ++ "SELECT * FROM " := by decide
    rw [loadStatement_eq, hwords, String.toList_append, String.toList_append, List.append_assoc]
  unfold Sql.Statement.ofString Sql.Lexeme.ofString
  rw [hchars, hread.ofChars_nil]
  exact Sql.ofLexemes_createT file

/-! ## Suggestions -/

theorem file_of_candidate {k : Known} {value : String} (h : (value, "csv file") ∈ commands ∨
    (value, "csv file") ∈ tableCandidates k ∨ (value, "csv file") ∈ columnCandidates k) :
    ∃ file ∈ k.files, value = readCall file := by
  rcases h with h | h | h
  · simp [commands] at h
  · rcases List.mem_append.1 h with h | h
    · -- what is said of a table ends with the word for its columns
      obtain ⟨t, -, ht⟩ := List.mem_map.1 h
      have hlast := congrArg (fun c => c.2.toList.getLast?) ht
      simp [toString, List.getLast?_cons] at hlast
    · obtain ⟨file, hfile, hf⟩ := List.mem_map.1 h
      cases hf
      exact ⟨file, List.mem_of_mem_filter hfile, rfl⟩
  · simp only [columnCandidates, List.mem_append, List.mem_map, Prod.mk.injEq] at h
    rcases h with (⟨_, -, -, h⟩ | ⟨f, -, -, h⟩) | ⟨_, -, -, h⟩
    · simp at h
    · split at h <;> simp at h
    · simp at h

/-- The calls that are suggested for files have their names as they are. -/
theorem file_of_suggested {k : Known} {line : String} {position : Nat} {found : List Suggestion} {s : Suggestion}
    (h : complete k line position = some found) (hs : s ∈ found) (hd : s.description = "csv file") :
    ∃ file ∈ k.files, s.value = readCall file := by
  have hcandidate := candidate_of_mem_complete h hs
  rw [hd] at hcandidate
  exact file_of_candidate hcandidate

theorem suggested_its : complete { files := ["it's.csv"] } "SELECT * FROM it" 16 =
    some [⟨"read_csv('it's.csv')", "csv file", 14, 16, [10, 11]⟩] := by
  decide +kernel

/-- A suggested call has the name of a file as it is. It names this file exactly if there is no quote in the name, and
otherwise never reads it. The statement that loads a file ends with a call that names it, whatever the name, and is
read as one that stores what this file holds. -/
theorem readCalls_name_iff (k : Known) (line : String) (position : Nat) :
    (∀ found, complete k line position = some found → ∀ s ∈ found, s.description = "csv file" →
      ∃ file ∈ k.files, s.value = readCall file) ∧
    ∀ file, ((NamesFile (readCall file) file ↔ '\'' ∉ file.toList) ∧
        ('\'' ∉ file.toList → Sql.parseQuery ("SELECT * FROM " ++ readCall file) =
          .ok (.table { items := [.wildcard], names := some ["*"] } file)) ∧
        ('\'' ∈ file.toList → NeverReads (readCall file) file)) ∧
      (∃ call, loadStatement file = "CREATE TABLE t AS SELECT * FROM " ++ call ∧ NamesFile call file) ∧
      Sql.Statement.ofString (loadStatement file) =
        .ok [.createTable ⟨false, false, false, [⟨"t", none⟩], "", some (Sql.wholeFile file)⟩] ∧
      (Sql.wholeFile file).plan = .ok (.table { items := [.wildcard], names := some ["*"] } file) := by
  refine ⟨fun found h s hs hd => file_of_suggested h hs hd, fun file => ⟨?_, ?_⟩⟩
  · exact ⟨namesFile_readCall_iff file, parseQuery_readCall, neverReads_readCall⟩
  · exact ⟨⟨_, loadStatement_eq file, namesFile_doubled file⟩, ofString_loadStatement file, Sql.plan_wholeFile file⟩

theorem readCalls_name_iff_its :
    complete { files := ["it's.csv"] } "SELECT * FROM it" 16 =
      some [⟨"read_csv('it's.csv')", "csv file", 14, 16, [10, 11]⟩] ∧
    (∃ file ∈ ["it's.csv"], "read_csv('it's.csv')" = readCall file) ∧
    NeverReads (readCall "it's.csv") "it's.csv" ∧
    Sql.parseQuery ("SELECT * FROM " ++ readCall "staff.csv") =
      .ok (.table { items := [.wildcard], names := some ["*"] } "staff.csv") ∧
    Sql.Statement.ofString "CREATE TABLE t AS SELECT * FROM read_csv('it''s.csv')" =
      .ok [.createTable ⟨false, false, false, [⟨"t", none⟩], "", some (Sql.wholeFile "it's.csv")⟩] := by
  obtain ⟨hsuggested, hcalls⟩ := readCalls_name_iff { files := ["it's.csv"] } "SELECT * FROM it" 16
  obtain ⟨⟨-, -, hnever⟩, -, hload, -⟩ := hcalls "it's.csv"
  obtain ⟨⟨-, hreads, -⟩, -⟩ := hcalls "staff.csv"
  have hstatement : loadStatement "it's.csv" = "CREATE TABLE t AS SELECT * FROM read_csv('it''s.csv')" := by
    decide +kernel
  rw [hstatement] at hload
  exact ⟨suggested_its, hsuggested _ suggested_its _ List.mem_cons_self rfl, hnever (by decide), hreads (by decide), hload⟩

/-- The call for a name with a quote is suggested, too. -/
theorem not_readCalls_name : ¬∀ k line position found, complete k line position = some found →
    ∀ s ∈ found, s.description = "csv file" → ∃ file ∈ k.files, NamesFile s.value file := by
  intro h
  obtain ⟨file, hfile, hnames⟩ := h _ _ _ _ suggested_its _ List.mem_cons_self rfl
  rw [List.mem_singleton.1 hfile] at hnames
  exact (namesFile_readCall_iff "it's.csv").1 hnames (by decide)

end Shell

end TableQuery
