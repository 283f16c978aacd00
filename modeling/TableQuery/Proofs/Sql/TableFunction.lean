/-
Calls of the function that reads a file, as the sources of selections. Where a call with a text as its argument stands
behind the `FROM` of a selection, it is the source, for the file of this name, if a clause or nothing follows.
Whatever follows, a selection that starts its source so and has a meaning reads the file of this name.
-/
import TableQuery.Database
import TableQuery.Proofs.Sql.Parsing

namespace TableQuery.Sql

/-- The start of a call that reads a file, up to the text that is its argument. -/
def callStart (file : String) : List Lexeme := [.word ⟨"read_csv", none, "READ_CSV"⟩, .symbol "(", .text file]

/-- A call that reads a file. -/
def fileCall (file : String) : List Lexeme := callStart file ++ [.symbol ")"]

/-- If the source has a meaning, then that of a table under this label. -/
def Source.Names (source : Source) (label : String) : Prop := ∀ k, source.plan = .ok k → k = (.table · label)

/-- The source that a call is read as. -/
def Source.file (file : String) : Source := .function [⟨"read_csv", none⟩] [.term (.literal (.text file))] ""

theorem Source.plan_file (file : String) : (Source.file file).plan = .ok (.table · file) := rfl

theorem Source.names_function {file : String} {arg : Arg} {more : List Arg} {rest : String}
    (h : ∀ path, arg = .term (.literal (.text path)) → path = file) :
    (Source.function [⟨"read_csv", none⟩] (arg :: more) rest).Names file := by
  intro k hk
  rw [Source.plan] at hk
  obtain ⟨label, hlabel, hk⟩ := bind_ok hk
  cases hk
  have hname : Text.lower (Name.text [⟨"read_csv", none⟩]) = "read_csv" := by decide
  rw [hname] at hlabel
  unfold planTableFunction at hlabel
  rw [if_pos (by decide)] at hlabel
  split at hlabel
  · rename_i hargs
    cases hargs
    cases hlabel
    rw [h _ rfl]
  · cases hlabel
  · cases hlabel

namespace Grammar

open Sql.Parser

variable (g : Grammar) {file : String} {rest : List Lexeme}

/-! ## The argument -/

theorem yields_first (file : String) (rest : List Lexeme) :
    Yields g.first (.text file :: rest) fun t _ => t = .literal (.text file) ∨ t.NotText := by
  refine .step rfl ?_
  rw [List.length_cons]
  unfold firstUpTo
  refine .step rfl (.bind (Yields.attempt (fun a rest h => gives_spelled _ _ _ a rest h)) fun o rest' ho => ?_)
  cases o with
  | some t => exact .pure (.inr ho)
  | none =>
    subst ho
    refine .step rfl (.skip fun collated rest' => ?_)
    cases collated with
    | true => exact (gives_spelled _ _ _).mono fun _ _ => .inr
    | false => exact .pure (.inl rfl)

theorem yields_termAbove (bound : Nat) (file : String) (rest : List Lexeme) :
    Yields (g.termAbove bound) (.text file :: rest) fun t _ => t = .literal (.text file) ∨ t.NotText := by
  refine .step rfl (.bind (g.yields_first file rest) fun left rest' hleft => ?_)
  refine (g.gives_operationsUpTo _ bound _ left rest').mono fun t _ ht => ?_
  rcases ht with rfl | ht
  · exact hleft
  · exact .inr ht

theorem yields_anyTerm (n : Nat) (file : String) (rest : List Lexeme) :
    Yields (ofLevels n).anyTerm (.text file :: rest) fun t _ => t = .literal (.text file) ∨ t.NotText := by
  cases n with
  | zero => exact fun _ _ h => by cases h
  | succ n => exact (ofLevels n).yields_termAbove 0 file rest

/-- What is no name with a star behind it is left as it was. -/
theorem yields_starredName (ls : List Lexeme) : Yields starredName ls fun table rest => table = none → rest = ls := by
  have hrest : ∀ {p : Parser (Option Name)} {f : Option Name → Parser (Option Name)},
      (∀ table, f (some table) = pure (some table)) → f none = set ls >>= (fun _ => pure none) →
      Yields (p >>= f) ls fun table rest => table = none → rest = ls := by
    intro p f hsome hnone
    refine .skip fun table _ => ?_
    cases table with
    | some table =>
      rw [hsome]
      exact .pure nofun
    | none =>
      rw [hnone]
      exact .step rfl (.pure fun _ => rfl)
  unfold starredName
  refine .step rfl ?_
  split
  · split
    · exact hrest (fun _ => rfl) rfl
    · exact hrest (fun _ => rfl) rfl
    · exact .pure fun _ => rfl
  · exact .pure fun _ => rfl

theorem yields_starOrTerm (n : Nat) (file : String) (rest : List Lexeme) :
    Yields (ofLevels n).starOrTerm (.text file :: rest) fun a _ =>
      ∀ path, a = .term (.literal (.text path)) → path = file := by
  unfold starOrTerm
  refine .step rfl (.step rfl (.bind (yields_starredName _) fun table rest' htable => ?_))
  cases table with
  | some table => exact .skip fun _ _ => .pure nofun
  | none =>
    rw [htable rfl]
    refine .bind (yields_anyTerm n file rest) fun t _ ht => .pure ?_
    rintro path hpath
    cases hpath
    rcases ht with ht | ht
    · cases ht
      rfl
    · exact absurd rfl (ht path)

/-- An argument with a name is no term. -/
theorem gives_namedArgument (value : Parser Unit) : Gives (namedArgument value) fun a => ∀ t, a ≠ .term t := by
  unfold namedArgument
  refine .bind fun start => .bind fun name => .bind fun l => ?_
  have hvalue : Gives (do
      value
      return Arg.other (← spellingSince start)) fun a => ∀ t, a ≠ .term t := .bind fun _ => .bind fun _ => .pure nofun
  split
  · split
    · exact .bind fun _ => hvalue
    · exact hvalue
  · exact .bind fun _ => hvalue

/-- If an argument that starts with a text is a text literal, then of this text. -/
theorem yields_argument (n : Nat) (file : String) (rest : List Lexeme) :
    Yields (ofLevels n).argument (.text file :: rest) fun a _ =>
      ∀ path, a = .term (.literal (.text path)) → path = file := by
  unfold argument
  refine .bind (.attempt (gives_namedArgument _ _)) fun a rest' ha => ?_
  cases a with
  | some a => exact .pure fun path hpath => absurd hpath (ha _)
  | none =>
    subst ha
    exact yields_starOrTerm n file rest

/-! ## The call -/

theorem yields_unlessPivoted (start : List Lexeme) {source : String → Source} (hs : ∀ text, (source text).Names file)
    (ls : List Lexeme) : Yields (g.unlessPivoted start source) ls fun m _ => m.source.Names file := by
  unfold unlessPivoted
  refine .skip fun rest _ => .skip fun _ _ => .skip fun _ _ => .skip fun _ _ => .skip fun text _ => .skip fun turned _ => ?_
  cases turned with
  | true => exact .skip fun _ _ => .pure nofun
  | false => exact .pure (hs text)

theorem yields_namedTable (n : Nat) (start : List Lexeme) (file : String) (rest : List Lexeme) :
    Yields ((ofLevels n).namedTable start) (callStart file ++ rest) fun m _ => m.source.Names file := by
  unfold namedTable
  refine .step rfl (.step rfl ?_)
  rw [if_pos rfl]
  refine .step rfl ?_
  rw [if_neg (by decide)]
  refine .bind (.list (yields_argument n file rest)) fun args _ hargs => ?_
  obtain ⟨arg, more, rfl, harg⟩ := hargs
  refine .skip fun _ _ => .step rfl (.skip fun _ _ => ?_)
  exact yields_unlessPivoted _ start (fun _ => Source.names_function harg) _

theorem yields_joinedMember (n : Nat) (file : String) (rest : List Lexeme) :
    Yields (ofLevels n).joinedMember (callStart file ++ rest) fun source _ => source.Names file := by
  have hmember : (ofLevels n).member (callStart file ++ rest) =
      (ofLevels n).namedTable (callStart file ++ rest) (callStart file ++ rest) := rfl
  unfold joinedMember
  refine .step rfl (.bind (Q := fun m _ => m.source.Names file) ?_ fun m _ hm => .skip fun joined _ => ?_)
  · intro m rest' h
    rw [hmember] at h
    exact yields_namedTable n _ file rest m rest' h
  · cases joined with
    | true => exact .skip fun _ _ => .pure nofun
    | false => exact .pure hm

/-- What starts with a call is the source of this file, or it is several sources or none with a meaning. -/
theorem yields_source (n : Nat) (file : String) (rest : List Lexeme) :
    Yields (ofLevels n).source (callStart file ++ rest) fun source _ => source.Names file := by
  unfold source
  refine .step rfl (.bind (.list (yields_joinedMember n file rest)) fun sources _ hsources => ?_)
  obtain ⟨source, more, rfl, hsource⟩ := hsources
  cases more with
  | nil => exact .pure hsource
  | cons s more => exact .skip fun _ _ => .pure nofun

/-! ## The end of the source -/

/-- The words that start what can follow the sources of a selection. -/
def afterSource : List String :=
  ["LATERAL", "WHERE", "GROUP", "CLUSTER", "DISTRIBUTE", "SORT", "HAVING", "QUALIFY", "WINDOW", "UNION", "EXCEPT",
    "INTERSECT", "ORDER", "LIMIT", "OFFSET", "FETCH", "FOR", "END"]

/-- Nothing follows that belongs to a source: neither an alias nor a clause of it, and no other source. -/
def EndsSource : List Lexeme → Prop
  | .word w :: _ => w.keyword ∈ afterSource
  | .symbol s :: _ => s ≠ ","
  | .text _ :: _ => False
  | _ => True

/-- None of what can belong to a source is read. -/
structure ReadsNothing (g : Grammar) (rest : List Lexeme) : Prop where
  ordinality : keywords ["WITH", "ORDINALITY"] rest = .ok (false, rest)
  named : tableAlias rest = .ok ((), rest)
  hints : g.tableHints rest = .ok ((), rest)
  sample : g.sampleClause rest = .ok ((), rest)
  turned : g.pivots rest = .ok (false, rest)
  joins : ∀ member n, g.joinsUpTo member (n + 1) rest = .ok (false, rest)

theorem EndsSource.readsNothing (h : EndsSource rest) : ReadsNothing g rest := by
  match rest, h with
  | [], _ => exact ⟨rfl, rfl, rfl, rfl, rfl, fun _ _ => rfl⟩
  | .word ⟨text, quote, keyword⟩ :: rest, h =>
    simp only [EndsSource, afterSource, List.mem_cons, List.not_mem_nil, or_false] at h
    rcases h with rfl | rfl | rfl | rfl | rfl | rfl | rfl | rfl | rfl | rfl | rfl | rfl | rfl | rfl | rfl | rfl | rfl | rfl
    all_goals exact ⟨rfl, rfl, rfl, rfl, rfl, fun _ _ => rfl⟩
  | .symbol s :: rest, _ => exact ⟨rfl, rfl, rfl, rfl, rfl, fun _ _ => rfl⟩
  | .number .. :: rest, _ => exact ⟨rfl, rfl, rfl, rfl, rfl, fun _ _ => rfl⟩
  | .literal .. :: rest, _ => exact ⟨rfl, rfl, rfl, rfl, rfl, fun _ _ => rfl⟩
  | .placeholder .. :: rest, _ => exact ⟨rfl, rfl, rfl, rfl, rfl, fun _ _ => rfl⟩

theorem symbol_of_ne {l : Lexeme} {s : String} (h : l ≠ .symbol s) (rest : List Lexeme) :
    symbol s (l :: rest) = .ok (false, l :: rest) := by
  have hpeek : symbol s (l :: rest) = (if (some l == some (.symbol s)) = true then do
      let _ ← next
      return true
    else return false : Parser Bool) (l :: rest) := rfl
  rw [hpeek, if_neg (by simpa using h)]
  rfl

theorem EndsSource.listEnds (h : EndsSource rest) : listEnds rest = .ok (true, rest) := by
  have hcomma : symbol "," rest = .ok (false, rest) := by
    match rest, h with
    | [], _ => rfl
    | .symbol s :: rest, h => exact symbol_of_ne (by simpa [EndsSource] using h) rest
    | .word _ :: rest, _ | .number .. :: rest, _ | .literal _ :: rest, _ | .placeholder _ :: rest, _ => rfl
  unfold Parser.listEnds
  exact bind_of_ok hcomma

theorem unlessPivoted_of_readsNothing (h : ReadsNothing g rest) (start : List Lexeme) (source : String → Source) :
    g.unlessPivoted start source rest = .ok (⟨source "", false⟩, rest) := by
  have htext : spellingSince rest rest = .ok ("", rest) := by
    show Except.ok (Lexeme.spellAll (rest.take (rest.length - rest.length)), rest) = _
    rw [Nat.sub_self]
    rfl
  unfold unlessPivoted
  refine (bind_of_ok rfl).trans ((bind_of_ok h.named).trans ((bind_of_ok h.hints).trans ((bind_of_ok h.sample).trans ?_)))
  exact (bind_of_ok htext).trans (bind_of_ok h.turned)

/-- A call is a source of its own if nothing follows that belongs to it. -/
theorem joinedMember_fileCall (n : Nat) (file : String) (h : EndsSource rest) :
    (ofLevels (n + 1)).joinedMember (fileCall file ++ rest) = .ok (Source.file file, rest) := by
  have hnothing := h.readsNothing (ofLevels (n + 1))
  have hmember : (ofLevels (n + 1)).member (fileCall file ++ rest) = (do
      let _ ← keywords ["WITH", "ORDINALITY"]
      (ofLevels (n + 1)).unlessPivoted (fileCall file ++ rest)
        (.function [⟨"read_csv", none⟩] [.term (.literal (.text file))])) rest := rfl
  rw [bind_of_ok hnothing.ordinality, unlessPivoted_of_readsNothing _ hnothing] at hmember
  unfold joinedMember
  exact (bind_of_ok rfl).trans ((bind_of_ok hmember).trans (bind_of_ok (hnothing.joins _ _)))

theorem source_fileCall (n : Nat) (file : String) (h : EndsSource rest) :
    (ofLevels (n + 1)).source (fileCall file ++ rest) = .ok (Source.file file, rest) := by
  have hlist : list (ofLevels (n + 1)).joinedMember (fileCall file ++ rest) = .ok ([Source.file file], rest) :=
    (bind_of_ok rfl).trans ((bind_of_ok (joinedMember_fileCall n file h)).trans (bind_of_ok h.listEnds))
  unfold source
  exact (bind_of_ok rfl).trans (bind_of_ok hlist)

/-! ## Selections -/

/-- A selection up to its sources: what is selected, and whether sources follow. -/
def selectHead : Parser (Distinct × List Item × Bool) := do
  expectKeyword "SELECT"
  let distinct ← g.distinctClause
  g.topClause
  let items ← list g.item
  intoClause
  let sourced ← keyword "FROM"
  return (distinct, items, sourced)

/-- A selection behind its sources. -/
def selectTail (distinct : Distinct) (items : List Item) (source : Source) : Parser Body := do
  g.lateralViewsUpTo (← get).length
  let filter ← g.optionalClause "WHERE"
  let grouping ← g.groupClause
  g.termsBehind ["CLUSTER", "BY"]
  g.termsBehind ["DISTRIBUTE", "BY"]
  g.termsBehind ["SORT", "BY"]
  let having ← g.optionalClause "HAVING"
  if (← peekKeyword) = "QUALIFY" then
    let _ ← g.optionalClause "QUALIFY"
    g.windowClause
  else
    g.windowClause
    let _ ← g.optionalClause "QUALIFY"
  return .select ⟨distinct, items, filter, grouping, having⟩ source

theorem selection_eq : g.selection = (do
    let (distinct, items, sourced) ← g.selectHead
    let source ← if sourced then g.source else pure .nothing
    g.selectTail distinct items source) := by
  simp only [selection, selectHead, bind_assoc, pure_bind]
  rfl

theorem gives_selectTail (distinct : Distinct) (items : List Item) (source : Source) :
    Gives (g.selectTail distinct items source) fun body => ∃ s, body = .select s source := by
  unfold selectTail
  refine .bind fun _ => .bind fun _ => .bind fun filter => .bind fun grouping => .bind fun _ => .bind fun _ => ?_
  refine .bind fun _ => .bind fun having => .bind fun _ => ?_
  split
  · exact .bind fun _ => .bind fun _ => .pure ⟨_, rfl⟩
  · exact .bind fun _ => .bind fun _ => .pure ⟨_, rfl⟩

/-- A selection whose sources are these lexemes, and what else follows, can stand for this query. -/
def FromReads (n : Nat) (sources : List Lexeme) (q : Query) : Prop :=
  ∃ ls distinct items body rest frame, (ofLevels n).selectHead ls = .ok ((distinct, items, true), sources) ∧
    (ofLevels n).selection ls = .ok (body, rest) ∧ Body.plan frame body = .ok q

variable {n : Nat} {ls : List Lexeme} {distinct : Distinct} {items : List Item}

theorem selection_of_head (h : g.selectHead ls = .ok ((distinct, items, true), rest)) : g.selection ls = (do
    let source ← g.source
    g.selectTail distinct items source) rest := by
  rw [selection_eq]
  exact bind_of_ok h

/-- Sources that start with a call have the file as their only one, if they have a meaning. -/
theorem FromReads.eq_table {q : Query} (h : FromReads n (callStart file ++ rest) q) : ∃ s, q = .table s file := by
  obtain ⟨ls, distinct, items, body, rest', frame, hhead, hbody, hplan⟩ := h
  rw [selection_of_head _ hhead] at hbody
  obtain ⟨⟨source, ls'⟩, hsource, hbody⟩ := bind_ok hbody
  obtain ⟨s, rfl⟩ := gives_selectTail _ distinct items source ls' body rest' hbody
  rw [Body.plan] at hplan
  obtain ⟨ofSelect, hof, hplan⟩ := bind_ok hplan
  obtain ⟨sel, -, hplan⟩ := bind_ok hplan
  cases hplan
  rw [yields_source n file rest source ls' hsource ofSelect hof]
  exact ⟨sel, rfl⟩

theorem selection_fileCall (file : String) (hrest : EndsSource rest)
    (h : (ofLevels (n + 1)).selectHead ls = .ok ((distinct, items, true), fileCall file ++ rest)) :
    (ofLevels (n + 1)).selection ls = (ofLevels (n + 1)).selectTail distinct items (Source.file file) rest :=
  (selection_of_head _ h).trans (bind_of_ok (source_fileCall n file hrest))

end Grammar

/-! ## Whole statements -/

/-- All columns of a file. -/
def wholeFile (file : String) : QueryExpr := .mk {} (.select { items := [.star] } (.file file))

theorem plan_wholeFile (file : String) :
    (wholeFile file).plan = .ok (.table { items := [.wildcard], names := some ["*"] } file) := rfl

/-- The words in front of a source, of which all columns are selected. -/
def selectAll : List Lexeme := [.word ⟨"SELECT", none, "SELECT"⟩, .symbol "*", .word ⟨"FROM", none, "FROM"⟩]

theorem selectHead_selectAll (n : Nat) (ls : List Lexeme) :
    (Grammar.ofLevels n).selectHead (selectAll ++ ls) = .ok ((.no, [.star], true), ls) := rfl

theorem ofLexemes_selectAll (file : String) :
    Statement.ofLexemes (selectAll ++ fileCall file) = .ok [.query (wholeFile file)] := rfl

/-- The words in front of a query whose result is stored as the table `t`. -/
def createT : List Lexeme :=
  [.word ⟨"CREATE", none, "CREATE"⟩, .word ⟨"TABLE", none, "TABLE"⟩, .word ⟨"t", none, "T"⟩, .word ⟨"AS", none, "AS"⟩]

theorem ofLexemes_createT (file : String) : Statement.ofLexemes (createT ++ (selectAll ++ fileCall file)) =
    .ok [.createTable ⟨false, false, false, [⟨"t", none⟩], "", some (wholeFile file)⟩] := rfl

end TableQuery.Sql
