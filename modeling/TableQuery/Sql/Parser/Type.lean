/-
Names of types, with the text that stands for each in messages, and the kind of values that a
conversion to it gives.
-/
import TableQuery.Sql.Parser.Basic

namespace TableQuery.Sql.Parser

/-! ## Parameters of types -/

/-- `(n)`, if it is there. -/
def precision : Parser String := do
  if ← symbol "(" then
    let n ← count
    expectSymbol ")"
    return s!"({n})"
  else return ""

/-- `(n)` or `(n, m)`, if it is there. -/
def precisionAndScale : Parser String := do
  if ← symbol "(" then
    let n ← count
    if ← symbol "," then
      let scale ← count
      expectSymbol ")"
      return s!"({n},{scale})"
    expectSymbol ")"
    return s!"({n})"
  else return ""

/-- The length of a text, in characters or octets. -/
def textLength : Parser String := do
  if ← symbol "(" then
    let length ←
      if ← keyword "MAX" then pure "MAX"
      else do
        let n ← count
        match ← oneOf ["CHARACTERS", "OCTETS"] with
        | some unit => pure s!"{n} {unit}"
        | none => pure (toString n)
    expectSymbol ")"
    return s!"({length})"
  else return ""

def timeZone : Parser String := do
  match ← oneOf ["WITH", "WITHOUT"] with
  | some k =>
    expectKeywords ["TIME", "ZONE"]
    return s!" {k} TIME ZONE"
  | none => return ""

/-- Words, numbers and texts in parentheses behind the name of a type. -/
def modifiersUpTo : Nat → Parser (List String)
  | 0 => fail
  | n + 1 => do
    match ← next with
    | some (.symbol ")") => return []
    | some (.symbol ",") => modifiersUpTo n
    | some (.word w) => return w.ident.spelling :: (← modifiersUpTo n)
    | some (.number digits _) => return digits :: (← modifiersUpTo n)
    | some (.text s) => return s :: (← modifiersUpTo n)
    | _ => fail

def modifiers : Parser String := do
  if ← symbol "(" then
    match ← modifiersUpTo ((← get).length + 1) with
    | [] => return ""
    | ms => return "(" ++ ", ".intercalate ms ++ ")"
  else return ""

/-- The end of a type in angle brackets; of two ends in a row one is left. -/
def closeAngle : Parser Unit := do
  if ← symbol ">>" then modify (.symbol ">" :: ·) else expectSymbol ">"

/-! ## Types -/

/-- A type without a conversion. -/
def plainType (text : String) : TypeName := ⟨text, none⟩

/-- Whole numbers are followed by a width and by a sign. -/
def intType (text : String) (target : Option CastTarget) : Parser TypeName := do
  let p ← precision
  if ← keyword "UNSIGNED" then return ⟨text ++ p ++ " UNSIGNED", none⟩
  return ⟨text ++ p, target⟩

/-- The types without parameters, with their texts. -/
def bareTypes : List (String × String) :=
  [("BOOLEAN", "BOOLEAN"), ("BOOL", "BOOL"), ("FLOAT4", "FLOAT4"), ("FLOAT8", "FLOAT8"),
    ("FLOAT32", "Float32"), ("INT16", "Int16"), ("INT32", "Int32"), ("INT128", "Int128"),
    ("INT256", "Int256"), ("UINT8", "UInt8"), ("UINT16", "UInt16"), ("UINT32", "UInt32"),
    ("UINT64", "UInt64"), ("UINT128", "UInt128"), ("UINT256", "UInt256"), ("UUID", "UUID"),
    ("DATE", "DATE"), ("DATE32", "Date32"), ("JSON", "JSON"), ("JSONB", "JSONB"),
    ("REGCLASS", "REGCLASS"), ("TINYTEXT", "TINYTEXT"), ("MEDIUMTEXT", "MEDIUMTEXT"),
    ("LONGTEXT", "LONGTEXT"), ("TINYBLOB", "TINYBLOB"), ("MEDIUMBLOB", "MEDIUMBLOB"),
    ("LONGBLOB", "LONGBLOB"), ("BYTEA", "BYTEA"), ("TRIGGER", "TRIGGER"), ("INTERVAL", "INTERVAL")]

/-- The types that may be followed by one number. -/
def sizedTypes : List String := ["CLOB", "BINARY", "VARBINARY", "BLOB", "BYTES", "DATETIME"]

/-- The types that may be followed by a precision and a scale. -/
def scaledTypes : List String := ["NUMERIC", "DECIMAL", "DEC", "BIGNUMERIC", "BIGDECIMAL"]

/-- The rest of a type after its keyword, unless it contains other types. `none` if the keyword
names no such type. -/
def simpleType (k : String) : Parser (Option TypeName) := do
  match k with
  | "FLOAT" => return some ⟨"FLOAT" ++ (← precision), some .float⟩
  | "REAL" | "FLOAT64" => return some ⟨k, some .float⟩
  | "DOUBLE" =>
    if ← keyword "PRECISION" then return some ⟨"DOUBLE PRECISION", some .float⟩
    return some ⟨"DOUBLE", some .float⟩
  | "INT" | "INTEGER" | "BIGINT" | "SMALLINT" | "INT4" | "INT8" => intType k (some .int)
  | "TINYINT" | "INT2" | "MEDIUMINT" => intType k none
  | "INT64" => return some ⟨k, some .int⟩
  | "VARCHAR" => return some ⟨k ++ (← textLength), some .text⟩
  | "STRING" => return some ⟨k ++ (← precision), some .text⟩
  | "TEXT" => return some ⟨k, some .text⟩
  | "NVARCHAR" => return some (plainType (k ++ (← textLength)))
  | "CHARACTER" | "CHAR" =>
    if ← keyword "VARYING" then return some (plainType (k ++ " VARYING" ++ (← textLength)))
    if ← keywords ["LARGE", "OBJECT"] then
      return some (plainType (k ++ " LARGE OBJECT" ++ (← precision)))
    return some (plainType (k ++ (← textLength)))
  | "BIT" =>
    if ← keyword "VARYING" then return some (plainType ("BIT VARYING" ++ (← precision)))
    return some (plainType ("BIT" ++ (← precision)))
  | "TIMESTAMP" | "TIME" =>
    let p ← precision
    return some (plainType (k ++ p ++ (← timeZone)))
  | "TIMESTAMPTZ" | "TIMETZ" => return some (plainType (k ++ (← precision)))
  | "ENUM" | "SET" =>
    let texts ← parenthesized (list textLiteral)
    return some (plainType (k ++ "(" ++ ", ".intercalate (texts.map (quoteText '\'')) ++ ")"))
  | _ =>
    if let some text := bareTypes.lookup k then return some (plainType text)
    if sizedTypes.contains k then return some (plainType (k ++ (← precision)))
    if scaledTypes.contains k then return some (plainType (k ++ (← precisionAndScale)))
    return none

/-- Each pair of brackets behind a type makes a list of it. -/
def bracketsUpTo (t : TypeName) : Nat → Parser TypeName
  | 0 => return t
  | n + 1 => do
    if ← symbol "[" then
      let size ← attempt count
      expectSymbol "]"
      let size := (size.map toString).getD ""
      bracketsUpTo (plainType s!"{t.text}[{size}]") n
    else return t

def brackets (t : TypeName) : Parser TypeName := do bracketsUpTo t (← get).length

/-- A type, and whether it is one of the types known by a keyword. -/
def typeUpTo : Nat → Parser (TypeName × Bool)
  | 0 => fail
  | n + 1 => do
    let k ← peekKeyword
    match k with
    | "ARRAY" =>
      let _ ← next
      expectSymbol "<"
      let (inner, _) ← typeUpTo n
      closeAngle
      return (← brackets (plainType s!"ARRAY<{inner.text}>"), true)
    | "STRUCT" | "UNION" =>
      let _ ← next
      let fields ← parenthesized (list do
        let i ← ident
        let (t, _) ← typeUpTo n
        return i.spelling ++ " " ++ t.text)
      return (← brackets (plainType (k ++ "(" ++ ", ".intercalate fields ++ ")")), true)
    | _ =>
      match ← peek with
      | some (.word w) =>
        let start ← get
        let _ ← next
        match ← simpleType w.keyword with
        | some t => return (← brackets t, true)
        | none =>
          set start
          let nm ← name
          let ms ← modifiers
          return (← brackets (plainType (Name.spelling nm ++ ms)), false)
      | _ => fail

def knownOrNamedType : Parser (TypeName × Bool) := do typeUpTo ((← get).length + 1)

def typeName : Parser TypeName := do return (← knownOrNamedType).1

end TableQuery.Sql.Parser
