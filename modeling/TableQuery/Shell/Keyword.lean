/-
Keywords that are highlighted and completed.
-/

namespace TableQuery.Shell

def keywords : List String :=
  ["SELECT", "DISTINCT", "FROM", "WHERE", "GROUP", "BY", "ALL", "HAVING", "ORDER", "ASC", "DESC",
    "LIMIT", "AS", "CREATE", "OR", "REPLACE", "TABLE", "IF", "NOT", "EXISTS", "DROP", "CAST", "IN",
    "BETWEEN", "LIKE", "ILIKE", "IS", "NULL", "TRUE", "FALSE", "AND"]

/-- Words that are shown as operators. -/
def operatorWords : List String := ["AND", "OR", "NOT", "IN", "LIKE", "ILIKE", "IS", "BETWEEN"]

end TableQuery.Shell
