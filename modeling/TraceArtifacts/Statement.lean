import TraceArtifacts.Synonym

/-!
# Statements of a procedure

Traced statements become the body of a procedure in four steps.
-/

namespace TraceArtifacts

def anyOccurs (key : String) (statement : Value) : List Value → Outcome Bool
  | [] => .ok false
  | t :: ts => do
      if ← (← t.entry key).isIn statement then return true
      anyOccurs key statement ts

def anyMemberOccurs (key : String) (statement items : Value) : Outcome Bool := do
  if items.isTruthy then anyOccurs key statement (← items.members) else return false

def keepsStatement (items statement : Value) : Outcome Bool := do
  if ← statement.has "DROP" then return false
  if ← statement.has "CREATE" then
    if ← anyMemberOccurs "name" statement items then return false
  if startsWithText (← statement.asTextReceiver) "SELECT" then
    if ← anyMemberOccurs "select" statement items then return false
  return true

def filterStatements (items statements : Value) : Outcome (List Value) := do
  let kept ← (← statements.members).mapM fun s => do
    return if ← keepsStatement items s then [s] else []
  return kept.flatten

def lengthToLast (needle : Value) : List Value → Outcome Nat
  | [] => .ok 0
  | s :: rest => do
      let here ← needle.isIn s
      match ← lengthToLast needle rest with
      | 0 => return if here then 1 else 0
      | n + 1 => return n + 2

def inputStatement (t : Value) : Outcome String := do
  let name ← t.textEntry "transformed_name"
  let interface ← t.textEntry "interface_name"
  return name ++ " = SELECT * FROM :" ++ interface

def outputStatement (t : Value) : Outcome String := do
  let inStatements ← t.entry "in_sql"
  let interface ← t.textEntry "interface_name"
  if inStatements.isTruthy then
    return interface ++ " = SELECT * FROM :" ++ (← t.textEntry "transformed_name")
  else return interface ++ " = " ++ (← t.textEntry "select")

def variableStatement (t : Value) : Outcome String := do
  let select ← t.textEntry "select"
  let interface ← t.textEntry "interface_name"
  return "SELECT ( " ++ select ++ " ) INTO " ++ interface ++ " FROM DUMMY"

def addInput (t statements : Value) : Outcome Value := do
  let statement ← inputStatement t
  let position ← lengthToLast (.text "DECLARE") (← statements.members)
  match statements with
  | .list ss => return .list (ss.take position ++ .text statement :: ss.drop position)
  | _ => throw .badReceiver

def addOutput (t statements : Value) : Outcome Value := do
  statements.append [.text (← outputStatement t)]

def addVariable (t statements : Value) : Outcome Value := do
  statements.append [.text (← variableStatement t)]

def addEach (add : Value → Value → Outcome Value) (tables : Value) : Change Value := do
  (← tables.members).forM fun t => Change.apply (add t)
  get

def orderStatements (statements : Value) : Outcome (List Value) := do
  let marked ← (← statements.members).mapM fun s => do return (← s.has "CREATE", s)
  return (marked.filter (·.1) ++ marked.filter (!·.1)).map (·.2)

def arrangeStatements (inputs outputs vars statements : Value) : Outcome (List Value) := do
  let statements ← (← inputs.members).foldlM (fun ss t => addInput t ss) statements
  let statements ← (← outputs.members).foldlM (fun ss t => addOutput t ss) statements
  let statements ← (← vars.members).foldlM (fun ss t => addVariable t ss) statements
  orderStatements statements

/-- What the notation of procedures replaces in a statement, by the words that occur in it. -/
def procedureMarks (statement : String) : List (String × String) :=
  let marks : List (String × List (String × String)) :=
    [("CREATE", [("CREATE LOCAL TEMPORARY COLUMN TABLE", "DECLARE"), ("\" (", " TABLE ("),
        ("\"#", "")]),
     ("INSERT", [("INSERT INTO ", ""), (" VALUES ", ".INSERT("), (")", "))"), ("\"", ""),
        ("#", ":")]),
     ("CALL", [(" WITH OVERVIEW", ""), ("\"", ""), ("#", ":")]),
     ("SELECT", [("#", ":")])]
  marks.foldl (fun table (word, entries) =>
    if containsText statement word then
      entries.foldl (fun table p => putKey p.1 p.2 table) table
    else table) []

def isBlockMark (statement : String) : Bool :=
  startsWithText statement "DO" || startsWithText statement "BEGIN" ||
    startsWithText statement "END"

def transformStatement (synonyms : List (String × String)) (statement : String) :
    Outcome (Option String) := do
  if isBlockMark statement then return none
  let marks := synonyms.foldl (fun table p => putKey p.1 p.2 table) (procedureMarks statement)
  let result ← substituteText marks statement
  return if result = "" then none else some (result ++ ";")

def transformEntry (synonyms : List (String × String)) (statement : Value) :
    Outcome (Option String) := do
  let _ ← statement.has "CREATE"
  transformStatement synonyms (← statement.asTextReceiver)

def transformStatements (synonyms statements : Value) : Outcome (List String) := do
  let table ← Synonym.allReplacements synonyms
  return (← (← statements.members).mapM (transformEntry table)).filterMap id

end TraceArtifacts
