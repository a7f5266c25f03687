import TraceArtifacts.Dataset
import TraceArtifacts.Naming
import TraceArtifacts.Settings
import TraceArtifacts.Trace

/-!
# Interfaces of procedures

Every traced function becomes a procedure.
-/

namespace TraceArtifacts

def tableCategories : List String :=
  ["DATA", "MODEL", "PARAM", "STATISTICS", "FITTED", "VAR_IMPORTANCE", "OOB_ERR", "CM", "RULES",
   "CM", "STATS", "CV", "RESULT", "METRIC"]

def variableCategories : List String := ["METRIC"]

def categoryOf (categories : List String) (s : String) : Option String :=
  categories.find? fun c => containsText (lowerText s) (lowerText c)

def categoryIn : List String → Value → Outcome (Option String)
  | [], _ => .ok none
  | c :: cs, v => do
      if ← (Value.text c).isIn v then return some c
      categoryIn cs v

def interfaceNameOf (mark : String) (category : Option String) (name algo function : String) :
    String :=
  mark ++ (match category with
    | some c => lowerText c ++ "_"
    | none => "") ++ lowerText name ++ "_" ++ plainLower algo ++ "_" ++ plainLower function

/-- The category of a table with this name: by its name, else by its traced name, else by the table that its
select reads. -/
def findCategory (t : Value) (name : String) : Outcome (Option String) := do
  match categoryOf tableCategories name with
  | some c => return some c
  | none =>
      if ← t.has "orig_name" then categoryIn tableCategories (← t.entry "orig_name")
      else
        let select ← (← t.entry "select").asTextReceiver
        let (_, table) := parseDataset select
        if table = "" then return none else categoryIn tableCategories (.text table)

def interfaceNameFor (mark : String) (category : Option String) (name : String)
    (algo function : Value) : Outcome String := do
  return interfaceNameOf mark category name (← plainValue algo) (← plainValue function)

def objectNameFor (parts : List Value) : Outcome String := do
  return objectNameOf (← parts.mapM plainValue)

def nameTable (settings : Settings) (algo function t : Value) : Outcome Value := do
  if !(← t.has "name") then return t
  let name := cleanText (← t.textEntry "name")
  let category ← findCategory t name
  let interface ← interfaceNameFor "lt_" category name algo function
  let object ← objectNameFor [algo, function, .text interface]
  let context ← settings.text Setting.entityContext
  let schema ← settings.entry Setting.schema
  return t.withEntries
    [("transformed_name", .text name), ("cat", .ofText? category), ("interface_name", .text interface),
     ("object_name", .text object), ("dbobject_name", .text (contextName context object)),
     ("dbobject_name_schema", schema)]

def withNote (t : Value) : Outcome Value := do
  if ← t.has "in_sql" then return t else t.setEntry "in_sql" (.bool false)

def noteStatement (t statement : Value) : Outcome Value := do
  let t ← withNote t
  if (← t.entry "in_sql").isTruthy then return t
  if ← (← t.entry "name").isIn statement then t.setEntry "in_sql" (.bool true) else return t

def extendTable (settings : Settings) (algo function statements t : Value) : Outcome Value := do
  let t ← nameTable settings algo function t
  (← statements.members).foldlM noteStatement t

def extendTables (settings : Settings) (algo function statements tables : Value) :
    Outcome Value := do
  return .list (← (← tables.members).mapM (extendTable settings algo function statements))

def findVariableCategory (t : Value) (name : String) : Outcome (Option String) := do
  if ← t.has "type" then
    return categoryOf variableCategories (← (← t.entry "type").asTextReceiver)
  else return categoryOf variableCategories name

def extendVariable (algo function t : Value) : Outcome Value := do
  if !(← t.has "name") then return t
  let name := cleanText (← t.textEntry "name")
  let category ← findVariableCategory t name
  let interface ← interfaceNameFor "lv_" category name algo function
  return t.withEntries
    [("transformed_name", .text name), ("cat", .ofText? category), ("interface_name", .text interface)]

def extendVariables (algo function vars : Value) : Outcome Value := do
  return .list (← (← vars.members).mapM (extendVariable algo function))

end TraceArtifacts
