import TraceArtifacts.Dataset
import TraceArtifacts.Naming
import TraceArtifacts.Trace

/-!
# Synonyms

Inside a container, database functions and data sets are reached by synonyms only.
-/

namespace TraceArtifacts

structure Synonym where
  object : Value
  schema : Value
  synonym : String
  kind : Value
deriving Inhabited

namespace Synonym

def functionKind : String := "function"

def datasetKind : String := "dataset"

def toValue (s : Synonym) : Value :=
  .object [("object", s.object), ("schema", s.schema), ("synonym", .text s.synonym),
    ("type", s.kind)]

def nameFor? (name schema : Value) : Outcome (Option String) := do
  let plainName ← plainValue name
  let plainSchema ← plainValue schema
  if name.isTruthy && schema.isTruthy then return some (plainSchema ++ "::" ++ plainName)
  else return none

def make (name schema kind : Value) : Outcome Synonym := do
  match ← nameFor? name schema with
  | some synonym => return { object := name, schema, synonym, kind }
  | none => throw .badOperand

def ofRecord (object kind : Value) : Outcome (Option Synonym) := do
  if !object.isTruthy then return none
  if !(← object.has "name") then return none
  if !(← object.has "schema") then return none
  return some (← make (← object.entry "name") (← object.entry "schema") kind)

def forFunction (function : Value) : Outcome (Option Synonym) :=
  ofRecord function (.text functionKind)

def forInput (t : Value) : Outcome (Option Synonym) := do
  if !(← t.has "select") then return none
  let select ← (← t.entry "select").asTextReceiver
  if containsText (lowerText select) "select" && !containsText select "#" then
    let (schema, table) := parseDataset select
    return some (← make (.text table) (.ofText? schema) (.text datasetKind))
  else return none

def noteAll (synonymOf : Value → Outcome (Option Synonym)) : Change (List Synonym) := do
  let found ← (← (← get).numbered).mapM fun (member, i) => do
    match ← synonymOf member with
    | none => return []
    | some s => do
        modify (Value.modifyAt (·.withEntries [("synonym", .text s.synonym)]) [.position i])
        return [s]
  return found.flatten

/-- The replacements of a synonym in statements: functions are called with or without quotes around
their names, data sets are read with or without quotes around both parts. -/
def replacements (s : Value) : Outcome (List (String × String)) := do
  let kind ← s.entry "type"
  let quotedKey (mark : String) : Outcome (List (String × String)) := do
    let synonym ← s.textEntry "synonym"
    let schema ← s.textEntry "schema"
    let object ← s.textEntry "object"
    return [(mark ++ schema ++ mark ++ ".\"" ++ object ++ "\"", "\"" ++ synonym ++ "\""),
      (schema ++ "." ++ object, "\"" ++ synonym ++ "\"")]
  if kind.same (.text functionKind) then quotedKey ""
  else if kind.same (.text datasetKind) then quotedKey "\""
  else return []

def allReplacements (synonyms : Value) : Outcome (List (String × String)) := do
  let all ← (← synonyms.members).mapM replacements
  return all.flatten.foldl (fun table p => putKey p.1 p.2 table) []

end Synonym

end TraceArtifacts
