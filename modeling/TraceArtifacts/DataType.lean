import TraceArtifacts.Place
import TraceArtifacts.Text.Substitution

/-!
# Table types

The type of a traced table is a text such as `table ("ID" INTEGER,"NAME" VARCHAR(50))`.
-/

namespace TraceArtifacts

def tableTypeMarks : List (String × String) := [("table (", ""), (") ", ""), ("\"", "")]

def columnTexts (tableType : String) : Outcome (List String) := do
  return cutText ',' (← substituteText tableTypeMarks (tableType ++ " "))

def splitColumn (column : String) : Outcome (String × String) :=
  match cutText ' ' column with
  | [name, type] => .ok (name, type)
  | parts => if parts.length < 2 then .error (.tooFewParts 2 parts.length)
      else .error (.tooManyParts 2)

def splitSize (type : String) : String × Option String :=
  match Text.indexOf? ['('] type.toList with
  | some i => (String.ofList (type.toList.take i), some (String.ofList (type.toList.drop i)))
  | none => (type, none)

def mappedType (mapping : Value) (type : String) : Outcome String := do
  (← mapping.item (.text type)).asText

def entityColumn (mapping : Value) (column : String) : Outcome String := do
  let (name, type) ← splitColumn column
  let (type, size) := splitSize type
  return "      " ++ name ++ " : " ++ (← mappedType mapping type) ++ size.getD "" ++ ";\n"

def structureColumn (mapping : Value) (column : String) : Outcome String := do
  let (name, type) ← splitColumn column
  let (type, size) := splitSize type
  let length := match size with
    | some s => " LENGTH " ++ replaceText (replaceText s "(" "") ")" ""
    | none => ""
  return name ++ " TYPE " ++ (← mappedType mapping type) ++ length ++ ",\n"

def readColumns : Change (List String) := do
  match ← get with
  | .text s => columnTexts s
  | .list xs => do
      set (Value.list (xs ++ [.text " "]))
      throw .badOperand
  | _ => throw .badOperand

def entityColumns (mapping : Outcome Value) : Change (Option String) := do
  if ← (← get).has "," then
    let columns ← readColumns
    let mapping ← mapping
    return some (String.join (← (columns.mapM (entityColumn mapping) : Outcome _)))
  else return none

def structureColumns (mapping : Outcome Value) : Change String := do
  let columns ← readColumns
  let mapping ← mapping
  return String.join (← (columns.mapM (structureColumn mapping) : Outcome _))

end TraceArtifacts
