import TraceArtifacts.Text.Lines
import TraceArtifacts.Trace

/-!
# Preparing a traced call

A traced call keeps its statements one by one, or as the lines of one block.
-/

namespace TraceArtifacts

structure Prepared where
  functions : Value
  statements : Value
  inputTables : Value
  outputTables : Value
  outputVars : Value
  sharesOutputs : Bool := false

/-- The inputs and outputs of the first group of a block; `outputSeen` says whether an output came
before. An entry without a name inside the block belongs to no group. -/
def firstGroup : Bool → List Value → Outcome (List Value × List Value)
  | _, [] => .ok ([], [])
  | outputSeen, entry :: rest => do
      if ← entry.has "auto_name" then
        let name ← entry.entry "auto_name"
        let isInput ← name.has "in_"
        if isInput && outputSeen then return ([], [])
        let isOutput ← name.has "out_"
        let (inputs, outputs) ← firstGroup (outputSeen || isOutput) rest
        return (if isInput then entry :: inputs else inputs,
          if isOutput then entry :: outputs else outputs)
      else firstGroup outputSeen rest

def renamedOutput (entry output : Value) : Outcome Value := do
  let name ← output.entry "name"
  let output ← output.setEntry "orig_name" name
  let autoName ← entry.entry "auto_name"
  let output ← output.setEntry "name" autoName
  let select ← output.entry "select"
  let output ← output.setEntry "orig_select" select
  let _ ← select.asTextReceiver
  let _ ← name.asText
  let _ ← autoName.asText
  return output

def matchingOutputs (outputs : Value) (entry : Value) : Outcome (List Value) := do
  let named ← (← outputs.members).mapM fun output => do
    if (← entry.entry "name").same (← output.entry "name") then
      return [← renamedOutput entry output]
    else return []
  return named.flatten

/-- The select of a variable with the traced name of a table replaced by its name inside the block, if it
mentions the table. -/
def redirectedSelect? (table v : Value) : Outcome (Option Value) := do
  let tracedName ← table.entry "orig_name"
  let select ← v.entry "select"
  if ← tracedName.isIn select then
    let text ← select.asTextReceiver
    let tracedName ← tracedName.asText
    let name ← table.textEntry "name"
    return some (.text (replaceText text ("\"" ++ tracedName ++ "\"") (":" ++ name)))
  else return none

def redirectVariables (table : Value) : Change Unit := do
  (← (← get).numbered).forM fun (v, i) => do
    if let some select ← redirectedSelect? table v then
      modify (Value.modifyAt (fun v => .object (v.toFields.set "select" select)) [.position i])

def blockLines (block : String) : List String :=
  (cutText '\n' (replaceText block ";" "")).filter fun line => !startsWithText line "in_"

def onTraced (key : String) (c : Change α) : Change (α × Value) := do
  let call ← get
  if ← call.has key then
    let a ← Change.within [.key key] c
    return (a, ← (← get).entry key)
  match c (.list []) with
  | .ok a v => return (a, v)
  | .error e _ => throw e

def prepareBlock (p : Prepared) (block : String) : Change Prepared := do
  let entries ← (← (← get).entry "auto").members
  let (inputs, outputs) ← firstGroup false entries
  let (_, inputTables) ← onTraced "input_tables" do
    if !inputs.isEmpty then Change.apply (·.append inputs)
  let outputs ← (outputs.mapM (matchingOutputs p.outputTables) : Outcome _)
  let outputs := outputs.flatten
  let (_, outputVars) ← onTraced "output_vars" (outputs.forM redirectVariables)
  return { p with
    statements := .ofTexts (blockLines block), inputTables, outputTables := .list outputs, outputVars
    sharesOutputs := false }

def prepare : Change Prepared := do
  let call ← get
  let asTraced : Prepared :=
    { functions := ← call.entryOr "function" (.list [])
      statements := ← call.entryOr "sql" (.list [])
      inputTables := ← call.entryOr "input_tables" (.list [])
      outputTables := ← call.entryOr "output_tables" (.list [])
      outputVars := ← call.entryOr "output_vars" (.list [])
      sharesOutputs := ← call.has "output_tables" }
  if !(← call.has "auto") then return asTraced
  let block ← joinMembers asTraced.statements (.text "\n") (.text "")
  if block = "" then return asTraced
  prepareBlock asTraced block

end TraceArtifacts
