import TraceArtifacts.Value

/-!
# Signatures of procedures

A signature lists the inputs of a procedure, then its outputs, each with its interface name and its type: the
column list of a table or the type of a variable.
-/

namespace TraceArtifacts.Container

def parameterType (key : String) (parameter : Value) : Outcome String := do
  if !(← parameter.has key) then return ""
  let name ← parameter.textEntry "interface_name"
  return " " ++ name ++ " " ++ (← parameter.textEntry key)

def renderParameter (mark : String) (parameter : Value) : Outcome String := do
  let table ← parameterType "table_type" parameter
  return mark ++ table ++ (← parameterType "data_type" parameter)

def renderParameters (mark : String) (parameters : Value) : Outcome String := do
  return String.intercalate ", " (← (← parameters.members).mapM (renderParameter mark))

def signature (inputs outputs : Value) : Outcome String := do
  let ins ← if inputs.isTruthy then renderParameters "in" inputs else pure ""
  let outs ← if outputs.isTruthy then renderParameters "out" outputs else pure ""
  return ins ++ (if inputs.isTruthy && outputs.isTruthy then ", " else "") ++ outs

end TraceArtifacts.Container
