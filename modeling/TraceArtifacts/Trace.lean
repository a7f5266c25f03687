import TraceArtifacts.Place
import TraceArtifacts.Text.Spelling

/-!
# Traces

What a run of a machine-learning client left behind: a record of algorithms, each a record of functions, each with what was traced
of it.
-/

namespace TraceArtifacts

def putKey [DecidableEq κ] (key : κ) (a : α) : List (κ × α) → List (κ × α)
  | [] => [(key, a)]
  | (k, b) :: rest => if k = key then (k, a) :: rest else (k, b) :: putKey key a rest

def Value.ofPairList (v : Value) : Value :=
  match v with
  | .list pairs => .object (Fields.ofPairs (pairs.filterMap fun p =>
      match p with
      | .list [.text k, w] => some (k, w)
      | _ => none))
  | v => v

namespace Trace

def ofPairs (v : Value) : Value :=
  match v.ofPairList with
  | .object fs => .object (fs.map fun (algo, functions) => (algo, functions.ofPairList))
  | v => v

def rawStatements (call : Value) : Outcome String := do
  let entries ← (← call.entry "sql").members
  return String.join (← entries.mapM fun e => do
    return replaceText (← e.asTextReceiver) "\n" "" ++ ";\n")

def rawMark (word : String) (algo function : Value) : String :=
  "------" ++ word ++ " Algo " ++ algo.display ++ " and Function " ++ function.display ++ " ------"

def raw (trace : Value) : Outcome String := do
  let parts ← (← trace.members).mapM fun algo => do
    let functions ← trace.item algo
    (← functions.members).mapM fun function => do
      return rawMark "START" algo function ++ (← rawStatements (← functions.item function)) ++
        rawMark "END" algo function
  return String.join (parts.map String.join)

end Trace

end TraceArtifacts
