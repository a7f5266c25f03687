import TraceArtifacts.Value

/-!
# Simultaneous substitution

All keys of a table are replaced in one pass from left to right. At each position the longest key that stands there wins; what was
put in is not looked at again.
-/

namespace TraceArtifacts.Text

abbrev Substitution := List (List Char × Value)

def inserted : Value → Outcome (List Char)
  | .text s => .ok s.toList
  | .null => .ok []
  | _ => .error .badOperand

def longestMatch? : Substitution → List Char → Option (List Char × Value)
  | [], _ => none
  | (k, v) :: rest, s =>
      match longestMatch? rest s with
      | some (k', v') =>
          if k.isPrefixOf s && decide (k'.length < k.length) then some (k, v) else some (k', v')
      | none => if k.isPrefixOf s && !k.isEmpty then some (k, v) else none

def filler (m : Substitution) : Outcome (List Char) :=
  match m.lookup [] with
  | some v => inserted v
  | none => .ok []

def substituteFrom (m : Substitution) : Nat → List Char → Outcome (List Char)
  | 0, [] => filler m
  | _ + 1, [] => .ok []
  | skip + 1, _ :: cs => substituteFrom m skip cs
  | 0, c :: cs =>
      match longestMatch? m (c :: cs) with
      | some (k, v) => do
          let out ← inserted v
          let rest ← substituteFrom m (k.length - 1) cs
          return out ++ rest
      | none => do
          let out ← filler m
          let rest ← substituteFrom m 0 cs
          return out ++ c :: rest

def substitute (m : Substitution) (s : List Char) : Outcome (List Char) :=
  if m.isEmpty then .error (.missingKey "") else substituteFrom m 0 s

end TraceArtifacts.Text

namespace TraceArtifacts

def substituteFields (m : Fields) (s : String) : Outcome String := do
  return String.ofList (← Text.substitute (m.map fun f => (f.1.toList, f.2)) s.toList)

def substituteText (m : List (String × String)) (s : String) : Outcome String :=
  substituteFields (m.map fun p => (p.1, .text p.2)) s

/-- Substitution for any two values. A table must be something with texts to go through; only a
record has values for its keys. A table whose letter case is to be ignored is never accepted. -/
def substituteValue (s replacements : Value) (ignoreCase : Bool) : Outcome String := do
  if ignoreCase then throw .badReceiver
  let keys ← (← replacements.members).mapM Value.asText
  let table : Fields :=
    match replacements with
    | .object fs => fs
    | _ => keys.map fun k => (k, .list [])
  let target ← s.asText
  match replacements, keys with
  | .object _, _ => substituteFields table target
  | _, [] => throw .badOperand
  | _, _ => substituteFields table target

end TraceArtifacts
