import TraceArtifacts.Value

/-!
# Places in values

A place is reached by keys of records and positions in sequences, one after the other.
-/

namespace TraceArtifacts

inductive PlaceStep where
  | key (k : String)
  | position (i : Nat)
deriving Repr, DecidableEq

abbrev Place := List PlaceStep

namespace Value

def at? : Place → Value → Option Value
  | [], v => some v
  | .key k :: rest, .object fs => (fs.lookup k).bind (at? rest)
  | .position i :: rest, .list xs => (xs[i]?).bind (at? rest)
  | _, _ => none

def modifyAt (f : Value → Value) : Place → Value → Value
  | [], v => f v
  | .key k :: rest, .object fs => .object (Fields.modify k (modifyAt f rest) fs)
  | .position i :: rest, .list xs => .list (xs.modify i (modifyAt f rest))
  | _, v => v

def putAt (v : Value) (place : Place) (x : Value) : Value := modifyAt (fun _ => x) place v

def numbered (v : Value) : Outcome (List (Value × Nat)) := do return (← v.members).zipIdx

end Value

abbrev Change := EStateM Fault Value

namespace Change

def within (place : Place) (c : Change α) : Change α := fun v =>
  match v.at? place with
  | none => .error .badOperand v
  | some w =>
      match c w with
      | .ok a w => .ok a (v.putAt place w)
      | .error e w => .error e (v.putAt place w)

def apply (f : Value → Outcome Value) : Change Unit := do set (← f (← get))

end Change

end TraceArtifacts
