import TraceArtifacts.Value

/-!
# Look-up along a path

A path names entries of nested records, one key after the other, with slashes between them.
-/

namespace TraceArtifacts

def Value.stepInto (v : Value) (key : String) (default : Value) : Outcome Value :=
  match v with
  | .object fs => .ok ((Fields.get? fs key).getD default)
  | _ => .error .badReceiver

def Value.stepFrom (v : Value) (key : String) (default : Value) : Outcome Value :=
  match v with
  | .list vs => do
      return .list (← vs.mapM fun w =>
        if w.isTruthy then w.stepInto key default else pure .null)
  | _ => v.stepInto key default

def Value.walk (default : Value) : List String → Value → Outcome Value
  | [], v => .ok v
  | key :: keys, v =>
      if v.isTruthy then do Value.walk default keys (← v.stepFrom key default) else .ok v

def Value.lookupPath (root path : Value) (default : Value) : Outcome Value := do
  let keys := cutText '/' (← path.asTextReceiver)
  match root, keys with
  | .object fs, key :: keys => Value.walk default keys ((Fields.get? fs key).getD default)
  | _, _ => throw .badOperand

def pathParts (path : String) : List String := cutText '/' path

def joinPath (parts : List String) : String := String.intercalate "/" parts

def threeParts : List String → Outcome (String × String × String)
  | [a, b, c] => .ok (a, b, c)
  | parts => if parts.length < 3 then .error (.tooFewParts 3 parts.length)
      else .error (.tooManyParts 3)

def Value.atPath (root path : Value) : Outcome Value := do
  let (a, b, c) ← threeParts (pathParts (← path.asTextReceiver))
  (← (← root.entry a).entry b).entry c

def Value.attributeAt (root path attributeName : Value) : Outcome Value := do
  let target ← root.atPath path
  if ← attributeName.isIn target then target.item attributeName else return .null

end TraceArtifacts
