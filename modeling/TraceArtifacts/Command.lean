import TraceArtifacts.Coding
import TraceArtifacts.Json.Reader

/-!
# Commands

A command is an operation that is asked for by its name, with values for its arguments.
-/

namespace TraceArtifacts

abbrev Given := Nat → Value

/-- What an operation takes, off its arguments or off the state. -/
class Argument (σ α : Type) where
  width : Nat
  take : Given → Nat → EStateM Fault σ α

class Part (σ τ : Type) where
  enter : σ → τ
  leave : τ → σ → σ

class Operation (σ α : Type) where
  perform : α → Given → Nat → EStateM Fault σ Value

def within [Part σ τ] (step : EStateM Fault τ α) : EStateM Fault σ α := fun s =>
  match step (Part.enter s) with
  | .ok a t => .ok a (Part.leave t s)
  | .error e t => .error e (Part.leave t s)

instance : Part σ σ := ⟨id, fun t _ => t⟩

instance (priority := low) [OfValue α] : Argument σ α := ⟨1, fun x i => ofValue (x i)⟩

instance [Argument σ α] [Operation σ β] : Operation σ (α → β) :=
  ⟨fun f x i => do
    Operation.perform (f (← Argument.take x i)) x (i + Argument.width σ α)⟩

instance [Part σ τ] [ToValue α] : Operation σ (EStateM Fault τ α) :=
  ⟨fun step _ _ => do return toValue (← within step)⟩

instance [ToValue α] : Operation σ (Outcome α) := ⟨fun r _ _ => do return toValue (← r)⟩

instance (priority := low) [ToValue α] : Operation σ α := ⟨fun a _ _ => return toValue a⟩

structure Command (σ : Type) where
  signature : String
  perform : Given → EStateM Fault σ Value

def Command.of [Operation σ α] (signature : String) (operation : α) : Command σ :=
  ⟨signature, fun x => Operation.perform operation x 0⟩

structure Arguments where
  positional : List Value := []
  named : Fields := []

structure Parameter where
  name : String
  /-- What it is if it is not given, unless it must be given. -/
  default : Option Value

def Parameter.ofWord (word : String) : Parameter :=
  let name := word.toList.takeWhile (· != '=')
  { name := String.ofList name
    default := if name.length = word.length then none
      else Json.parse? (String.ofList (word.toList.drop (name.length + 1))) }

def Command.words (c : Command σ) : List String := (cutText ' ' c.signature).drop 1

def Command.parameters (c : Command σ) : List Parameter :=
  (c.words.filter (· != "*")).map Parameter.ofWord

def Arguments.named? (a : Arguments) (p : Parameter) : Outcome Value :=
  match Fields.get? a.named p.name, p.default with
  | some v, _ => .ok v
  | none, some v => .ok v
  | none, none => .error .badOperand

def Command.bind (c : Command σ) (a : Arguments) : Outcome (List Value) := do
  let ps := c.parameters
  let rest := ps.drop a.positional.length
  if ps.length < a.positional.length then throw .badOperand
  if !c.words.contains "*" && a.named.any (fun f => !rest.any (·.name == f.1)) then
    throw .badOperand
  return a.positional ++ (← rest.mapM a.named?)

def findCommand (cs : List (Command σ)) (name : String) : Outcome (Command σ) :=
  match cs.find? fun c => (cutText ' ' c.signature).head? == some name with
  | some c => .ok c
  | none => .error .badReceiver

def Command.run (c : Command σ) (values : List Value) : EStateM Fault σ Value :=
  c.perform fun i => (values[i]?).getD .null

end TraceArtifacts
