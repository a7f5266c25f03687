import TraceArtifacts.Container.Remote
import TraceArtifacts.Loading.Share
import TraceArtifacts.Managed

/-!
# Coding

Whoever works with data from outside gives and gets values. What a type is given as and shown as is settled here, once for each
type.
-/

namespace TraceArtifacts

class ToValue (α : Type) where
  toValue : α → Value

export ToValue (toValue)

class OfValue (α : Type) where
  ofValue : Value → Outcome α

export OfValue (ofValue)

structure Receiver where
  text : String

/-! ## Showing -/

instance : ToValue Value := ⟨id⟩
instance : ToValue Unit := ⟨fun _ => .null⟩
instance : ToValue Bool := ⟨.bool⟩
instance : ToValue Int := ⟨.int⟩
instance : ToValue Nat := ⟨fun n => .int n⟩
instance : ToValue Float := ⟨.float⟩
instance : ToValue String := ⟨.text⟩
instance [ToValue α] : ToValue (Option α) := ⟨fun a => (a.map toValue).getD .null⟩
instance [ToValue α] : ToValue (List α) := ⟨fun as => .list (as.map toValue)⟩
instance [ToValue α] [ToValue β] : ToValue (α × β) := ⟨fun p => .list [toValue p.1, toValue p.2]⟩
instance : ToValue Synonym := ⟨Synonym.toValue⟩
instance : ToValue Relation := ⟨Relation.toValue⟩
instance : ToValue Link := ⟨Link.toValue⟩
instance : ToValue Element := ⟨Element.toValue⟩
instance : ToValue Prepared := ⟨fun p =>
  .list [p.functions, p.statements, p.inputTables, p.outputTables, p.outputVars]⟩
instance : ToValue Contribution := ⟨fun c =>
  .list [c.procedure, .list (c.inputs.map InputItem.toValue), .list [c.call.toValue],
    .list (c.outputs.map OutputItem.toValue)]⟩
instance : ToValue Graph.Operator := ⟨Graph.Operator.toEntry⟩
instance : ToValue Graph.Connection := ⟨Graph.Connection.toValue⟩

/-! ## Giving -/

instance : OfValue Value := ⟨.ok⟩
instance : OfValue String := ⟨Value.asText⟩
instance : OfValue Bool := ⟨fun v => .ok v.isTruthy⟩
instance : OfValue Int := ⟨Value.asCount⟩
instance : OfValue Receiver := ⟨fun v => Receiver.mk <$> v.asTextReceiver⟩
instance [OfValue α] : OfValue (Option α) :=
  ⟨fun v => if v.isTruthy then some <$> ofValue v else .ok none⟩
instance [OfValue α] : OfValue (List α) := ⟨fun v => do (← v.members).mapM ofValue⟩
instance : OfValue Loading.Share := ⟨Loading.Share.ofValue⟩

end TraceArtifacts
