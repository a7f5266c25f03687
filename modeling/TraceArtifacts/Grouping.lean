import TraceArtifacts.Relations

/-!
# Groups

Procedures whose functions fit or predict start a group of their own.
-/

namespace TraceArtifacts

def functionalGrouping : Int := 12

def commonGroup : String := "all_merged"

inductive GroupKind where
  | fit
  | predict
  | fitPredict
  | unknown
deriving Repr, DecidableEq

def GroupKind.mark : GroupKind → String
  | fit => "fit"
  | predict => "predict"
  | fitPredict => "fit_predict"
  | unknown => "unknown"

def GroupKind.ofFunction? (function : String) : Option GroupKind :=
  let name := lowerText function
  match containsText name "fit", containsText name "predict" with
  | true, true => some .fitPredict
  | true, false => some .fit
  | false, true => some .predict
  | false, false => none

structure Group where
  kind : Value
  identifier : Value
  uid : Value
deriving Inhabited

def Group.toValue (g : Group) : Value :=
  .object [("type", g.kind), ("identifier", g.identifier), ("uid", g.uid)]

def joins (object kind : Value) : Outcome Bool := do
  let other (word : String) : Outcome Bool := do
    let category ← (← object.entry "metadata").entry "algo_function_cat"
    return lowerText (← category.asTextReceiver) ≠ word
  if kind.same (.text GroupKind.fit.mark) then other GroupKind.predict.mark
  else if kind.same (.text GroupKind.predict.mark) then other GroupKind.fit.mark
  else return false

def isGrouped (object : Value) : Outcome Bool := do
  if ← object.has "groups" then return (← object.entry "groups").isTruthy else return false

def withGroups (object : Value) : Outcome Value := do
  if ← isGrouped object then return object else object.setEntry "groups" (.list [])

def addGroup (g : Group) (object : Value) : Outcome Value := do
  let object ← withGroups object
  object.setEntry "groups" (← (← object.entry "groups").append [g.toValue])

structure GroupState where
  layers : Value
  nextId : Nat

abbrev GroupStep := EStateM Fault GroupState

def GroupStep.fresh : GroupStep String := do
  let s ← get
  set { s with nextId := s.nextId + 1 }
  return identifier s.nextId

def GroupStep.change (a : Address) (f : Value → Outcome Value) : GroupStep Unit := do
  let object ← f (← a.object (← get).layers)
  modify fun s => { s with layers := a.put object s.layers }

def takeIn (g : Group) (a : Address) : GroupStep Unit := do
  let object ← a.object (← get).layers
  if ← joins object g.kind then GroupStep.change a (addGroup g)

def walkChain (d : Direction) (g : Group) : Nat → Value → GroupStep Unit
  | 0, _ => throw .endlessChain
  | fuel + 1, path => do
      let a ← Address.ofPath path
      takeIn g a
      let next ← links (← get).layers d a.algo a.function
      next.forM fun k => walkChain d g fuel k.path

def chainBound (layers : Value) : Nat :=
  ((layers.fieldsAt baseKey).flatMap fun (_, functions) => functions.toFields).length

def walkGroup (g : Group) (algo function : Value) : GroupStep Unit := do
  GroupStep.change { algo, function } (addGroup g)
  let layers := (← get).layers
  let before ← links layers .incoming algo function
  let after ← links layers .outgoing algo function
  before.forM fun k => walkChain .incoming g (chainBound layers) k.path
  after.forM fun k => walkChain .outgoing g (chainBound layers) k.path

/-- Puts a procedure and what its group takes in into the group that it starts, if it starts one. -/
def startGroup (algo function : Value) : GroupStep Unit := do
  GroupStep.change { algo, function } withGroups
  let uid ← GroupStep.fresh
  let algoName ← algo.asText
  let functionName ← function.asText
  match GroupKind.ofFunction? functionName with
  | none => pure ()
  | some kind =>
      walkGroup { kind := .text kind.mark, identifier := .text (algoName ++ "_" ++ functionName),
                  uid := .text uid } algo function

def joinCommonGroup (algo function : Value) : GroupStep Unit := do
  let _ ← baseObject (← get).layers algo function
  let uid ← GroupStep.fresh
  GroupStep.change { algo, function }
    (addGroup { kind := .text GroupKind.unknown.mark, identifier := .text commonGroup, uid := .text uid })

def setGroups (settings : Settings) : GroupStep Unit := do
  let strategy ← settings.entry Setting.groupStrategy
  let base ← (← get).layers.entry baseKey
  if strategy.same (.int functionalGrouping) then forEachFunction base startGroup
  else forEachFunction base joinCommonGroup

end TraceArtifacts
