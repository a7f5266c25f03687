import TraceArtifacts.DataType
import TraceArtifacts.Grouping

/-!
# The consumption layer

Each base procedure becomes an element: its inputs are filled from the outputs they are related to, or from their data sets; it is
called; and its outputs are kept in tables.
-/

namespace TraceArtifacts

def mergePartitions : Int := 2

def storedLink : String := "dbobject_name"

def passedLink : String := "interface_name"

structure PartState where
  settings : Settings
  object : Value

abbrev PartStep := EStateM Fault PartState

def PartStep.reading (place : Place) (c : Outcome Value → Change α) (key : String) : PartStep α := do
  let s ← get
  match Change.within place (c (s.settings.entry key)) s.object with
  | .ok a object => do
      set { s with object }
      return a
  | .error e object => do
      set { s with object }
      throw e

def noteSource (select : Value) : PartStep Unit := do
  let mapping ← (← get).settings.entry Setting.sourceMapping
  let mapping ← mapping.setItem select select
  modify fun s => { s with settings := s.settings.set Setting.sourceMapping mapping }

/-- The data set that an input reads, with and without its synonym. -/
def sourceNames (t : Value) : Outcome (Value × String × Option String) := do
  let select ← t.entry "select"
  let synonym ← t.entry "synonym"
  let synonymName ← if synonym.isTruthy then do
      pure (some ("\"" ++ (← synonym.asText) ++ "\""))
    else pure none
  let (schema, table) := parseDataset (← select.asTextReceiver)
  match schema with
  | some schema => return (select, "\"" ++ schema ++ "\".\"" ++ table ++ "\"", synonymName)
  | none => throw .badOperand

def linkTarget (linkType : Value) (k : Link) : Outcome Value := do
  let target ← k.toValue.item linkType
  if linkType.same (.text passedLink) then return .text (":" ++ (← target.asText))
  return target

def buildInput (layers algo function linkType t : Value) (position : Nat) : PartStep InputItem := do
  let interface ← t.entry "interface_name"
  let category ← t.entry "cat"
  let tableType ← t.entry "table_type"
  let structureType ← PartStep.reading [.key "input_tables", .position position, .key "table_type"]
    structureColumns Setting.structureTypes
  match ← linksOfTable layers .incoming algo function interface with
  | k :: _ =>
      let source ← linkTarget linkType k
      return { category, name := ← interface.asText, tableType, structureType, link := some k, source,
               synonym := none }
  | [] =>
      let (select, source, synonym) ← sourceNames t
      noteSource select
      return { category, name := ← interface.asText, tableType, structureType, link := none,
               source := .text source, synonym }

def buildOutputTable (layers algo function t : Value) (position : Nat) : PartStep OutputTable := do
  let name ← t.entry "interface_name"
  let dbObjectName ← t.entry "dbobject_name"
  let dbSchema ← t.entry "dbobject_name_schema"
  let objectName ← t.entry "object_name"
  let tableType ← t.entry "table_type"
  let place : Place := [.key "output_tables", .position position, .key "table_type"]
  let entityType ← PartStep.reading place entityColumns Setting.entityTypes
  let structureType ← PartStep.reading place structureColumns Setting.structureTypes
  let category ← t.entry "cat"
  let links ← linksOfTable layers .outgoing algo function name
  return { category, name, dbObjectName, dbSchema, objectName, tableType, entityType, structureType,
           links }

def buildOutputVariable (t : Value) : Outcome OutputVariable := do
  let name ← t.entry "interface_name"
  let dataType ← t.entry "data_type"
  let category ← t.entry "cat"
  return { category, name, dataType }

def callArguments (inputs outputs : List String) : List String :=
  inputs.map (fun n => n ++ " => :" ++ n) ++ outputs.map fun n => n ++ " => " ++ n

def callTemplate (inputs outputs : List String) : String :=
  "CALL \x7b\x7d(" ++ String.intercalate ", " (callArguments inputs outputs) ++ ");"

structure Contribution where
  procedure : Value
  inputs : List InputItem
  call : CallItem
  outputs : List OutputItem
deriving Inhabited

def procedureName (object : Value) : Outcome Value := do
  if !(← object.has "metadata") then return .text ""
  (← object.entry "metadata").entryOr "procedure_name" (.text "")

def contribution (layers algo function linkType : Value) : PartStep Contribution := do
  let object := (← get).object
  let inputs ← (← partsUnder "input_tables" object).zipIdx.mapM fun (t, i) =>
    buildInput layers algo function linkType t i
  let tables ← (← partsUnder "output_tables" object).zipIdx.mapM fun (t, i) =>
    buildOutputTable layers algo function t i
  let vars ← (← partsUnder "output_vars" object).mapM fun v => liftM (buildOutputVariable v)
  let outputs := tables.map OutputItem.table ++ vars.map OutputItem.var
  let names ← (outputs.mapM fun o => o.name.asText : Outcome _)
  let procedure ← procedureName object
  return { procedure, inputs, outputs
           call := { name := procedure, sql := callTemplate (inputs.map InputItem.name) names } }

structure BuildState where
  settings : Settings
  layers : Value

abbrev BuildStep := EStateM Fault BuildState

def contributionOf (a : Address) (linkType : Value) : BuildStep Contribution := do
  let s ← get
  let object ← a.object s.layers
  let keep (p : PartState) : BuildState :=
    { settings := p.settings, layers := a.put p.object s.layers }
  match contribution s.layers a.algo a.function linkType { settings := s.settings, object } with
  | .ok c p => do
      set (keep p)
      return c
  | .error e p => do
      set (keep p)
      throw e

def markMerged (a : Address) : BuildStep Unit := do
  let object ← (← a.object (← get).layers).setEntry "cons_processed" (.bool true)
  modify fun s => { s with layers := a.put object s.layers }

def singleElement (algo function groups : Value) (c : Contribution) : Outcome Element := do
  let procedure ← c.procedure.asText
  let algo ← algo.asTextReceiver
  let function ← function.asTextReceiver
  return { name := "cons_" ++ procedure, origin := (algo, function), single := true
           inputs := c.inputs, body := [.call c.call], outputs := c.outputs, groups }

def mergedElement (algo function groups : Value) (partition child : Contribution) :
    Outcome Element := do
  let childName ← child.procedure.asText
  let name ← partition.procedure.asText
  return { name := "cons_" ++ name ++ "_" ++ childName
           origin := (← algo.asText, ← function.asText), single := false
           inputs := partition.inputs
           body := .call partition.call :: child.inputs.map .input ++ [.call child.call]
           outputs := child.outputs, groups }

def mergeChild (algo function groups : Value) (partition : Contribution) (k : Link) :
    BuildStep Element := do
  let a ← Address.ofPath k.path
  let c ← contributionOf a (.text passedLink)
  let e ← mergedElement algo function groups partition c
  markMerged a
  return e

def anyPartition : List Link → Outcome Bool
  | [] => .ok false
  | k :: ks => do
      if ← k.name.has "partition" then return true
      anyPartition ks

def aloneElements (algo function groups : Value) (c : Contribution) : BuildStep (List Element) := do
  let e ← singleElement algo function groups c
  markMerged { algo, function }
  return [e]

def partitionElements (algo function groups : Value) (c : Contribution) (children : List Link) :
    BuildStep (List Element) := do
  let elements ← children.mapM (mergeChild algo function groups c)
  markMerged { algo, function }
  return elements

/-- The elements of a base procedure if partitions are merged: none if it waits for a partition to take it in. -/
def mergedElements (layers algo function groups : Value) (c : Contribution) :
    BuildStep (List Element) := do
  let parents ← links layers .incoming algo function
  if containsText (lowerText (← c.procedure.asTextReceiver)) "partition" then
    let children ← links layers .outgoing algo function
    if children.isEmpty then aloneElements algo function groups c
    else partitionElements algo function groups c children
  else if ← anyPartition parents then return []
  else aloneElements algo function groups c

/-- The elements of a base procedure: none if it has been taken into an element before. -/
def buildElements (algo function linkType : Value) : BuildStep (List Element) := do
  let s ← get
  let object ← baseObject s.layers algo function
  let groups ← shownGroupsOf object
  let strategy ← s.settings.entry Setting.mergeStrategy
  if (← object.entryOr "cons_processed" .null).isTruthy then return []
  let c ← contributionOf { algo, function } linkType
  if strategy.same (.int mergePartitions) then mergedElements s.layers algo function groups c
  else aloneElements algo function groups c

def buildConsumption : BuildStep (List Element) := do
  let base ← (← get).layers.entry baseKey
  let elements ← (← base.members).mapM fun algo => do
    let functions ← base.item algo
    (← functions.members).mapM fun function => buildElements algo function (.text storedLink)
  return (elements.map List.flatten).flatten

end TraceArtifacts
