import TraceArtifacts.Graph.Script
import TraceArtifacts.Layers

/-!
# Drafting graphs

There is a graph for each group name.
-/

namespace TraceArtifacts.Graph

structure GraphDraft where
  /-- The operator that waits for all others; the outer option says whether it is settled. -/
  finisher : Option (Option String) := none
  operators : List Value := []
  connections : List Value := []
deriving Inhabited

def GraphDraft.toValue (g : GraphDraft) : Value :=
  .object (Fields.optional "terminator_id" (g.finisher.map Value.ofText?) ++
    if g.operators.isEmpty then []
    else [("operators", .list g.operators), ("connections", .list g.connections)])

abbrev GraphDrafts := List (Value × GraphDraft)

namespace GraphDrafts

def find? (graphs : GraphDrafts) (name : Value) : Outcome (Option GraphDraft) := do
  let _ ← name.asKey
  return (List.find? (fun g => g.1.same name) graphs).map (·.2)

def put (name : Value) (g : GraphDraft) : GraphDrafts → GraphDrafts
  | [] => [(name, g)]
  | (n, h) :: rest => if n.same name then (n, g) :: rest else (n, h) :: put name g rest

def toValue (graphs : GraphDrafts) : Value :=
  .object (graphs.map fun (name, g) => (name.keyText?.getD "", g.toValue))

end GraphDrafts

/-- All that drafting works on: the graphs and the layers, and what there is of the element at hand so far. -/
structure DraftState where
  graphs : GraphDrafts := []
  layers : Value := .null
  operators : Value := .list []
  connections : Value := .object []
  statements : List Value := []
  inPorts : List Value := []
  outPorts : List Value := []
  values : List Value := []
deriving Inhabited

abbrev DraftStep := EStateM Fault DraftState

structure GraphOptions where
  serveResults : Bool
  trackModels : Bool
deriving Repr

structure ElementContext where
  settings : Settings
  options : GraphOptions
  element : Value
  identifier : Value
  groups : Value
  schema : Value

def ElementContext.further (c : ElementContext) (suffix : String) : Outcome Value := do
  return .text ((← c.identifier.asText) ++ suffix)

def ElementContext.scores (c : ElementContext) : Outcome Bool := do
  return (← c.element.entry "function").same (.text "Score")

def ElementContext.isKind (c : ElementContext) (item : Value) (kind : TableKind) : Outcome Bool := do
  c.settings.isKind (← item.entry "cat") kind

def ElementContext.modelName (c : ElementContext) : Outcome String := do
  return "com.sap.hanaml." ++ (← c.settings.text Setting.projectName) ++ "_mdl"

def addOperators (os : List Operator) : DraftStep Unit := do
  let s ← get
  set { s with operators := ← s.operators.append (os.map Operator.toEntry) }

def addUnder (name added : Value) : Change Unit := do
  if !(← name.isIn (← get)) then Change.apply (·.setItem name (.list []))
  let old ← (← get).item name
  let new ← old.append (match added with
    | .list cs => cs
    | v => [v])
  Change.apply (·.setItem name new)

def addUnderAll (groups added : Value) : Change Unit := do
  (← groups.members).forM fun g => do addUnder (← g.entry "identifier") added

def onConnections (change : Change Unit) : DraftStep Unit := do
  let s ← get
  match change s.connections with
  | .ok _ connections => set { s with connections }
  | .error e connections => do
      set { s with connections }
      throw e

def addConnection (groups : Value) (k : Connection) : DraftStep Unit :=
  onConnections (addUnderAll groups k.toValue)

def addStatement (statement : Value) : DraftStep Unit :=
  modify fun s => { s with statements := s.statements ++ [statement] }

def modelConsumer (modelName identifier label : Value) :
    Outcome (List Operator × List Connection) := do
  let content := "$\x7bARTIFACT:MODEL:" ++ (← modelName.asText) ++ "\x7d"
  let constant := .text ("const_" ++ (← identifier.asText))
  let generator ← operatorFor Component.constant constant
    (.text ("Constant " ++ (← label.asText))) [("content", .text content)]
  let consumer ← operatorFor Component.modelConsumer identifier label
  let link ← connect constant (.text "out") identifier (.text "inArtifactID")
  return ([generator, consumer], [link])

def modelProducer (modelName identifier label : Value) : Outcome (List Operator) := do
  return [← operatorFor Component.modelProducer identifier label
    [("artifactKind", .text "model"), ("artifactName", modelName)]]

def modelOperators (modelName component identifier label : Value) :
    Outcome (List Operator × List Connection) := do
  if component.same (.text Component.modelConsumer) then modelConsumer modelName identifier label
  else if component.same (.text Component.modelProducer) then
    return (← modelProducer modelName identifier label, [])
  else return ([], [])

def fetchModel (c : ElementContext) (item : Value) : DraftStep Unit := do
  let consumer ← c.further "_mdlcons"
  let modelName ← c.modelName
  let converter ← c.further "_strconv"
  let (operators, links) ← modelConsumer (.text modelName) consumer (.text "Model Consumer")
  let operator ← operatorFor Component.toText converter (.text "To String")
  onConnections (addUnderAll c.groups (.list (links.map Connection.toValue)))
  addConnection c.groups (← connect consumer (.text "outArtifact") converter (.text "ininterface"))
  let interface ← item.entry "interface_name"
  addConnection c.groups (← connect converter (.text "outstring") c.identifier interface)
  addOperators (operators ++ [operator])

def draftInput (c : ElementContext) (item : Value) : DraftStep Unit := do
  if (← item.entry "hasrel").isTruthy then
    let name ← item.entry "interface_name"
    modify fun s => { s with inPorts := s.inPorts ++ [port name] }
    addStatement (← item.entry "sql")
  else addStatement (.text (← statementText item))
  if c.options.trackModels then
    if ← c.isKind item .model then
      if !(← c.scores) then fetchModel c item

def draftBody (c : ElementContext) (item : Value) : DraftStep Unit := do
  let name ← (← item.entry "sql_vars").item (.int 0)
  let schema ← c.schema.asText
  let procedure := schema ++ ".\"" ++ upperText (← name.asTextReceiver) ++ "\""
  addStatement (.text (← fillWith (← item.entry "sql") (.ok (.list [.text procedure]))))

def finishOperator (identifier label : Value) : Outcome Operator := do
  let inPorts := [port (.text "metrics") (.text "message"), port (.text "artifact")]
  let outPort := port (.text "output") (.text "message")
  let script ← finishScript (.list inPorts) outPort
  scriptOperator Component.script identifier label script inPorts [outPort]

def finishOperators (finisher terminator : Value) : Outcome (List Operator) := do
  return [← finishOperator finisher (.text "Finalize"),
    ← operatorFor Component.terminator terminator (.text "Graph Terminator")]

def finisherOf (graphs : GraphDrafts) (name : Value) : Outcome (Option String) := do
  return (← graphs.find? name).bind fun g => g.finisher.getD none

/-- Settles the operator that waits for all others in a graph that has none. A graph that already has
operators keeps having none. -/
def settleFinisher (c : ElementContext) (name : Value) : DraftStep (Option String) := do
  let graph := (← (← get).graphs.find? name).getD {}
  modify fun s => { s with graphs := s.graphs.put name graph }
  match graph.finisher with
  | some f => return f
  | none => do
      let finisher := (← c.identifier.asText) ++ "_pyfin"
      let terminator ← c.further "_terminator"
      let operators ← finishOperators (.text finisher) terminator
      addConnection c.groups (← connect (.text finisher) (.text "output") terminator (.text "stop"))
      addOperators operators
      modify fun s => { s with
        graphs := s.graphs.put name { graph with finisher := some (some finisher) } }
      return some finisher

def connectFinisher (c : ElementContext) (source sourcePort targetPort : Value) :
    DraftStep Unit := do
  (← c.groups.members).forM fun g => do
    let name ← g.entry "identifier"
    let finisher ← settleFinisher c name
    let link ← connect source sourcePort (.ofText? finisher) targetPort
    onConnections (addUnder name link.toValue)

def resultPath (settings : Settings) (category : Value) : Outcome String := do
  let project ← plainValue (← settings.entry Setting.projectName)
  return "/" ++ lowerText project ++ "-" ++ lowerText (← plainValue category) ++ "/"

def resultOperators (identifier sentPort path : Value) :
    Outcome (List Operator × List Connection) := do
  let name ← identifier.asText
  let client : Value := .text (name ++ "_rescli")
  let server : Value := .text (name ++ "_restapi")
  let interceptor : Value := .text (name ++ "_respint")
  let clientOperator ← scriptOperator Component.script client (.text "Result Client")
    (clientScript "datain" "restrequestin" "restrequestout")
    [port (.text "restrequestin") (.text "message"), port (.text "datain")]
    [port (.text "restrequestout") (.text "message")]
  let serverOperator ← operatorFor Component.server server (.text "Rest API") [("basePath", path)]
  let interceptorOperator ←
    operatorFor Component.interceptor interceptor (.text "Response Interceptor")
  return ([clientOperator, serverOperator, interceptorOperator],
    [← connect identifier sentPort client (.text "datain"),
     ← connect client (.text "restrequestout") interceptor (.text "resp"),
     ← connect interceptor (.text "out") client (.text "restrequestin"),
     ← connect server (.text "out") interceptor (.text "in")])

def serveOutput (c : ElementContext) (item : Value) : DraftStep Unit := do
  if !(← c.isKind item .fitted) then return
  if ← c.scores then return
  let path ← resultPath c.settings (← item.entry "cat")
  let (operators, links) ← resultOperators c.identifier (← item.entry "interface_name")
    (.text (if c.options.trackModels then "$\x7bdeployment\x7d" else path))
  addOperators operators
  onConnections (addUnderAll c.groups (.list (links.map Connection.toValue)))

def storeModel (c : ElementContext) (sentPort : Value) : DraftStep Unit := do
  let blob ← c.further "_blobconv"
  let producer ← c.further "_mdlprod"
  let modelName ← c.modelName
  let message ← c.further "_msgconv"
  let text ← c.further "_strconv"
  let blobOperator ← operatorFor Component.toBlob blob (.text "To Blob")
  let producers ← modelProducer (.text modelName) producer (.text "Model Producer")
  let messageOperator ← operatorFor Component.toMessage message (.text "To Message")
  let textOperator ← operatorFor Component.toText text (.text "To String")
  addConnection c.groups (← connect c.identifier sentPort blob (.text "ininterface"))
  addConnection c.groups (← connect blob (.text "outbytearray") producer (.text "inArtifact"))
  addConnection c.groups (← connect producer (.text "outArtifact") message (.text "inbody"))
  addConnection c.groups (← connect message (.text "out") text (.text "inmessage"))
  connectFinisher c text (.text "outstring") (.text "artifact")
  addOperators (blobOperator :: producers ++ [messageOperator, textOperator])

def submitMetrics (c : ElementContext) (sentPort : Value) : DraftStep Unit := do
  let message ← c.further "_msgconv"
  let metrics ← c.further "_metrics"
  let messageOperator ← operatorFor Component.toMessage message (.text "To Message")
  let metricsOperator ← operatorFor Component.metrics metrics (.text "Submit Metrics")
  addConnection c.groups (← connect c.identifier sentPort message (.text "instring"))
  addConnection c.groups (← connect message (.text "out") metrics (.text "metrics"))
  connectFinisher c metrics (.text "response") (.text "metrics")
  addOperators [messageOperator, metricsOperator]

def draftExtras (c : ElementContext) (sentPort item : Value) : DraftStep Unit := do
  if c.options.serveResults then serveOutput c item
  if c.options.trackModels then
    if ← c.isKind item .model then storeModel c sentPort
    if ← c.isKind item .metric then submitMetrics c sentPort

def addOutPort (name : Value) : DraftStep Unit :=
  modify fun s => { s with outPorts := s.outPorts ++ [port name] }

def addPortValue (c : ElementContext) (name item : Value) : DraftStep Unit := do
  let value ← portValue name c.schema (← item.entry "dbobject_name")
  modify fun s => { s with values := s.values ++ [value] }

def outputLinks (item : Value) : Outcome (List Value) := do
  if !(← item.entryOr "hasrel" .null).isTruthy then return []
  let links ← item.entryOr "relobject" .null
  if links.isTruthy then links.members else return []

def draftLink (c : ElementContext) (item link : Value) (name : String) : DraftStep Unit := do
  addOutPort (.text name)
  addPortValue c (.text name) item
  let groups ← link.entry "groups"
  let target ← link.entry "cons_name"
  let targetPort ← link.entry "interface_name"
  addConnection groups (← connect c.identifier (.text name) target targetPort)

/-- Puts the table of an output into the schema, for this run and all that follow, and drafts the statement that keeps
it. -/
def keepTable (c : ElementContext) (place : Place) (item : Value) : DraftStep Unit := do
  let schema ← c.schema.asText
  let vars ← item.entry "sql_vars"
  let table := Value.text (schema ++ "." ++ (← (← vars.item (.int 0)).asText))
  let keep (vars : Value) : DraftStep Unit := modify fun s => { s with
    layers := s.layers.putAt (place ++ [.key "sql_vars"]) vars }
  let vars ← vars.setItem (.int 0) table
  keep vars
  let vars ← vars.setItem (.int 1) table
  keep vars
  addStatement (.text (← fillWith (← item.entry "sql") (.ok vars)))

def freePort (name : Value) (links : List Value) : Outcome Value :=
  if links.isEmpty then .ok name else do return .text ((← name.asText) ++ toString links.length)

def draftFreePort (c : ElementContext) (place : Place) (item sentPort : Value) : DraftStep Unit := do
  addOutPort sentPort
  if ← item.has "dbobject_name" then addPortValue c sentPort item
  draftExtras c sentPort item
  if ← item.has "sql_vars" then keepTable c place item

def draftOutput (c : ElementContext) (place : Place) (item : Value) : DraftStep Unit := do
  let name ← item.entry "interface_name"
  let links ← outputLinks item
  links.zipIdx.forM fun (link, i) => do draftLink c item link ((← name.asText) ++ toString i)
  draftFreePort c place item (← freePort name links)

def joinGraph (group : Value) : DraftStep Unit := do
  let name ← group.entry "identifier"
  let s ← get
  let g := (← s.graphs.find? name).getD {}
  let added ← if ← name.isIn s.connections then s.connections.item name else pure (.list [])
  let graph : GraphDraft := {
    finisher := some (g.finisher.getD none)
    operators := g.operators ++ s.operators.toList
    connections := g.connections ++ added.toList }
  set { s with graphs := s.graphs.put name graph }

def draftParts (c : ElementContext) (place : Place) (p : Parts) : DraftStep Unit := do
  (← p.inputs.members).forM (draftInput c)
  (← p.body.members).forM (draftBody c)
  (← p.outputs.numbered).forM fun (item, i) => draftOutput c (place ++ [.position i]) item

def draftOperator (c : ElementContext) (label : Value) : DraftStep Unit := do
  let s ← get
  let script ← elementScript c.settings (.list s.statements) (.list s.inPorts) (.list s.values)
  addOperators [← scriptOperator Component.script c.identifier label script s.inPorts s.outPorts]

/-- Drafts an element, which is at a position of its layer, and adds it to the graphs of its groups. -/
def draftElement (settings : Settings) (options : GraphOptions) (position : Nat) (element : Value) :
    DraftStep Unit := do
  modify fun s => { graphs := s.graphs, layers := s.layers }
  let groups ← shownGroupsOf element
  let identifier ← element.entry "name"
  let label ← element.entry "display_name_short"
  let p ← Parts.of (← element.entry "sql")
  let schema ← settings.entry Setting.schema
  let c : ElementContext := { settings, options, element, identifier, groups, schema }
  draftParts c [.key consumptionKey, .position position, .key "sql", .key "output"] p
  draftOperator c label
  (← groups.members).forM joinGraph

def draftAll (settings : Settings) (options : GraphOptions) : DraftStep Unit := do
  let elements ← (← (← get).layers.entry consumptionKey).numbered
  modify fun s => { s with graphs := [] }
  elements.forM fun (element, i) => do
    if element.isRecord then
      if ← element.has "sql" then draftElement settings options i element

end TraceArtifacts.Graph
