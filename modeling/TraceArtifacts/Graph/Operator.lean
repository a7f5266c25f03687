import TraceArtifacts.Naming
import TraceArtifacts.Place

/-!
# Operators, ports and connections

A dataflow graph has operators, each with a component that carries it out, and connections from a port of one to a port of another.
-/

namespace TraceArtifacts.Graph

def port (name : Value) (kind : Value := .null) : Value :=
  .object [("name", name), ("type", if kind.isTruthy then kind else .text "string")]

def processName (identifier : Value) : Outcome String := do
  return titleText (← plainValue identifier)

structure Operator where
  process : String
  component : Value
  label : Value
  config : Value := .object []
  inPorts : Value := .null
  outPorts : Value := .null
  extensible : Bool := false
deriving Inhabited

def entryIfTrue (key : String) (v : Value) : Fields := if v.isTruthy then [(key, v)] else []

def Operator.toValue (o : Operator) : Value :=
  .object [("component", o.component), ("metadata", .object
    ([("label", o.label), ("config", o.config)] ++ entryIfTrue "extensible" (.bool o.extensible) ++
      entryIfTrue "additionalinports" o.inPorts ++ entryIfTrue "additionaloutports" o.outPorts))]

def Operator.toEntry (o : Operator) : Value := .object [(o.process, o.toValue)]

def makeOperator (component identifier label script inPorts outPorts extensible : Value) :
    Change Operator := do
  let process ← processName identifier
  let given ← get
  let config := if given.isTruthy then given else .object []
  let config ← if script.isTruthy then config.setEntry "script" script else pure config
  if given.isTruthy then set config
  return { process, component, label, config, inPorts, outPorts, extensible := extensible.isTruthy }

structure Connection where
  sourcePort : Value
  source : String
  targetPort : Value
  target : String
deriving Inhabited

def Connection.toValue (c : Connection) : Value :=
  .object [("metadata", .object []),
    ("src", .object [("port", c.sourcePort), ("process", .text c.source)]),
    ("tgt", .object [("port", c.targetPort), ("process", .text c.target)])]

def connect (source sourcePort target targetPort : Value) : Outcome Connection := do
  let source ← processName source
  let target ← processName target
  return { sourcePort, source, targetPort, target }

def operatorFor (component : String) (identifier label : Value) (config : Fields := []) :
    Outcome Operator := do
  return { process := ← processName identifier, component := .text component, label,
           config := .object config }

def scriptOperator (component : String) (identifier label : Value) (script : String)
    (inPorts outPorts : List Value) : Outcome Operator := do
  let operator ← operatorFor component identifier label [("script", .text script)]
  return { operator with inPorts := .list inPorts, outPorts := .list outPorts }

def pairAt (pair : Value) (position : Nat) : Outcome (String × Value) := do
  match ← pair.members with
  | [key, value] => return (← key.asKey, value)
  | parts => throw (.refused ("dictionary update sequence element #" ++ toString position ++
      " has length " ++ toString parts.length ++ "; 2 is required"))

def addedEntries (v : Value) : Outcome Fields :=
  match v with
  | .object fs => .ok fs
  | v => do (← v.numbered).mapM fun (pair, i) => pairAt pair i

def graphValue (operators connections : Value) : Outcome Value := do
  let entries ← (← operators.members).mapM addedEntries
  return .object [("description", .text ""), ("processes", .object (Fields.ofPairs entries.flatten)),
    ("groups", .list []), ("connections", connections), ("inports", .object []),
    ("outports", .object []), ("properties", .object [])]

namespace Component

def script : String := "contrib.hanaml.python_api"
def modelProducer : String := "com.sap.ml.artifact.producer"
def modelConsumer : String := "com.sap.ml.artifact.consumer"
def metrics : String := "com.sap.ml.submitMetrics"
def toBlob : String := "com.sap.util.toBlobConverter"
def toText : String := "com.sap.util.toStringConverter"
def toMessage : String := "com.sap.util.toMessageConverter"
def terminator : String := "com.sap.util.graphTerminator"
def server : String := "com.sap.openapi.server"
def interceptor : String := "com.sap.util.responseinterceptor"
def constant : String := "com.sap.util.constantGenerator"

end Component

end TraceArtifacts.Graph
