import TraceArtifacts.DataTable
import TraceArtifacts.Text.Spelling

/-!
# Serving a model

A model is kept by its address, its data stays in the database: a request names the table to predict for.
-/

namespace TraceArtifacts.ModelService

inductive Event where
  | span (name : String)
  | connect (arguments : List Value)
  | loadModel (address : Value)
  | table (name : String)
deriving Inhabited

structure Outside where
  environment : List (String × String) := []
  connectError : Option String := none
  /-- Whether the connection stands, each time it is asked; the last answer stays. -/
  connected : List Value := []
  count : Value := .int 1
  loadError : Option String := none
  prediction : Value := .list []
deriving Inhabited

structure Service where
  outside : Outside := {}
  model : Option Value := none
  hasConnection : Bool := false
  events : List Event := []
  printed : String := ""
deriving Inhabited

abbrev Step := EStateM Fault Service

namespace Step

def emit (e : Event) : Step Unit := modify fun s => { s with events := s.events ++ [e] }

def print (line : String) : Step Unit :=
  modify fun s => { s with printed := s.printed ++ line ++ "\n" }

end Step

inductive Context where
  | holding (artifacts : Value)
  | bare
  | other (v : Value)
deriving Inhabited

def kindWord : Value → String
  | .null => "NoneType"
  | .bool _ => "bool"
  | .int _ => "int"
  | .float _ => "float"
  | .text _ => "str"
  | .list _ => "list"
  | .object _ => "dict"

def causeText : Fault → String
  | .missingKey key => (Value.text key).spelled
  | .told text => text
  | f => f.message.getD ""

def entryOf (v : Value) (key : String) : Outcome Value :=
  match v with
  | .object _ => v.entry key
  | .list _ => .error (.told "list indices must be integers or slices, not str")
  | .text _ => .error (.told "string indices must be integers, not 'str'")
  | v => .error (.told ("'" ++ kindWord v ++ "' object is not subscriptable"))

/-- The first member of a value, or a report of why there is none. -/
def firstOf : Value → Outcome Value
  | .list [] => .error (.told "list index out of range")
  | .list (v :: _) => .ok v
  | .text s =>
      match s.toList with
      | [] => .error (.told "string index out of range")
      | c :: _ => .ok (.text c.toString)
  | .object _ => .error (.told "0")
  | v => .error (.told ("'" ++ kindWord v ++ "' object is not subscriptable"))

def occurred (text : String) : String := "Exception occurred: " ++ text

def named (s : Service) (key : String) : Value := .ofText? (s.outside.environment.lookup key)

def connect : Step Unit := do
  let s ← get
  Step.emit (.connect (["hana_url", "hana_port", "hana_user", "hana_password"].map (named s)))
  match s.outside.connectError with
  | none => pure ()
  | some text => do
      Step.print (occurred text)
      throw (.told text)

def askConnected : Step Value := do
  let s ← get
  match s.outside.connected with
  | [] => return .bool true
  | [b] => return b
  | b :: rest => do
      set { s with outside := { s.outside with connected := rest } }
      return b

def modelAddress : Context → Outcome Value
  | .holding artifacts => entryOf artifacts "model"
  | .bare => .error (.told "'types.SimpleNamespace' object has no attribute 'artifacts'")
  | .other v => .error (.told ("'" ++ kindWord v ++ "' object has no attribute 'artifacts'"))

def load (c : Context) : Step Unit := do
  try
    Step.emit (.span "load_context")
    let model ← modelAddress c
    modify fun s => { s with model := some model }
    connect
    modify fun s => { s with hasConnection := true }
    Step.print "HANA_ML_MODEL loaded in load_context"
  catch f =>
    Step.print (occurred (causeText f))
    throw (.told ("Loading the context failed due to " ++ causeText f))

def lacks (name : String) : Fault :=
  .told ("'hana_ml_pyfunc_model' object has no attribute '" ++ name ++ "'")

def reconnect : Step Unit := do
  if !(← get).hasConnection then throw (lacks "connection_context")
  if (← askConnected).same (.bool false) then
    Step.emit (.span "connect_to_HANA")
    connect
    if (← askConnected).isTruthy then Step.print "HANA Connection Successful"
    else throw (.told "HANA Connection Failed")

def loadModel : Step Unit := do
  Step.emit (.span "load_model")
  let s ← get
  match s.model with
  | none => throw (lacks "model")
  | some address => do
      Step.emit (.loadModel address)
      match s.outside.loadError with
      | some text => throw (.told text)
      | none => Step.print "HANA_ML_MODEL loaded in predict"

def tableName (request : Value) : Outcome String := do
  return (← firstOf (← entryOf request "INFERENCE_TABLE_NAME")).display

def isSome (count : Value) : Outcome Bool :=
  match count.number? with
  | some (.inl i) => .ok (0 < i)
  | some (.inr x) => .ok (x > 0.0)
  | none => .error (.told ("'>' not supported between instances of '" ++ kindWord count ++ "' and 'int'"))

/-- Predicts for the table that a request names. Whatever goes wrong is printed, and then only that it went wrong is
told. -/
def predict (request : Value) : Step Value := do
  try
    reconnect
    loadModel
    Step.print ("model_input " ++ request.display)
    let table ← tableName request
    Step.print ("Table Name: " ++ table)
    Step.emit (.span "hana_ml_predict")
    Step.emit (.table table)
    let o := (← get).outside
    if ← isSome o.count then
      Step.print ("Running HANA ML inference on " ++ table ++ " with " ++ o.count.display ++
        " records")
      let prediction ← DataTable.ofColumns o.prediction
      Step.print "Prediction completed"
      return prediction.toCounted
    else throw (.told ("HANA Inference Table " ++ table ++ " is empty"))
  catch f =>
    Step.print (occurred (causeText f))
    throw .badOperand

end TraceArtifacts.ModelService
