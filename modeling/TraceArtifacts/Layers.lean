import TraceArtifacts.BaseLayer
import TraceArtifacts.Lookup
import TraceArtifacts.Text.Template

/-!
# Layers

Processing a trace fills two layers. The base layer holds a procedure for each traced function; relations say which output of one is
read by another.
-/

namespace TraceArtifacts

def relationsKey : String := "relations"

def consumptionKey : String := "consumption_layer"

def basePath (algo function : Value) : Outcome String := do
  return joinPath [baseKey, ← algo.asText, ← function.asText]

/-- Where a procedure is kept: its layer, algorithm and function. -/
structure Address where
  layer : String := baseKey
  algo : Value
  function : Value

namespace Address

def place (a : Address) : Place :=
  [.key a.layer, .key (a.algo.keyText?.getD ""), .key (a.function.keyText?.getD "")]

def object (a : Address) (layers : Value) : Outcome Value := do
  (← (← layers.entry a.layer).item a.algo).item a.function

def put (a : Address) (object layers : Value) : Value := layers.putAt a.place object

def ofPath (path : Value) : Outcome Address := do
  let (layer, algo, function) ← threeParts (pathParts (← path.asTextReceiver))
  return { layer, algo := .text algo, function := .text function }

end Address

def baseObject (layers algo function : Value) : Outcome Value :=
  Address.object { algo, function } layers

def forEachFunction [Monad m] [MonadLiftT Outcome m] (base : Value) (step : Value → Value → m Unit) :
    m Unit := do
  (← liftM base.members).forM fun algo => do
    let functions ← liftM (base.item algo)
    (← liftM functions.members).forM fun function => step algo function

def gatherFunctions (base : Value) (ask : Value → Value → Value → Outcome (List α)) :
    Outcome (List α) := do
  let found ← (← base.members).mapM fun algo => do
    let functions ← base.item algo
    (← functions.members).mapM fun function => do
      ask algo function (← functions.item function)
  return (found.map List.flatten).flatten

inductive Direction where
  | incoming
  | outgoing
deriving Repr, DecidableEq, Inhabited

namespace Direction

def mark : Direction → String
  | incoming => "in"
  | outgoing => "out"

def near : Direction → String
  | incoming => "to"
  | outgoing => "from"

def far : Direction → String
  | incoming => "from"
  | outgoing => "to"

end Direction

structure Relation where
  fromPath : String
  fromTable : Value
  fromMetadata : Value
  toPath : String
  toTable : Value
  toMetadata : Value
deriving Inhabited

def Relation.toValue (r : Relation) : Value :=
  .object [("from_path", .text r.fromPath), ("from_object", r.fromTable),
    ("from_metadata", r.fromMetadata), ("to_path", .text r.toPath), ("to_object", r.toTable),
    ("to_metadata", r.toMetadata)]

structure Link where
  path : Value
  groups : Value
  direction : Direction
  name : Value
  elementName : Option String
  interfaceName : Value
  dbObjectName : Value
deriving Inhabited

def Link.toValue (k : Link) : Value :=
  .object ([("path", k.path), ("groups", k.groups), ("direction", .text k.direction.mark),
    ("name", k.name)] ++ Fields.optional "cons_name" (k.elementName.map .text) ++
    [("interface_name", k.interfaceName), ("dbobject_name", k.dbObjectName)])

structure InputItem where
  category : Value
  name : String
  tableType : Value
  structureType : String
  /-- The output that it reads, if it is related to one. -/
  link : Option Link
  source : Value
  synonym : Option String
deriving Inhabited

def inputTemplate (name : String) : String := name ++ " = select * from \x7b\x7d;"

def InputItem.toValue (i : InputItem) : Value :=
  .object [("cat", i.category), ("name", .text i.name), ("interface_name", .text i.name),
    ("table_type", i.tableType), ("abap_type", .text i.structureType),
    ("hasrel", .bool i.link.isSome),
    ("relobject", match i.link with
      | some k => k.toValue
      | none => .null),
    ("sql", .text (inputTemplate i.name)), ("sql_vars", .list [i.source]),
    ("sql_vars_syn", match i.synonym with
      | some y => .list [.text y]
      | none => .null)]

structure CallItem where
  name : Value
  sql : String
deriving Inhabited

def CallItem.toValue (c : CallItem) : Value :=
  .object [("name", c.name), ("sql", .text c.sql), ("sql_vars", .list [c.name])]

inductive BodyItem where
  | call (item : CallItem)
  | input (item : InputItem)
deriving Inhabited

def BodyItem.toValue : BodyItem → Value
  | .call c => c.toValue
  | .input i => i.toValue

structure OutputTable where
  category : Value
  name : Value
  dbObjectName : Value
  dbSchema : Value
  objectName : Value
  tableType : Value
  entityType : Option String
  structureType : String
  links : List Link
deriving Inhabited

def outputTemplate : String := "TRUNCATE TABLE \x7b\x7d; \nINSERT INTO \x7b\x7d SELECT * FROM :\x7b\x7d;"

def OutputTable.toValue (t : OutputTable) : Value :=
  .object [("cat", t.category), ("name", t.name), ("interface_name", t.name),
    ("dbobject_name", t.dbObjectName), ("dbobject_name_schema", t.dbSchema),
    ("object_name", t.objectName), ("table_type", t.tableType),
    ("cds_type", .ofText? t.entityType), ("abap_type", .text t.structureType),
    ("hasrel", .bool !t.links.isEmpty),
    ("relobject", if t.links.isEmpty then .null else .list (t.links.map Link.toValue)),
    ("sql", .text outputTemplate), ("sql_vars", .list [t.dbObjectName, t.dbObjectName, t.name])]

structure OutputVariable where
  category : Value
  name : Value
  dataType : Value
deriving Inhabited

def OutputVariable.toValue (v : OutputVariable) : Value :=
  .object [("cat", v.category), ("name", v.name), ("interface_name", v.name),
    ("table_type", v.dataType)]

inductive OutputItem where
  | table (item : OutputTable)
  | var (item : OutputVariable)
deriving Inhabited

namespace OutputItem

def name : OutputItem → Value
  | .table t => t.name
  | .var v => v.name

def toValue : OutputItem → Value
  | .table t => t.toValue
  | .var v => v.toValue

end OutputItem

/-- An element of the consumption layer. Merged elements have neither display names nor an algorithm
and function that they show. -/
structure Element where
  name : String
  origin : String × String
  single : Bool
  inputs : List InputItem
  body : List BodyItem
  outputs : List OutputItem
  groups : Value
deriving Inhabited

def titleFields (algo function : String) : Fields :=
  [("display_name_long", .text (titleText algo ++ " ( " ++ titleText function ++ " )")),
   ("display_name_short", .text (titleText function)), ("algo", .text algo),
   ("function", .text function)]

def shownGroupsOf (object : Value) : Outcome Value := do
  let groups ← object.entryOr "groups" .null
  return if groups.isTruthy then groups else .list []

def statementText (item : Value) : Outcome String := do
  fillWith (← item.entry "sql") (item.entry "sql_vars")

def synonymStatementText (item : Value) : Outcome String := do
  if (← item.entryOr "sql_vars_syn" .null).isTruthy then
    fillWith (← item.entry "sql") (item.entry "sql_vars_syn")
  else statementText item

structure Parts where
  inputs : Value
  body : Value
  outputs : Value

def Parts.of (statements : Value) : Outcome Parts := do
  let inputs ← statements.entryOr "input" (.list [])
  let body ← statements.entryOr "body" (.list [])
  let outputs ← statements.entryOr "output" (.list [])
  return { inputs, body, outputs }

def Element.toValue (e : Element) : Value :=
  .object ([("name", .text e.name)] ++
    (if e.single then titleFields e.origin.1 e.origin.2 else []) ++
    [("sql", .object [("input", .list (e.inputs.map InputItem.toValue)),
      ("body", .list (e.body.map BodyItem.toValue)),
      ("output", .list (e.outputs.map OutputItem.toValue))]), ("groups", e.groups)])

end TraceArtifacts
