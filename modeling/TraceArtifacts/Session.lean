import TraceArtifacts.Consumption
import TraceArtifacts.FileTree

/-!
# Sessions

A session holds the settings, the layers among them, the trace, the files and what was reported. A job runs on a session; what it
did before a fault remains done.
-/

namespace TraceArtifacts

structure Session where
  settings : Settings := Settings.builtin
  trace : Value := .null
  tree : FileTree := {}
  cwd : Location := []
  nextId : Nat := 1
  log : List (String × String) := []
  printed : String := ""
  /-- The algorithm and function whose groups each element of the consumption layer shows. -/
  shownGroups : List (String × String) := []
  sharedOutputs : List (String × String) := []
deriving Inhabited

abbrev Job := EStateM Fault Session

/-! ## Lists that stand for table types -/

def withTypeOf (table other : Value) : Value :=
  match other.get "table_type", table.get "table_type" with
  | .list xs, .list _ => table.putAt [.key "table_type"] (.list xs)
  | _, _ => table

def proceduresOf (layers : Value) : List (String × String × Value) :=
  (layers.fieldsAt baseKey).flatMap fun (algo, functions) =>
    functions.toFields.map fun (function, object) => (algo, function, object)

def tracedTypes (layers trace : Value) : Value :=
  (proceduresOf layers).foldl (fun trace (algo, function, object) =>
    ["input_tables", "output_tables"].foldl (fun trace key =>
      trace.modifyAt (fun tables =>
        match tables with
        | .list ts => .list ((ts.zip (object.listAt key)).map (fun (t, o) => withTypeOf t o) ++
            ts.drop (object.listAt key).length)
        | v => v) [.key algo, .key function, .key key]) trace) trace

/-- Layers whose relations show the lists that stand for table types as they are in the base layer. -/
def relatedTypes (layers : Value) : Value :=
  let refresh (path key : String) (r table : Value) : Value :=
    let procedure := (proceduresOf layers).find? fun (algo, function, _) =>
      (r.get path).same (.text (baseKey ++ "/" ++ algo ++ "/" ++ function))
    let other := procedure.bind fun (_, _, object) => (object.listAt key).find? fun o =>
      (o.get "interface_name").same (table.get "interface_name")
    (other.map (withTypeOf table)).getD table
  layers.modifyAt (fun rs =>
    match rs with
    | .list rs => .list (rs.map fun r =>
        (r.modifyAt (refresh "from_path" "output_tables" r) [.key "from_object"]).modifyAt
          (refresh "to_path" "input_tables" r) [.key "to_object"])
    | v => v) [.key relationsKey]

namespace Job

def setting (key : String) : Job Value := do (← get).settings.entry key

def settingText (key : String) : Job String := do (← get).settings.text key

def setSetting (key : String) (v : Value) : Job Unit := modify fun s =>
  if key == Setting.layers then
    { s with settings := s.settings.set key v, shownGroups := [], sharedOutputs := [] }
  else { s with settings := s.settings.set key v }

def settingAt (key : Value) : Job Value := do (Value.object (← get).settings).item key

def putSetting (key v : Value) : Job Unit := do setSetting (← key.asKey) v

def layers : Job Value := setting Setting.layers

def keepLayers (l : Value) : Job Unit :=
  modify fun s => { s with settings := s.settings.set Setting.layers l }

def report (level text : String) : Job Unit :=
  modify fun s => { s with log := s.log ++ [(level, text)] }

def onTree (step : Location → FileTree.TreeStep Unit) : Job Unit := do
  let s ← get
  match step s.cwd s.tree with
  | .ok _ tree => set { s with tree }
  | .error e tree => do
      set { s with tree }
      throw e

def fresh : Job String := do
  let s ← get
  set { s with nextId := s.nextId + 1 }
  return identifier s.nextId

def objectName (parts : Value) : Job String := do
  let parts ← (do (← parts.members).mapM plainValue : Outcome _)
  let name := objectNameOf parts
  if name = "" then fresh else return name

def tableNames (parts : Value) (inSchema : Bool) : Job (String × String) := do
  let name ← objectName parts
  let table := contextName (← settingText Setting.entityContext) name
  if inSchema then return (schemaName (← settingText Setting.schema) name, table)
  return (name, table)

def onTrace (c : Change α) : Job α := do
  let s ← get
  match c s.trace with
  | .ok a trace => do
      set { s with trace }
      return a
  | .error e trace => do
      set { s with trace }
      throw e

def grouping (step : GroupStep α) : Job α := do
  let keep (g : GroupState) : Job Unit := do
    keepLayers g.layers
    modify fun s => { s with nextId := g.nextId }
  match step { layers := ← layers, nextId := (← get).nextId } with
  | .ok a g => do
      keep g
      return a
  | .error e g => do
      keep g
      throw e

def building (step : BuildStep α) : Job α := do
  let keep (b : BuildState) : Job Unit := do
    modify fun s => { s with settings := b.settings, trace := tracedTypes b.layers s.trace }
    keepLayers (relatedTypes b.layers)
  match step { layers := ← layers, settings := (← get).settings } with
  | .ok a b => do
      keep b
      return a
  | .error e b => do
      keep b
      throw e

end Job

/-! ## Groups that are shown -/

def groupsAt? (layers : Value) (a : Address) : Option Value :=
  match a.object layers with
  | .error _ => none
  | .ok object =>
      match object.get "groups" with
      | .list (g :: gs) => some (.list (g :: gs))
      | _ => none

def shownNow (layers : Value) (a : Option Address) (shown : Value) : Value :=
  match shown with
  | .list (_ :: _) => (a.bind (groupsAt? layers)).getD shown
  | v => v

def refreshLink (layers k : Value) : Value :=
  k.modifyAt (shownNow layers (Address.ofPath (k.get "path")).toOption) [.key "groups"]

def refreshItem (layers i : Value) : Value :=
  i.modifyAt (fun r =>
    match r with
    | .list ks => .list (ks.map (refreshLink layers))
    | r => refreshLink layers r) [.key "relobject"]

def refreshElement (layers : Value) (origin : String × String) (e : Value) : Value :=
  let e := e.modifyAt (shownNow layers (some { algo := .text origin.1, function := .text origin.2 }))
    [.key "groups"]
  ["input", "body", "output"].foldl (fun e part =>
    e.modifyAt (fun items =>
      match items with
      | .list is => .list (is.map (refreshItem layers))
      | v => v) [.key "sql", .key part]) e

def refreshGroups (origins : List (String × String)) (layers : Value) : Value :=
  layers.modifyAt (fun es =>
    match es with
    | .list es => .list ((es.zip origins).map (fun (e, o) => refreshElement layers o e) ++
        es.drop origins.length)
    | v => v) [.key consumptionKey]

/-! ## Processing -/

def supportedAlgos : List String := ["RANDOMFORESTCLASSIFIER"]

def isSupported (algo : String) : Bool :=
  supportedAlgos.any fun word => containsText (lowerText algo) (lowerText word)

def noteShared (algo function : String) (shared : Bool) : Job Unit :=
  modify fun s => { s with
    sharedOutputs := s.sharedOutputs.filter (· != (algo, function)) ++
      if shared then [(algo, function)] else [] }

/-- Makes the base procedure of what was traced of a function. `own` says whether the trace stays with the
session. -/
def processCall (own : Bool) (algo function : String) : Job Unit := do
  let place : Place := [.key algo, .key function]
  let p ← Job.onTrace (Change.within place prepare)
  let keep (w : BaseWork) : Job Unit := do
    modify fun s => { s with trace := s.trace.putAt (place ++ [.key "function"]) w.functions }
    Job.keepLayers w.layers
  match generateBase (← get).settings (.text algo) (.text function) p
      { functions := p.functions, layers := ← Job.layers } with
  | .error e w => do
      keep w
      throw e
  | .ok _ w => do
      keep w
      let isEmptyList := match p.outputTables with
        | .list [] => true
        | _ => false
      noteShared algo function (own && p.sharesOutputs && isEmptyList)

def processAlgo (raiseOnError own : Bool) (algo : String) : Job Unit := do
  let functions ← (← get).trace.entry algo
  (← functions.members).forM fun function => do
    let call ← (← (← get).trace.entry algo).item function
    if call.isTruthy then
      if ← call.has "sql" then processCall own algo function.textOrEmpty
      else if raiseOnError then throw (.noStatements algo)
      else Job.report "error" ((Fault.noStatements algo).message.getD "")

def processAlgos (raiseOnError own : Bool) (trace : Value) : Job Unit := do
  (← trace.members).forM fun algo => do
    let algo ← algo.asTextReceiver
    if isSupported algo then processAlgo raiseOnError own algo

def showGroups : Job Unit := do
  let layers ← Job.layers
  Job.keepLayers (refreshGroups (← get).shownGroups layers)

def relateAndBuild : Job (List Element) := do
  let relations ← buildRelations (← Job.layers)
  Job.keepLayers (← (← Job.layers).setEntry relationsKey (.list (relations.map Relation.toValue)))
  try Job.grouping (setGroups (← get).settings) finally showGroups
  Job.building buildConsumption

def fillConsumption : Job Unit := do
  let elements ← relateAndBuild
  Job.keepLayers (← (← Job.layers).setEntry consumptionKey (.list (elements.map Element.toValue)))
  modify fun s => { s with shownGroups := elements.map Element.origin }

def processTrace (raiseOnError logStatements own : Bool) : Job Unit := do
  let trace := (← get).trace
  let _ ← Job.layers
  if !trace.isTruthy then return
  if logStatements then Job.report "debug" (← Trace.raw trace)
  processAlgos raiseOnError own trace
  fillConsumption

def processOther (trace : Value) (raiseOnError logStatements : Bool) : Job Unit := do
  let own := (← get).trace
  modify fun s => { s with trace }
  try processTrace raiseOnError logStatements false
  finally modify fun s => { s with trace := own }

def processFirst : Job Unit := do
  if !(← get).trace.isTruthy then throw .noTrace
  processTrace false false true

structure ProjectOptions where
  projectName : Value
  version : Value
  grantService : Value
  outputDir : String
  merge : Value
  group : Value
  remoteGrantService : Value
  remoteSource : Value

/-- What a project is told by a record: nothing is merged and groups follow functions unless the record
says otherwise. -/
def ProjectOptions.ofValue (v : Value) (outputDir : String) : ProjectOptions where
  projectName := v.get "project_name"
  version := v.get "version"
  grantService := v.get "grant_service"
  outputDir
  merge := v.get "merge" (.int 1)
  group := v.get "group" (.int functionalGrouping)
  remoteGrantService := v.get "sda_grant_service"
  remoteSource := v.get "remote_source" (.text "")

def ProjectOptions.settings (o : ProjectOptions) : Outcome Settings := do
  let name ← plainValue o.projectName
  return Settings.builtin ++
    [(Setting.outputPath, .text (joinPaths o.outputDir name)),
     (Setting.projectName, .text name),
     (Setting.version, o.version),
     (Setting.grantService, o.grantService),
     (Setting.remote Setting.grantService, o.remoteGrantService),
     (Setting.remoteSource, o.remoteSource),
     (Setting.mergeStrategy, o.merge),
     (Setting.groupStrategy, o.group),
     (Setting.outputDir, .text o.outputDir),
     (Setting.moduleName, .text name),
     (Setting.entityContext, .text "output"),
     (Setting.appId, .text name),
     (Setting.schema, .text ("\"" ++ upperText (name ++ "_SCHEMA") ++ "\"")),
     (Setting.layers, .object []),
     (Setting.sourceMapping, .object [])]

def startProject (o : ProjectOptions) : Job Unit := do
  let settings ← o.settings
  modify fun s => { s with settings, shownGroups := [], sharedOutputs := [] }

end TraceArtifacts
