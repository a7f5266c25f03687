import TraceArtifacts.Container.Local

/-!
# Remote containers

A second container works on another system.
-/

namespace TraceArtifacts.Container

structure ExtraColumn where
  column : String
  dataType : String
  sql : String
deriving Repr, DecidableEq

def extraColumns : List ExtraColumn :=
  [⟨"VERSION", "Integer", "1"⟩, ⟨"LOADED_ON", "UTCTimestamp", "CURRENT_UTCTIMESTAMP"⟩]

def ExtraColumn.toValue (c : ExtraColumn) : Value :=
  .object [("column", .text c.column), ("data_type", .text c.dataType), ("sql", .text c.sql)]

def extraColumnValues : Value := .list (extraColumns.map ExtraColumn.toValue)

def extensionLine (column : Value) : Outcome String := do
  let name ← column.entry "column"
  let dataType ← column.entry "data_type"
  return "      " ++ (← name.asText) ++ " : " ++ (← dataType.asText) ++ ";\n"

def extensionText (columns : Value) : Outcome String := do
  return String.join (← (← columns.members).mapM extensionLine)

def loadText (virtualTable target columns : Value) : Outcome String := do
  let values ← (← columns.members).mapM fun c => c.textEntry "sql"
  fillTemplate ("TRUNCATE TABLE \x7b\x7d; \nINSERT INTO \x7b\x7d SELECT *" ++
    String.join (values.map fun v => "," ++ v) ++ " FROM \"::\x7b\x7d\";\nSELECT * FROM \x7b\x7d;")
    [target, target, virtualTable, target]

def modelFilters : List String := ["predict", "partition"]

def remoteEntity (item : Value) (extend : Bool) : Outcome Value := do
  let extension ← if extend then Value.text <$> extensionText extraColumnValues else pure .null
  let name ← item.entry "object_name"
  entityText name (← item.entry "cds_type") extension

def writeLoad (elementName item : Value) : Job Unit := do
  let elementName ← elementName.asText
  let name ← item.textEntry "interface_name"
  let table ← item.entry "dbobject_name"
  let schema ← item.entry "dbobject_name_schema"
  let virtualTable := Value.text ("remote_" ++ name)
  let virtualPath ← Job.setting Setting.virtualTablePath
  let procedures ← Job.setting (Setting.remote Setting.proceduresPath)
  let source ← Job.setting Setting.remoteSource
  writeVirtualTable virtualPath source schema table virtualTable
  let body ← loadText virtualTable table extraColumnValues
  writeProcedure procedures (.text ("load_" ++ elementName ++ "_" ++ name)) (.text body) (.text "")

/-- What is gathered from the outputs of an element: statements and entities. -/
structure RemoteOutputs where
  texts : List String := []
  entities : List Value := []

/-- Takes an output of an element: its statement and entity if the element is called here, and what
loading it needs if it is one of those that are read. -/
def takeOutput (modelOnly called : Bool) (elementName : Value) (r : RemoteOutputs)
    (item : Value) : Job RemoteOutputs := do
  let r ← if called then do
      let text ← synonymStatementText item
      let entity ← remoteEntity item false
      pure { texts := r.texts ++ [text], entities := r.entities ++ [entity] }
    else pure r
  let read ← if modelOnly then do (← get).settings.isKind (← item.entry "cat") .model
    else pure true
  if !read then return r
  let entity ← remoteEntity item true
  writeLoad elementName item
  return { r with entities := r.entities ++ [entity] }

/-- Takes an element: the entities of its outputs, and its procedure if it is called here. -/
def takeElement (modelOnly : Bool) (entities : List Value) (element : Value) : Job (List Value) := do
  if !(← element.has "sql") then return entities
  let name ← element.entry "name"
  let called ← passes (if modelOnly then modelFilters else []) name
  let p ← Parts.of (← element.entry "sql")
  let inputs ← (do (← p.inputs.members).mapM statementText : Outcome _)
  let body ← (do (← p.body.members).mapM statementText : Outcome _)
  let r ← (← p.outputs.members).foldlM (takeOutput modelOnly called name)
    { texts := inputs ++ body, entities }
  if called then
    let signature ← signature .null p.outputs
    let body ← (← get).settings.mapSources (.text (joinLines r.texts))
    writeProcedure (← Job.setting (Setting.remote Setting.proceduresPath)) name (.text body)
      (.text signature)
  return r.entities

def writeRemoteLayers (modelOnly : Bool) : Job Unit := do
  writeBaseProcedures (← Job.setting (Setting.remote Setting.proceduresPath))
    (if modelOnly then modelFilters else []) true
  let es ← elements (← Job.layers)
  let entities ← es.foldlM (takeElement modelOnly) []
  writeEntities (← Job.setting (Setting.remote Setting.entitiesPath))
    (← Job.setting Setting.entityContext) (.text (entitiesText entities))

def noteRemotePaths : Job Unit := do
  let s := (← get).settings
  let name := (← s.text Setting.projectName) ++ "_sda"
  let container := joinPaths (← s.text Setting.outputPath) "hana_sda"
  let p := Paths.mk container (joinPaths container name)
  Job.setSetting (Setting.remote Setting.moduleName) (.text name)
  Job.setSetting (Setting.remote Setting.appId) (.text name)
  noteSettings (p.settings Setting.remote)
  Job.setSetting Setting.virtualTablePath (.text (p.artifacts "virtualtable"))
  Job.setSetting (Setting.remote Setting.schema)
    (.text ("\"" ++ upperText (name ++ "_SCHEMA") ++ "\""))

def generateRemote (modelOnly remoteMappingOnly : Bool) : Job Unit := do
  noteRemotePaths
  generate true true remoteMappingOnly
  let remote (key : String) : Job Value := Job.setting (Setting.remote key)
  layOut (← remote Setting.hanaPath) (← remote Setting.modulePath) remoteDirectories
  writeManifest (← remote Setting.hanaPath) (← remote Setting.appId) (← remote Setting.moduleName)
    (← Job.setting Setting.version) (← remote Setting.schema) (← remote Setting.grantService)
  writeGrants (← remote Setting.grantsPath) (some (← Job.setting Setting.remoteSource))
  writeSynonyms (← remote Setting.synonymsPath)
  writeRoles (← remote Setting.rolesPath) (← remote Setting.moduleName)
  writeRemoteLayers modelOnly

end TraceArtifacts.Container
