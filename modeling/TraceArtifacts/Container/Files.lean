import TraceArtifacts.Container.FileText
import TraceArtifacts.Json.Printer
import TraceArtifacts.Writing

/-!
# Files of a container

Each kind of file of a container: the description of the application, grants, synonyms, roles, procedures, entities and virtual
tables.
-/

namespace TraceArtifacts

namespace Container

def forEachProcedure [Monad m] [MonadLiftT Outcome m] (layers : Value)
    (step : Value → Value → Value → m Unit) : m Unit := do
  let base ← liftM (layers.entry baseKey)
  (← liftM base.members).forM fun algo => do
    let functions ← liftM (base.item algo)
    if functions.isRecord then
      (← liftM functions.members).forM fun function => do
        step algo function (← liftM (functions.item function))

def forEachSynonyms (layers : Value) (step : Value → StateT α Outcome Unit) : StateT α Outcome Unit :=
  forEachProcedure layers fun _ _ object => do
    if ← object.has "synonyms" then step (← object.entry "synonyms")

def writeManifest (path appId moduleName version schema grantService : Value) : Job Unit :=
  Job.writeText path "mta.yaml" FileText.manifest
    [("<<MODULE_APPID>>", appId), ("<<MODULE_NAME>>", moduleName),
     ("<<MODULE_VERSION>>", version), ("<<SCHEMA_NAME>>", schema),
     ("<<USP_FOR_GRANTS>>", grantService)]

def schemaPrivilege (key : String) (schema : Value) : Value :=
  .object [("reference", schema), (key, .list [.text "SELECT"])]

def datasetSchema (synonym : Value) : Outcome (List Value) := do
  if !(← synonym.has "type") then return []
  if (← synonym.entry "type").same (.text Synonym.datasetKind) then
    return [← synonym.entry "schema"]
  else return []

def datasetSchemas (layers : Value) : Outcome (List Value) := do
  let (_, schemas) ← forEachSynonyms layers (fun synonyms => do
    let found ← (do (← synonyms.members).mapM datasetSchema : Outcome _)
    modify (· ++ found.flatten)) []
  return schemas

/-- Writes the grants of a container; `remote` is the remote source that it reads, if it reads one. -/
def writeGrants (path : Value) (remote : Option Value) : Job Unit := do
  let schemas ← datasetSchemas (← Job.layers)
  let privileges (key : String) : Value :=
    .text (Json.render (.list (schemas.map (schemaPrivilege key))))
  let replacements : Fields :=
    [("<<SCHEMA_PRIVILEGES>>", privileges "privileges"),
     ("<<SCHEMA_PRIVILEGES_WITH>>", privileges "privileges_with_grant_option")]
  match remote with
  | some source =>
      Job.writeText path "grants.hdbgrants" FileText.remoteGrants
        (("<<REMOTE_SOURCE>>", source) :: replacements)
  | none => Job.writeText path "grants.hdbgrants" FileText.grants replacements

def synonymTarget (object schema : Value) : Value :=
  .object [("target", .object [("object", object), ("schema", schema)])]

/-- The entry of a synonym in its file, if its object and schema are named. -/
def synonymEntry (s : Value) : Outcome (List (String × Value)) := do
  let schema ← s.entry "schema"
  if !schema.isTruthy then return []
  let object ← s.entry "object"
  if !object.isTruthy then return []
  let name ← s.textEntry "synonym"
  let _ ← schema.asText
  let _ ← object.asText
  return [(name, synonymTarget object schema)]

def synonymContent (layers : Value) : Outcome Fields := do
  let (_, synonyms) ← forEachSynonyms layers (fun synonyms => do
    let found ← synonyms.members
    modify (· ++ found)) []
  return Fields.ofPairs (← synonyms.mapM synonymEntry).flatten

def writeSynonyms (path : Value) : Job Unit := do
  let content ← synonymContent (← Job.layers)
  Job.writeFile path (.text "synonyms.hdbsynonym") (Json.render (.object content))

def writeRoles (path name : Value) : Job Unit := do
  let name ← if name.isTruthy then pure name else Job.setting Setting.projectName
  let name ← name.asTextReceiver
  let replacements : Fields := [("<<ROLE_NAME>>", .text ("hanaml::" ++ replaceText name "_" ""))]
  Job.writeText path "role.hdbrole" FileText.role replacements
  Job.writeText path "role_with.hdbrole" FileText.grantingRole replacements

def writeProcedure (path name body signature : Value) : Job Unit := do
  let fileName ← name.asText
  Job.writeText path (fileName ++ ".hdbprocedure") FileText.procedure
    [("<<SQL_PLACEHOLDER>>", body), ("<<PROCEDURE_NAME>>", name), ("<<INTERFACE>>", signature)]

def writeVirtualTable (path remoteSource sourceSchema sourceTable name : Value) : Job Unit := do
  let name ← name.asText
  let schema ← sourceSchema.asText
  Job.writeText path (name ++ ".hdbvirtualtable") FileText.virtualTable
    [("<<CONNECTION_NAME>>", remoteSource),
     ("<<SOURCE_SCHEMA_TABLE>>", .text (schema ++ "." ++ (← sourceTable.asText))),
     ("<<VIRTUAL_TABLE>>", .text ("::" ++ name))]

def writeEntities (path context content : Value) : Job Unit := do
  let fileName ← context.asText
  Job.writeText path (fileName ++ ".hdbcds") FileText.entities
    [("<<CONTEXT_NAME>>", context), ("<<CONTEXT_CONTENT>>", content)]

def entityText (name elements extension : Value) : Outcome Value := do
  if !elements.isTruthy then return .null
  let name ← name.asText
  let elements ← elements.asText
  let extension ← if extension.isTruthy then extension.asText else pure ""
  return .text ("  entity " ++ name ++ " \x7b\n" ++ elements ++ extension ++ "  \x7d;\n")

end Container

end TraceArtifacts
