import TraceArtifacts.Container.Files
import TraceArtifacts.Container.Signature
import TraceArtifacts.Container.Skeleton

/-!
# Containers

A container holds a procedure for each base procedure, a procedure for each element, and an entity for each output table.
-/

namespace TraceArtifacts.Container

structure Paths where
  container : String
  module : String
deriving Repr

def Paths.source (p : Paths) : String := joinPaths p.module "src"

def Paths.artifacts (p : Paths) (kind : String) : String := joinPaths p.source kind

def Paths.settings (p : Paths) (key : String → String) : Fields :=
  [(key Setting.hanaPath, .text p.container), (key Setting.modulePath, .text p.module),
   (key Setting.sourcePath, .text p.source),
   (key Setting.grantsPath, .text (p.artifacts "grants")),
   (key Setting.synonymsPath, .text (p.artifacts "synonyms")),
   (key Setting.proceduresPath, .text (p.artifacts "procedures")),
   (key Setting.rolesPath, .text (p.artifacts "roles")),
   (key Setting.entitiesPath, .text (p.artifacts "cds"))]

def noteSettings (fs : Fields) : Job Unit := fs.forM fun (k, v) => Job.setSetting k v

def layOut (container module : Value) (directories : List String) : Job Unit := do
  Job.removeDirectory container
  let _ ← Job.setting Setting.skeletonPath
  let module ← module.asText
  Job.onTree fun cwd => FileTree.copyInto cwd module (skeleton directories)

def keepOutputs (a : Address) (outputs : Value) : Job Unit := do
  Job.keepLayers ((← Job.layers).putAt (a.place ++ [.key "output_tables"]) outputs)
  let (algo, function) := (a.algo.textOrEmpty, a.function.textOrEmpty)
  if (← get).sharedOutputs.contains (algo, function) then
    modify fun s => { s with
      trace := s.trace.putAt [.key algo, .key function, .key "output_tables"] outputs }

def appendVariables (a : Address) (object : Value) : Job Value := do
  let outputs ← object.entryOr "output_tables" (.list [])
  if !(← object.has "output_vars") then return outputs
  let vars ← object.entry "output_vars"
  let _ ← outputs.append []
  let outputs ← outputs.append (← vars.members)
  keepOutputs a outputs
  return outputs

def passes (filters : List String) (name : Value) : Outcome Bool := do
  if filters.isEmpty then return true
  anyWordIn (filters.map .text) name

def mappedIf (mapSources : Bool) (text : String) : Job String := do
  if mapSources then (← get).settings.mapSources (.text text) else return text

structure ProcedureFile where
  name : Value
  body : String
  signature : String

def baseProcedureFile (filters : List String) (mapSources : Bool) (algo function object : Value) :
    Job (Option ProcedureFile) := do
  if !(← object.has "sql") then return none
  let name ← (← object.entry "metadata").entry "procedure_name"
  if !(← passes filters name) then return none
  let inputs ← object.entryOr "input_tables" (.list [])
  let outputs ← appendVariables { algo, function } object
  let signature ← signature inputs outputs
  let body ← joinMembers (← object.entry "sql") (.text "\n") (.text "")
  return some { name, body := ← mappedIf mapSources body, signature }

def writeBaseProcedure (path : Value) (filters : List String) (mapSources : Bool)
    (algo function object : Value) : Job Unit := do
  if let some file ← baseProcedureFile filters mapSources algo function object then
    writeProcedure path file.name (.text file.body) (.text file.signature)

def writeBaseProcedures (path : Value) (filters : List String) (mapSources : Bool) : Job Unit := do
  forEachProcedure (← Job.layers) (writeBaseProcedure path filters mapSources)

def outputTexts : Option String → List Value → Outcome (List String)
  | _, [] => .ok []
  | last, item :: rest => do
      let text ← if ← item.has "sql_vars" then statementText item
        else match last with
          | some text => pure text
          | none => throw .unset
      return text :: (← outputTexts (some text) rest)

def elements (layers : Value) : Outcome (List Value) := do
  return (← (← layers.entry consumptionKey).members).filter Value.isRecord

def elementTexts (last : Option String) (p : Parts) : Outcome (List String) := do
  let inputs ← (← p.inputs.members).mapM synonymStatementText
  let body ← (← p.body.members).mapM statementText
  let texts := inputs ++ body
  let last := match texts.getLast? with
    | some t => some t
    | none => last
  return texts ++ (← outputTexts last (← p.outputs.members))

def writeElement (mapSources : Bool) (last : Option String) (element : Value) :
    Job (Option String) := do
  if !(← element.has "sql") then return last
  let name ← element.entry "name"
  let p ← Parts.of (← element.entry "sql")
  let texts ← elementTexts last p
  let signature ← signature .null p.outputs
  let body ← mappedIf mapSources (joinLines texts)
  writeProcedure (← Job.setting Setting.proceduresPath) name (.text body) (.text signature)
  return some body

def writeElements (mapSources : Bool) : Job Unit := do
  let es ← elements (← Job.layers)
  let _ ← es.foldlM (writeElement mapSources) none

def addEntity (entities : List Value) (item : Value) : Outcome (List Value) := do
  if !(← item.has "object_name") then return entities
  if !(← item.has "cds_type") then return entities
  let name ← item.entry "object_name"
  if ← entities.anyM (fun e => name.isIn e) then return entities
  return entities ++ [← entityText name (← item.entry "cds_type") .null]

def addEntities (entities : List Value) (element : Value) : Outcome (List Value) := do
  if !(← element.has "sql") then return entities
  let outputs ← (← element.entry "sql").entryOr "output" (.list [])
  (← outputs.members).foldlM addEntity entities

def entitiesOf (es : List Value) : Outcome (List Value) := es.foldlM addEntities []

def entitiesText (entities : List Value) : String := joinLines (entities.map Value.textOrEmpty)

def writeLayers (baseLayer consumptionLayer remoteMappingOnly : Bool) : Job Unit := do
  if baseLayer then
    writeBaseProcedures (← Job.setting Setting.proceduresPath) [] remoteMappingOnly
  if consumptionLayer then writeElements (!remoteMappingOnly)
  let entities ← entitiesOf (← elements (← Job.layers))
  writeEntities (← Job.setting Setting.entitiesPath) (← Job.setting Setting.entityContext)
    (.text (entitiesText entities))

def notePaths : Job Unit := do
  let s := (← get).settings
  let moduleName ← s.entry Setting.moduleName
  let container := joinPaths (← s.text Setting.outputPath) "hana"
  let p := Paths.mk container (joinPaths container (← moduleName.asText))
  noteSettings (p.settings id)
  Job.setSetting Setting.skeletonPath (.text "templates")

def generate (baseLayer consumptionLayer remoteMappingOnly : Bool) : Job Unit := do
  notePaths
  layOut (← Job.setting Setting.hanaPath) (← Job.setting Setting.modulePath) directories
  writeManifest (← Job.setting Setting.hanaPath) (← Job.setting Setting.appId)
    (← Job.setting Setting.moduleName) (← Job.setting Setting.version)
    (← Job.setting Setting.schema) (← Job.setting Setting.grantService)
  writeGrants (← Job.setting Setting.grantsPath) none
  writeSynonyms (← Job.setting Setting.synonymsPath)
  writeRoles (← Job.setting Setting.rolesPath) (← Job.setting Setting.moduleName)
  writeLayers baseLayer consumptionLayer remoteMappingOnly

end TraceArtifacts.Container
