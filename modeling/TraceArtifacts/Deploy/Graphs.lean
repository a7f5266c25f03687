import TraceArtifacts.Deploy.Push
import TraceArtifacts.Json.Reader

/-!
# Deploying graphs

Graphs are posted to a service, one by one, each under a name made of the project and the name of its file.
-/

namespace TraceArtifacts.Deploy

structure GraphService where
  url : String
  user : String
  password : Value
  project : Value
  verify : Value
deriving Inhabited

structure ServiceOptions where
  project : Value
  host : Value
  port : Value
  secure : Value
  user : Value
  password : Value
  tenant : Value := .text "default"
  verify : Value := .bool false
  standalone : Value := .bool false
deriving Inhabited

def ServiceOptions.service (o : ServiceOptions) : GraphService where
  url := (if o.secure.isTruthy then "https://" else "http://") ++ o.host.display ++ ":" ++
    o.port.display ++
    if o.standalone.isTruthy then "/service" else "/app/pipeline-modeler/service"
  user := o.tenant.display ++ "\\" ++ o.user.display
  password := o.password
  project := o.project
  verify := o.verify

def GraphService.address (g : GraphService) (function : String) : String := g.url ++ function

def GraphService.graphAddress (g : GraphService) (name : Value) : Outcome String := do
  return g.address "/v1/repository/graphs/" ++ "hanaml." ++ (← g.project.asText) ++ "." ++
    (← name.asText)

def GraphService.post (g : GraphService) (name graph : Value) : Step Unit := do
  if graph.isTruthy then
    let url ← Step.ofOutcome (g.graphAddress name)
    let r ← Step.request "POST" url
      [("json", graph),
       ("headers", .object [("Accept", .text "application/json"),
         ("Content-Type", .text "application/json")]),
       ("auth", .list [.text g.user, g.password]), ("verify", g.verify)]
    if r.status.same (.int 201) || r.status.same (.int 200) then
      Step.report "debug" "Succesfully created graph"
    else
      Step.report "error" ("Graph creation failed with status code " ++ r.status.display ++
        " and message " ++ r.text.display)

def withoutExtension (name : String) : String :=
  let rev := name.toList.reverse
  let stem := (rev.dropWhile (· != '.')).drop 1
  if stem.all (· == '.') then name else String.ofList stem.reverse

def readGraph (path : String) : Step Value := do
  let s ← get
  let text ← Step.ofOutcome (s.tree.read s.cwd path)
  match Json.parse? text with
  | some v => return v
  | none => throw .malformedData

def GraphService.postAll (g : GraphService) (path : Value) : Step Unit := do
  let s ← get
  let names ← Step.ofOutcome (s.tree.listed s.cwd path)
  (names.filter fun n => n.endsWith ".json").forM fun n => do
    let path ← Step.ofOutcome path.asText
    g.post (.text (withoutExtension n)) (← readGraph (joinPaths path n))

def deployGraphs (path : Value) (o : ServiceOptions) : Step Unit := o.service.postAll path

def deployBoth (archiveSource graphPath builder : Value) (t : CloudTarget) (o : ServiceOptions) :
    Step Unit := do
  checkDeployTools
  buildAndPush archiveSource builder t
  deployGraphs graphPath
    { project := o.host, host := o.port, port := o.secure, secure := o.user, user := o.password,
      password := o.tenant, tenant := o.verify, verify := o.standalone }

def deploy (source builder : Value) (t : CloudTarget) : Step Unit := do
  checkDeployTools
  buildAndPush source builder t

end TraceArtifacts.Deploy
