import TraceArtifacts.Deploy.Graphs

/-!
# Scenarios

A scenario has a pipeline that trains and one that applies. They are made from templates of a service and put into a
repository. The service wants a token.
-/

namespace TraceArtifacts.Deploy

structure Scenario where
  id : Value
  token : Value := .null
deriving Inhabited

def serviceUrl : String := "http://vsystem-internal:8796"

def named (key : String) : Step String := do
  match (← get).environment.lookup key with
  | some v => return v
  | none => throw (.missingKey key)

def fetchToken : Step Value := do
  let app ← named "VSYSTEM_APP_ID"
  let key ← named "VSYSTEM_SECRET"
  let r ← Step.request "GET" (serviceUrl ++ "/token/v2") [("auth", .ofTexts [app, key])]
  if r.status.same (.int 200) then Step.ofOutcome (r.json.entry "access_token") else return .null

def Scenario.start (id : Value) : Step Scenario := do return { id, token := ← fetchToken }

def Scenario.headers (s : Scenario) : Value :=
  .object [("Content-Type", .text "application/json"), ("cache-control", .text "no-cache"),
    ("Authorization", s.token)]

def pipelineText (name description function template : String) : String :=
  "\x7b\n  \"name\": \"" ++ name ++ "\",\n  \"description\": \"" ++ description ++
    "\",\n  \"rating\": 0,\n \"function\": \"" ++ function ++ "\",\n  \"fromTemplate\": \"" ++
    template ++ "\"\n\x7d"

def trainText : String :=
  pipelineText "Train" "HANAML Train Pipeline" "training" "com.sap.ml.hana.templateTrain"

def applyText : String :=
  pipelineText "Apply" "HANAML Apply Pipeline" "inference" "com.sap.ml.hana.templateApply"

def Scenario.createPipelines (s : Scenario) : Step (Value × Value) := do
  let url := serviceUrl ++ "/app/ml-api/api/v0alpha1/scenarios/" ++ s.id.display ++ "/pipelines"
  let train ← Step.request "POST" url [("data", .text trainText), ("headers", s.headers)]
  let apply ← Step.request "POST" url [("data", .text applyText), ("headers", s.headers)]
  Step.ofOutcome do return (← train.json.entry "id", ← apply.json.entry "id")

def Scenario.store (s : Scenario) (pipeline : Value) : Step Unit := do
  let url := serviceUrl ++ "/repository/v2/files/user/files/vflow/graphs/com/sap/dsp/" ++
    pipeline.display ++ "/metadata.json?op=write"
  let _ ← Step.request "POST" url
    [("json", .object
      [("path", .text ("/repository/v2/files/tenant/files/mlsm/com/sap/dsp/" ++ pipeline.display)),
       ("scenarioId", s.id)]), ("headers", s.headers)]

def Scenario.generate (s : Scenario) : Step Unit := do
  let (train, apply) ← s.createPipelines
  s.store train
  s.store apply

end TraceArtifacts.Deploy
