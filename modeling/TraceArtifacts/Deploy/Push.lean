import TraceArtifacts.Deploy.Archive

/-!
# Pushing archives to a cloud

Before an archive is deployed, a client checks that the user can log in and that the organisation and the space are there.
-/

namespace TraceArtifacts.Deploy

structure CloudTarget where
  api : Value
  org : Value
  space : Value
  user : Value
  password : Value
deriving Inhabited

def checkDeployTools : Step Unit := do
  let client ← cloudClientAvailable
  let archives ← archiveClientAvailable
  if !client.available then
    Step.stop ("Cloud Foundry CLI is not available and required to perform deployments. " ++
      "Please download and install first before you continue. " ++
      "More info: https://tools.hana.ondemand.com/#cloud")
  Step.report "info" ("Cloud Foundry CLI found with version: " ++ versionText client)
  if !archives.available then
    Step.stop ("MTA Cloud Foundry CLI plugin not installed.  Please install, " ++
      "more info: https://tools.hana.ondemand.com/#cloud")

def CloudTarget.isIncomplete (t : CloudTarget) : Bool :=
  [t.api, t.org, t.space, t.user, t.password].any fun v => v.same .null

def CloudTarget.loginMessage (t : CloudTarget) (error : String) : String :=
  if error = "OAuthError" || error = "oauth2_client.credentials_manager.OAuthError" then
    "Provided username or password incorrect."
  else
    "Error " ++ error ++ " occured while trying to authenticate with user " ++ t.user.display ++
      " against api " ++ t.api.display ++ "."

def CloudTarget.checkLogin (t : CloudTarget) : Step Unit := do
  let s ← get
  Step.emit (.client t.api ((s.environment.lookup "HTTP_PROXY").getD "")
    ((s.environment.lookup "HTTPS_PROXY").getD ""))
  Step.emit (.logIn t.user t.password)
  match s.cloud.loginError with
  | some error => Step.stop (t.loginMessage error)
  | none => pure ()

def CloudTarget.seek (t : CloudTarget) : Step (Value × Value) := do
  Step.emit (.organizations t.org)
  let found := (← get).cloud.organizations
  found.foldlM (fun (_, space) o => do
    Step.emit (.spaces t.space)
    return (o.id, (o.spaces.getLast?).getD space)) (.null, .null)

def CloudTarget.checkSpace (t : CloudTarget) : Step Unit := do
  let (org, space) ← t.seek
  if org.same .null then
    Step.stop ("Provided orgnization " ++ t.org.display ++
      " is not available on the provided api url " ++ t.api.display ++ ".")
  if space.same .null then
    Step.stop ("Provided space " ++ t.space.display ++
      " is not available in the provided organization " ++ t.org.display ++ ".")

def CloudTarget.loginCommand (t : CloudTarget) : Value :=
  .list [.text "cf", .text "login", .text "-a", t.api, .text "-u", t.user, .text "-p", t.password,
    .text "-o", t.org, .text "-s", t.space]

def failureWord : String := "FAILED"

structure Outlook where
  failed : Bool := false
  /-- The line behind the first failure. -/
  cause : Option String := none
deriving Repr, DecidableEq, Inhabited

def Outlook.take (o : Outlook) (line : String) : Outlook :=
  { cause := if o.failed && o.cause.isNone then some line else o.cause
    failed := o.failed || containsText line failureWord }

def followOutput : Outlook → List ByteArray → Step Outlook
  | o, [] => pure o
  | o, b :: rest => do
      let line ← Step.ofOutcome (decoded b)
      Step.report "info" ("CF_OUTPUT: " ++ line)
      followOutput (o.take line) rest

def reportFailure (cause : String) : Step Unit :=
  Step.report "error" ("Deployment not succesfull. Error: " ++ cause)

def successReport : String :=
  "Deployment operation was succesfull. Please check output for other issues."

def deployCommand (archive : String) : Value :=
  .ofTexts ["cf", "deploy", archive, "-f"]

def deployArchive (archive : String) : Step Unit := do
  let (out, _) ← Step.start (deployCommand archive) (.bool false)
  let o ← followOutput {} (linesOf out)
  if o.failed then reportFailure (o.cause.getD "None") else Step.report "info" successReport

def pushExisting (archive : String) (t : CloudTarget) : Step Unit := do
  if t.isIncomplete then
    Step.stop "Missing cl arguments. Minimal mtar, api, org, space, user, password required."
  t.checkLogin
  t.checkSpace
  Step.report "info" ("Start deployment of: " ++ archive)
  let (out, err) ← Step.start t.loginCommand (.bool false)
  let result ← Step.ofOutcome (decoded out)
  if err.size = 0 && !containsText result failureWord then deployArchive archive
  else reportFailure result
  Step.report "info" "MTAR Deployment process done"

def archivePath (here archive : String) : String :=
  if isAbsolutePath archive then archive else joinPaths here (baseName archive)

def push (archive : Value) (t : CloudTarget) : Step Unit := do
  let archive ← Step.ofOutcome archive.asText
  let archive := archivePath (← Step.here) archive
  if ← Step.pathExists (.text archive) then pushExisting archive t
  else
    Step.report "error"
      ("Deployment could not be started as deployment file not found: " ++ archive)

def buildAndPush (source builder : Value) (t : CloudTarget) : Step Unit := do
  checkBuildTools
  let archive ← ({ jar := builder, directory := source } : Build).run
  push (.text archive) t

end TraceArtifacts.Deploy
