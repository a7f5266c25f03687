import TraceArtifacts.Deploy.Tools
import TraceArtifacts.Text.Spelling

/-!
# Archives

An archive is built by a Java program out of a directory, in that directory.
-/

namespace TraceArtifacts.Deploy

def versionText (a : Availability) : String := a.version.getD "None"

def checkBuildTools : Step Unit := do
  let java ← javaAvailable
  let packages ← packageManagerAvailable
  if !java.available then
    Step.stop ("JAVA is not available and is required. " ++
      "Please download and install first before you continue")
  Step.report "info" ("JAVA found with version: " ++ versionText java)
  if !packages.available then
    Step.stop ("NPM is not available and is required. " ++
      "Please download and install first before you continue")
  Step.report "info" ("NPM found with version: " ++ versionText packages)

structure Build where
  jar : Value
  directory : Value
  extension : Value := .null
  target : Value := .text "CF"
  showData : Bool := false

def Build.check (b : Build) : Step Unit := do
  match b.jar, b.directory with
  | .null, _ => Step.stop "Missing cl arguments. Minimal mtadir and jar required."
  | _, .null => Step.stop "Missing cl arguments. Minimal mtadir and jar required."
  | jar, directory =>
      if !(← Step.pathExists jar) then
        Step.stop ("Jar argument incorrect. " ++ jar.display ++ " does not exist")
      else if !(← Step.pathExists directory) then
        Step.stop ("Mtadir argument incorrect. " ++ directory.display ++ " does not exist")
      else
        Step.report "info" "Starting MTA Generation"
        Step.report "info" ("MTA Builder Tool: " ++ jar.display ++ ", Content directory: " ++
          directory.display)

def Build.command (b : Build) (jar : String) : Outcome (List String) := do
  let target ← b.target.asText
  let extension ← match b.extension with
    | .null => pure []
    | e => do pure ["--extension=" ++ (← e.asText)]
  return ["java", "-jar", jar, "--build-target=" ++ target] ++ extension ++
    (if b.showData then ["--show-data-dir"] else []) ++ ["build"]

/-- Builds an archive and returns its path. The working directory is then that of the content. -/
def Build.run (b : Build) : Step String := do
  b.check
  let jar ← Step.ofOutcome b.jar.asText
  let directory ← Step.ofOutcome b.directory.asText
  let jar := joinPaths (← Step.here) jar
  Step.enter directory
  let command ← Step.ofOutcome (b.command jar)
  Step.emit (.run command (← Step.here))
  Step.report "info" "MTA Generation done"
  return joinPaths directory (baseName directory ++ ".mtar")

def archiveNames (t : FileTree) (cwd : Location) (path : String) : List String :=
  match t.directoryAt cwd path with
  | .error _ => []
  | .ok loc => (t.filesBelow loc).map fun names =>
      let name := plainPath (String.intercalate "/" (path :: names))
      String.ofList (name.toList.dropWhile (· == '/'))

structure OpenText where
  closed : Bool := false
  parts : List String := []
deriving Inhabited

def OpenText.write (part : String) : EStateM Fault OpenText Unit :=
  modify fun t => { t with parts := t.parts ++ [part] }

def describeModule (name : Value) : EStateM Fault OpenText Unit := do
  OpenText.write "\n"
  match name with
  | .text n => do
      ["Name: " ++ n ++ "/data.zip", "\n", "MTA-Module: " ++ n, "\n",
        "Content-Type: application/zip"].forM OpenText.write
      modify fun t => { t with closed := true }
  | _ => throw .badOperand

end TraceArtifacts.Deploy
