import TraceArtifacts.Loading.Database
import TraceArtifacts.Loading.Delimited
import TraceArtifacts.Loading.Options
import TraceArtifacts.Text.Lines

/-!
# Logging in

An option file says where the database is and who logs in, and how much each part of the client reports.
-/

namespace TraceArtifacts.Loading

inductive ReportLevel where
  | debug
  | info
  | warning
  | error
deriving Repr, DecidableEq, Inhabited

def ReportLevel.ofWord (w : String) : ReportLevel :=
  if w = "info" then info else if w = "warn" then warning else if w = "debug" then debug else error

def ReportLevel.rank : ReportLevel → Nat
  | debug => 10
  | info => 20
  | warning => 30
  | error => 40

structure Login where
  url : String := "unknown"
  port : Int := 39015
  user : String := "PYDEVTEST"
  password : String := "pydevtest"
  levels : List ReportLevel := []
deriving Inhabited

def reportingParts : List String := ["hana_ml.ml_base", "hana_ml.dataframe", "hana_ml.algorithms.pal"]

def Login.ofFile (f : OptionFile) : Login :=
  let plain : Login := {}
  { url := (f.get? "hana" "url").getD plain.url
    port := ((f.get? "hana" "port").bind wholeNumber?).getD plain.port
    user := (f.get? "hana" "user").getD plain.user
    password := (f.get? "hana" "passwd").getD plain.password
    levels := reportingParts.map fun part =>
      .ofWord (lowerText ((f.get? "logging" part).getD "error")) }

def readOptions (read : OptionFile) (path : Value) : Loader OptionFile := do
  let path ← path.asText
  let s ← get
  match s.tree.read s.cwd path with
  | .error .nulInPath => throw .nulInPath
  | .error _ => return read
  | .ok text => read.readMore (plainBreaks text)

def optionPaths : Value → Outcome (List Value)
  | .text path => .ok [.text path]
  | v => v.members

def logIn (files : Value) : Loader Login := do
  let read ← (← optionPaths files).foldlM readOptions {}
  let login := Login.ofFile read
  modify fun s => { s with user := .text login.user }
  return login

end TraceArtifacts.Loading
