import TraceArtifacts.FileTree
import TraceArtifacts.Loading.Share

/-!
# Databases

A connection to a database as loading sees it: what it answers, which statements it refuses, and what it was
asked, in order.
-/

namespace TraceArtifacts.Loading

structure Answers where
  schema : Value := .text "CURSCH"
  refused : List String := []
  results : List Value := []
  /-- The number of rows of every table, or nothing if tables are not there. -/
  rowCount : Value := .null
deriving Inhabited

inductive Request where
  | schema
  | execute (statement : String)
  | executeMany (statement : String) (rows : Value)
  | table (name : Value)
deriving Inhabited

structure LoadState where
  connected : Bool := true
  answers : Answers := {}
  requests : List Request := []
  tree : FileTree := {}
  cwd : Location := []
  user : Value := .null
  printed : String := ""
deriving Inhabited

abbrev Loader := EStateM Fault LoadState

namespace Loader

def print (line : String) : Loader Unit :=
  modify fun s => { s with printed := s.printed ++ line ++ "\n" }

def reach : Loader Unit := do if !(← get).connected then throw .badReceiver

def ask (r : Request) : Loader Unit := do
  reach
  modify fun s => { s with requests := s.requests ++ [r] }

def check (statement : String) : Loader Unit := do
  if (← get).answers.refused.any (containsText statement) then throw .database

def execute (statement : String) : Loader Unit := do
  ask (.execute statement)
  check statement

def executeMany (statement : String) (rows : Value) : Loader Unit := do
  ask (.executeMany statement rows)
  check statement

def fetch : Loader Value := do
  let s ← get
  match s.answers.results with
  | [] => return .list []
  | r :: rest => do
      set { s with answers := { s.answers with results := rest } }
      return r

def currentSchema : Loader Value := do
  ask .schema
  return (← get).answers.schema

def rowsIn (table : Value) : Loader Value := do
  ask (.table table)
  match (← get).answers.rowCount with
  | .null => throw .database
  | n => return n

def fileText (path : Value) : Loader String := do
  let s ← get
  s.tree.read s.cwd (← path.asText)

end Loader

end TraceArtifacts.Loading
