import TraceArtifacts.Channel

/-!
# Sites

A site is what a deployment works on: files, commands, services and a cloud, each with what it will answer. What was
started and requested is kept in order.
-/

namespace TraceArtifacts.Deploy

inductive Command where
  | missing
  | written (out err : ByteArray)
deriving Inhabited

structure Reply where
  status : Value := .int 200
  text : Value := .text ""
  json : Value := .object []
deriving Inhabited

structure Organization where
  id : Value
  spaces : List Value
deriving Inhabited

structure Cloud where
  loginError : Option String := none
  organizations : List Organization := []
deriving Inhabited

inductive Event where
  | start (command shell : Value)
  | run (command : List String) (directory : String)
  | request (method url : String) (options : Fields)
  /-- A client of a cloud is made, with the proxies for plain and for secure connections. -/
  | client (api : Value) (plainProxy secureProxy : String)
  | logIn (user password : Value)
  | organizations (name : Value)
  | spaces (name : Value)
deriving Inhabited

structure Site where
  tree : FileTree := {}
  cwd : Location := []
  environment : List (String × String) := []
  commands : List Command := []
  replies : List Reply := []
  cloud : Cloud := {}
  events : List Event := []
  log : List (String × String) := []
deriving Inhabited

abbrev Step := EStateM Fault Site

namespace Step

def ofOutcome : Outcome α → Step α
  | .ok a => pure a
  | .error e => throw e

def emit (e : Event) : Step Unit := modify fun s => { s with events := s.events ++ [e] }

def report (level text : String) : Step Unit :=
  modify fun s => { s with log := s.log ++ [(level, text)] }

def stop (text : String) : Step α := do
  report "error" text
  throw (.exit 1)

def start (command shell : Value) : Step (ByteArray × ByteArray) := do
  emit (.start command shell)
  let s ← get
  match s.commands with
  | [] => throw .fileMissing
  | .missing :: rest => do
      set { s with commands := rest }
      throw .fileMissing
  | .written out err :: rest => do
      set { s with commands := rest }
      return (out, err)

def request (method url : String) (options : Fields) : Step Reply := do
  emit (.request method url options)
  let s ← get
  match s.replies with
  | [] => return {}
  | r :: rest => do
      set { s with replies := rest }
      return r

def pathExists (p : Value) : Step Bool := do
  let s ← get
  ofOutcome (s.tree.isThere s.cwd p)

def enter (p : String) : Step Unit := do
  let s ← get
  let cwd ← ofOutcome (s.tree.directoryAt s.cwd p)
  set { s with cwd }

def here : Step String := do return pathOf (← get).cwd

end Step

def decoded (b : ByteArray) : Outcome String :=
  match String.fromUTF8? b with
  | some s => .ok s
  | none => .error .undecodable

def byteLines : List UInt8 → List UInt8 → List (List UInt8)
  | [], [] => []
  | line, [] => [line.reverse]
  | line, b :: rest =>
      if b = 10 then (b :: line).reverse :: byteLines [] rest else byteLines (b :: line) rest

def linesOf (b : ByteArray) : List ByteArray :=
  (byteLines [] b.toList).map fun l => ⟨l.toArray⟩

end TraceArtifacts.Deploy
