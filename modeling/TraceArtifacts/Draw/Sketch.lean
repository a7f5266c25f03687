import TraceArtifacts.DataTable

/-!
# Sketches

A drawing is kept as the list of its strokes: which pen was told to do what.
-/

namespace TraceArtifacts.Draw

structure Stroke where
  pen : Option String
  action : String
  arguments : List Value := []
  options : Fields := []
deriving Inhabited

def Stroke.name (s : Stroke) : String :=
  match s.pen with
  | some p => p ++ "." ++ s.action
  | none => s.action

inductive Source where
  | fixed (columns : Value)
  /-- It is the next one each time. -/
  | queue (tables : List Value)
deriving Inhabited

def Source.ofValue : Value → Source
  | .object [("queue", .list tables)] => .queue (tables.map fun t => t.get "columns")
  | table => .fixed (table.get "columns")

structure Sketch where
  strokes : List Stroke := []
  sources : List Source := []
  measures : List Value := []
  printed : String := ""
deriving Inhabited

abbrev Drawing := EStateM Fault Sketch

namespace Drawing

def stroke (pen : Option String) (action : String) (arguments : List Value := [])
    (options : Fields := []) : Drawing String := do
  modify fun s => { s with strokes := s.strokes ++ [⟨pen, action, arguments, options⟩] }
  return action ++ "#" ++ toString (← get).strokes.length

def tell (pen action : String) (arguments : List Value := []) (options : Fields := []) :
    Drawing String := stroke (some pen) action arguments options

def tell' (pen action : String) (arguments : List Value := []) (options : Fields := []) :
    Drawing Unit := do
  let _ ← tell pen action arguments options

def print (line : String) : Drawing Unit :=
  modify fun s => { s with printed := s.printed ++ line ++ "\n" }

end Drawing

def picture : String := "plt"

def penValue (pen : String) : Value := .text ("<" ++ pen ++ ">")

inductive Frame where
  | data (name : String) (source : Nat)
  | other (v : Value)
deriving Inhabited

namespace Frame

def toValue : Frame → Value
  | data name _ => penValue name
  | other v => v

def ofSource (source : Source) : Drawing Frame := do
  let s ← get
  set { s with sources := s.sources ++ [source] }
  return data "df" s.sources.length

def apply (f : Frame) (action : String) (arguments : List Value := []) (options : Fields := []) :
    Drawing Frame := do
  match f with
  | data name source => return data (← Drawing.tell name action arguments options) source
  | other _ => throw .badReceiver

def renamed (f : Frame) (name : String) : Frame :=
  match f with
  | data _ source => data name source
  | other v => other v

/-- The columns of a frame as they are given: the next ones if they come in a queue. -/
def given (f : Frame) : Drawing Value := do
  match f with
  | other _ => throw .badReceiver
  | data _ source => do
      let s ← get
      match s.sources[source]? with
      | some (.fixed t) => return t
      | some (.queue (t :: rest)) => do
          set { s with sources := s.sources.set source (.queue rest) }
          return t
      | _ => throw .outOfRange

def collect (f : Frame) : Drawing DataTable := do DataTable.ofColumns (← f.given)

def cells (f : Frame) (name : String) : Drawing (List Value) := do
  match (Fields.ofPairs (DataTable.columnPairs (← f.given))).get? name with
  | some cells => cells.members
  | none => throw (.missingKey name)

def columns (f : Frame) : Drawing (List String) := do
  match f with
  | other _ => throw .badReceiver
  | data _ source =>
      match (← get).sources[source]? with
      | some (.fixed t) => return (DataTable.columnPairs t).map (·.1)
      | some (.queue (t :: _)) => return (DataTable.columnPairs t).map (·.1)
      | _ => return []

end Frame

structure Pen where
  name? : Option String
deriving Repr, DecidableEq, Inhabited

def Pen.named (name : String) : Pen := ⟨some name⟩

def Pen.tell (p : Pen) (action : String) (arguments : List Value := []) (options : Fields := []) :
    Drawing Unit := do
  match p.name? with
  | some name => Drawing.tell' name action arguments options
  | none => throw .badReceiver

end TraceArtifacts.Draw
