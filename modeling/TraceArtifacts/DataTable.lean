import TraceArtifacts.Value

/-!
# Data tables

A data table has named columns of equal length.
-/

namespace TraceArtifacts

inductive CellKind where
  | whole
  | double
  | truth
  | mixed
deriving Repr, DecidableEq, Inhabited

namespace CellKind

/-- The kind of a column that starts with cells of one kind and goes on with another cell; `none` stands for
empty cells. -/
def join : Option CellKind → Option CellKind → Option CellKind
  | none, k => match k with
    | some .whole => some .double
    | some .truth => some .mixed
    | k => k
  | some .whole, none => some .double
  | some .truth, none => some .mixed
  | some k, none => some k
  | some a, some b =>
      if a = b then some a
      else if (a = .whole || a = .double) && (b = .whole || b = .double) then some .double
      else some .mixed

def ofCell : Value → Option CellKind
  | .null => none
  | .bool _ => some .truth
  | .int _ => some .whole
  | .float _ => some .double
  | _ => some .mixed

def ofCells : List Value → CellKind
  | [] => .mixed
  | c :: cs => ((cs.map ofCell).foldl join (ofCell c)).getD .mixed

end CellKind

def undefinedNumber : Float := 0.0 / 0.0

def doubleCell (v : Value) : Value :=
  match v.number? with
  | some (.inl i) => .float (Float.ofInt i)
  | some (.inr x) => .float x
  | none => .float undefinedNumber

def uniform (cells : List Value) : List Value :=
  match CellKind.ofCells cells with
  | .double => cells.map doubleCell
  | _ => cells

abbrev DataTable := List (String × List Value)

namespace DataTable

def columnPairs (v : Value) : Fields :=
  v.toList.filterMap fun c =>
    match c with
    | .list [name, cells] => name.keyText?.map fun n => (n, cells)
    | _ => none

def ofColumns (columns : Value) : Outcome DataTable := do
  let t ← (Fields.ofPairs (columnPairs columns)).mapM fun (name, cells) => do
    return (name, uniform (← cells.members))
  match t with
  | (_, first) :: rest =>
      if rest.all fun c => c.2.length == first.length then return t
      else throw (.refused "All arrays must be of the same length")
  | [] => return t

def rowCount (t : DataTable) : Nat := t.foldl (fun n c => max n c.2.length) 0

def isDouble (t : DataTable) : Bool :=
  let kinds := t.map fun c => CellKind.ofCells c.2
  kinds.all (fun k => k == .whole || k == .double) && kinds.contains .double

def row (t : DataTable) (i : Nat) : List Value :=
  let cells := t.map fun c => (c.2[i]?).getD .null
  if t.isDouble then cells.map doubleCell else cells

def toValue (t : DataTable) (index : List Value) : Value :=
  .object [("columns", .ofTexts (t.map (·.1))), ("index", .list index),
    ("rows", .list ((List.range index.length).map fun i => .list (t.row i)))]

def toCounted (t : DataTable) : Value :=
  t.toValue ((List.range t.rowCount).map fun (i : Nat) => .int i)

def column (t : DataTable) (name : String) : Outcome (List Value) :=
  match List.lookup name t with
  | some vs => .ok vs
  | none => .error (.missingKey name)

def cell (t : DataTable) (row column : Nat) : Outcome Value :=
  match t[column]? with
  | none => .error .outOfRange
  | some (_, vs) =>
      match vs[row]? with
      | some v => .ok v
      | none => .error .outOfRange

def onlyCells (rows : List Value) : Outcome (List Value) := do
  let rows ← rows.mapM Value.members
  let width := rows.foldl (fun w r => max w r.length) 0
  if width = 1 then return rows.map fun r => r.head?.getD .null
  else throw (.refused ("1 columns passed, passed data had " ++ toString width ++ " columns"))

def cellsUnder (name : String) (records : Fields) : Outcome Fields := do
  let cells ← records.mapM fun (key, r) => do
    match r with
    | .object fs => return (key, Fields.get? fs name)
    | _ => throw .badReceiver
  return cells.filterMap fun (key, c) => c.map fun c => (key, c)

/-- A record as a table with one column, shown with the keys as index. What stands under the keys is a cell each;
if the first is a sequence, each is a row, and if it is a record, each is a record of columns. -/
def ofRecord (name : String) (v : Value) : Outcome Value := do
  let shown (keys : List String) (cells : List Value) : Value :=
    toValue [(name, uniform cells)] (keys.map .text)
  match v with
  | .object fs =>
      match fs with
      | (_, .list _) :: _ => return shown (fs.map (·.1)) (← onlyCells (fs.map (·.2)))
      | (_, .object _) :: _ => do
          let cells ← cellsUnder name fs
          return shown (cells.map (·.1)) (cells.map (·.2))
      | _ => return shown (fs.map (·.1)) (fs.map (·.2))
  | .list [] => return shown [] []
  | .list _ => throw .badReceiver
  | .text s => throw (if s = "" then .refused "DataFrame constructor not properly called!" else .badReceiver)
  | _ => throw .badOperand

end DataTable

end TraceArtifacts
