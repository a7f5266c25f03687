import TraceArtifacts.Loading.Database
import TraceArtifacts.Loading.Delimited
import TraceArtifacts.Text.Lines
import TraceArtifacts.Text.Spelling

/-!
# Loading tables

Tables are dropped, created and filled from files of delimited text: either each from a file of its own, in chunks, or several from
one file, in batches that are split by shares.
-/

namespace TraceArtifacts.Loading

def firstCell (result : Value) : Outcome Value := do (← result.item (.int 0)).item (.int 0)

def fileRows (path : Value) : Loader (List Row) := do
  let text ← Loader.fileText path
  return (rowsOf (plainBreaks text)).map fun r => r.map .text

def tableExists (schema table : Value) : Loader Bool := do
  Loader.execute ("SELECT COUNT(*) from TABLES WHERE SCHEMA_NAME='" ++ schema.display ++
    "' AND TABLE_NAME='" ++ table.display ++ "'")
  return (← firstCell (← Loader.fetch)).same (.int 1)

def rowCount (schema table : Value) : Loader Value := do
  Loader.execute ("SELECT COUNT(*) from " ++ schema.display ++ "." ++ table.display)
  firstCell (← Loader.fetch)

def recreateTable (table columns : Value) : Loader Unit := do
  let table ← table.asText
  try Loader.execute ("DROP TABLE " ++ table)
  catch _ => Loader.print "Drop unsuccessful"
  let columns ← columns.asText
  Loader.reach
  Loader.print ("Creating table " ++ table)
  Loader.execute ("CREATE COLUMN TABLE " ++ table ++ columns)

def insertStatement (table inserts : Value) : Outcome String := do
  return "insert into " ++ (← table.asText) ++ (← inserts.asText)

/-- The chunks of rows for a size that may be any number. A size that is a double cuts no rows: it is refused at
the first chunk, if there is one to be tried. -/
def chunksFor (size : Value) (rows : List Row) : Outcome (List (Nat × List Row)) := do
  match size.number? with
  | some (.inl k) => if k = 0 then throw .zeroDivision else return chunks k rows
  | some (.inr x) =>
      if x == 0.0 then throw .zeroDivision
      let q := Float.ofNat rows.length / x
      let whole ← if q < 0.0 then (fun i => -i) <$> Share.floorOf (-q) else Share.floorOf q
      if 0 < whole + 3 then throw .badOperand else return []
  | none => throw .badOperand

/-- Fills a table as its description tells, in chunks: the table comes first, then the file. Without a file the
table is created all the same. -/
def loadDescribed (columns inserts size description : Value) : Loader Unit := do
  let table ← description.item (.int 0)
  recreateTable table columns
  let rows ← fileRows (← description.item (.int 1))
  let statement ← insertStatement table inserts
  Loader.print ("Rows to load is " ++ toString rows.length)
  (← chunksFor size rows).forM fun (i, chunk) => do
    Loader.executeMany statement (.list (chunk.map .list))
    Loader.print ("Rows inserted into " ++ table.display ++ " in chunk " ++ toString i ++ ": " ++
      toString chunk.length)

def loadFiles (descriptions columns inserts size : Value) : Loader Unit :=
  match descriptions with
  | .object fs => fs.forM fun f => loadDescribed columns inserts size f.2
  | _ => throw .badReceiver

/-- Fills tables unless all of them are there, and tells which. -/
def loadMissing (schema tables descriptions columns inserts size : Value) (force : Bool) :
    Loader (List Value) := do
  let names ← tables.members
  let found ← names.mapM (tableExists schema)
  if force || !found.all id then
    loadFiles descriptions columns inserts size
    Loader.print "Loaded new data"
  else
    let counts ← names.mapM (rowCount schema)
    Loader.print ("Already loaded for \n" ++ tables.display ++ " \nwith counts\n" ++
      (Value.list counts).spelled)
  return names

def insertRows (table inserts rows : Value) : Loader Unit := do
  let statement ← insertStatement table inserts
  let count := (← rows.members).length
  if 0 < count then Loader.executeMany statement rows

def insertParts (inserts : Value) : List Value → List (List Row) → Loader Unit
  | [], _ => pure ()
  | _ :: _, [] => throw .outOfRange
  | table :: tables, rows :: parts => do
      insertRows table inserts (.list (rows.map .list))
      insertParts inserts tables parts

structure GivenShares where
  train : Value
  valid : Value
  test : Value
deriving Inhabited

def loadShares (tables inserts : Value) (shares : Shares) (batch : List Row) : Loader Unit := do
  let parts ← shares.prepare batch
  insertParts inserts (← tables.positioned) parts

def loadBatch (tables inserts : Value) (given : GivenShares) (batch : List Row) : Loader Unit := do
  loadShares tables inserts (← Shares.ofValues batch.length given.train given.valid given.test) batch

def loadRows (tables inserts : Value) (given : GivenShares) (rows : Value) : Loader Unit := do
  loadBatch tables inserts given (← (do (← rows.members).mapM Value.members : Outcome _))

def progress (loaded : Nat) (total : Float) : Outcome Int :=
  Share.floorOf (Float.ofNat loaded / total * 100.0)

def loadBatches (tables inserts : Value) (given : GivenShares) (total : Float) :
    Nat → List (List Row) → Loader Unit
  | _, [] => pure ()
  | loaded, batch :: rest => do
      loadBatch tables inserts given batch
      let loaded := loaded + batch.length
      Loader.print ("Data Loaded:" ++ toString (← progress loaded total) ++ "%")
      loadBatches tables inserts given total loaded rest

def doubleBatches (total size : Float) (rows : List α) : List (List α) :=
  let size := if total < size then total else size
  match Share.floorOf total, Share.floorOf size with
  | .ok n, .ok k =>
      if Float.ofInt k != size then []
      else if Float.ofInt n == total then batches n k rows
      else (batches n k rows).filter fun b => (b.length : Int) == k
  | _, _ => []

def doubleOf : Int ⊕ Float → Float
  | .inl i => Float.ofInt i
  | .inr x => x

def batchesFor (total size : Value) (rows : List α) : Outcome (List (List α)) :=
  match rows, total.number?, size.number? with
  | [], _, _ => .ok []
  | rows, some (.inl n), some (.inl k) => .ok (batches n k rows)
  | rows, some n, some k => .ok (doubleBatches (doubleOf n) (doubleOf k) rows)
  | _, _, _ => .error .badOperand

def loadSplit (tables inserts path total : Value) (given : GivenShares) (size : Value) :
    Loader Unit := do
  let bs ← batchesFor total size (← fileRows path)
  loadBatches tables inserts given ((total.number?.map doubleOf).getD 0.0) 0 bs

def splitName (tables : Value) : Outcome (String × String) :=
  match tables.positioned with
  | .ok (.text t :: _) =>
      match cutText '.' t with
      | schema :: table :: _ => .ok (schema, table)
      | _ => .error .unset
  | _ => .error .unset

def createAndLoad (tables columns inserts path total : Value) (given : GivenShares) (size : Value) :
    Loader Unit := do
  (← tables.positioned).forM fun t => recreateTable t columns
  loadSplit tables inserts path total given size

/-- Fills tables from one file unless the first one has as many rows as the file has lines. Whatever goes wrong at
first is tried once more. -/
def loadOnce (tables columns inserts path : Value) (given : GivenShares) (size force : Value) :
    Loader Unit := do
  let total := Value.int (lineCount (plainBreaks (← Loader.fileText path)).toList)
  let (schema, table) ← splitName tables
  try
    let count ← Loader.rowsIn (.text table)
    if count.same total && force.same (.bool false) then
      Loader.print ("Table " ++ table ++ " exists and data exists")
    else createAndLoad tables columns inserts path total given size
  catch _ =>
    Loader.print ("Table " ++ table ++ " doesn't exist in schema " ++ schema)
    Loader.print ("Creating table " ++ table ++ " in schema " ++ schema ++ " ....")
    createAndLoad tables columns inserts path total given size

def loadShared (tables columns inserts path : Value) (given : GivenShares) (size force : Value) :
    Loader Unit := do
  let total ← (← given.train.plus given.valid).plus given.test
  if total.same (.int 1) then loadOnce tables columns inserts path given size force
  else
    Loader.print ("Invalid Value Error: Sum of train_percentage(" ++ given.train.display ++
      "), valid_percentage(" ++ given.valid.display ++ "), test_percentage(" ++ given.test.display ++
      ") not equal to 1")

def dropTable (schema table : Value) : Loader Unit := do
  let _ ← schema.asText
  let table ← table.asText
  try
    Loader.execute ("DROP TABLE " ++ table)
    Loader.print "Drop Successful"
  catch _ => Loader.print "Drop unsuccessful"

end TraceArtifacts.Loading
