import TraceArtifacts.Decimal.Fixed
import TraceArtifacts.Draw.Sketch

/-!
# Confusion matrices

A confusion matrix counts, for each true class, how often each class was predicted.
-/

namespace TraceArtifacts.Draw

structure Confusion where
  classes : List Value
  rows : List (List Value)
deriving Inhabited

def distinctValues (vs : List Value) : List Value :=
  vs.foldl (fun seen v => if seen.any v.same then seen else seen ++ [v]) []

def rowsOfWidth (width : Nat) : Nat → List α → List (List α)
  | 0, _ => []
  | n + 1, xs => xs.take width :: rowsOfWidth width n (xs.drop width)

def confusionOf (f : Frame) : Drawing Confusion := do
  match ← f.columns with
  | [] => throw .outOfRange
  | first :: _ => do
      let classes := uniform (distinctValues (← (← f.apply "distinct" [.text first]).cells first))
      let counts ← (← f.collect).column "COUNT"
      let n := classes.length
      if counts.length ≠ n * n then throw (.refused "cannot reshape array")
      return { classes, rows := rowsOfWidth n n counts }

def asDouble (v : Value) : Outcome Float :=
  match v.number? with
  | some (.inl i) => .ok (Float.ofInt i)
  | some (.inr x) => .ok x
  | none => .error .badOperand

def countOf (v : Value) : Outcome Float :=
  match v with
  | .text _ => .error (.refused "could not convert string to float")
  | v => asDouble v

def sharesOf (row : List Float) : List Value :=
  let total := row.foldl (· + ·) 0.0
  row.map fun x => .float (x / total)

def cellText (shares : Bool) (v : Value) : Outcome String := do
  if shares then return Decimal.fixed 2 (← asDouble v)
  match v with
  | .int i => return toString i
  | .bool b => return if b then "1" else "0"
  | _ => throw (.refused "Unknown format code 'd' for object of type 'float'")

def greatestCell (rows : List (List Value)) : Outcome Float := do
  match ← rows.flatten.mapM asDouble with
  | [] => throw (.refused "zero-size array to reduction operation maximum which has no identity")
  | x :: xs => return xs.foldl (fun a b => if a < b || b.isNaN then b else a) x

def drawCell (shares : Bool) (threshold : Float) (i j : Nat) (v : Value) : Drawing Unit := do
  let text ← cellText shares v
  let x ← asDouble v
  Drawing.tell' picture "text" [.int j, .int i, .text text]
    [("horizontalalignment", .text "center"),
     ("color", .text (if x > threshold then "white" else "black"))]

def drawConfusion (f : Frame) (shares : Bool) (title colours : Value) : Drawing Unit := do
  let c ← confusionOf f
  let rows ← if shares then
      (do return (← c.rows.mapM fun r => r.mapM countOf).map sharesOf : Outcome _)
    else pure c.rows
  Drawing.tell' picture "imshow" [.list (rows.map .list)]
    [("interpolation", .text "nearest"), ("cmap", colours)]
  Drawing.tell' picture "title" [title]
  Drawing.tell' picture "colorbar"
  let ticks := Value.list ((List.range c.classes.length).map fun (i : Nat) => .int i)
  Drawing.tell' picture "xticks" [ticks, .list c.classes] [("rotation", .int 45)]
  Drawing.tell' picture "yticks" [ticks, .list c.classes]
  let threshold := (← greatestCell rows) / 2.0
  rows.zipIdx.forM fun (row, i) => row.zipIdx.forM fun (v, j) => drawCell shares threshold i j v
  Drawing.tell' picture "tight_layout"
  Drawing.tell' picture "ylabel" [.text "True label"]
  Drawing.tell' picture "xlabel" [.text "Predicted label"]

end TraceArtifacts.Draw
