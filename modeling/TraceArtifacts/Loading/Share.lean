import TraceArtifacts.Loading.Batch
import TraceArtifacts.Loading.Shuffle
import TraceArtifacts.Value

/-!
# Shares of rows

A batch is split into a training, a validation and a test part by their shares.
-/

namespace TraceArtifacts.Loading

inductive Share where
  | whole (i : Int)
  | double (x : Float)
  | exact (q : Rat)
deriving Inhabited

namespace Share

def ofValue (v : Value) : Outcome Share :=
  match v.number? with
  | some (.inl i) => .ok (whole i)
  | some (.inr x) => .ok (double x)
  | none => .error .badOperand

def toFloat : Share → Float
  | whole i => Float.ofInt i
  | double x => x
  | exact q => Float.ofInt q.num / Float.ofNat q.den

def add : Share → Share → Share
  | whole i, whole j => whole (i + j)
  | exact p, exact q => exact (p + q)
  | whole i, exact q => exact (i + q)
  | exact p, whole j => exact (p + j)
  | a, b => double (a.toFloat + b.toFloat)

def isAll : Share → Bool
  | whole i => i == 1
  | double x => x == 1.0
  | exact q => q == 1

def isPositive : Share → Bool
  | whole i => decide (0 < i)
  | double x => x > 0.0
  | exact q => decide (0 < q)

def floorOf (x : Float) : Outcome Int :=
  match Decimal.partsOf x with
  | .undefined => .error (.refused "cannot convert float NaN to integer")
  | .infinite _ => .error .overflow
  | .finite negative b =>
      let down := b.scaled / Decimal.Binary.scale
      if negative then
        .ok (-(down : Int) - if b.scaled % Decimal.Binary.scale = 0 then 0 else 1)
      else .ok down

def rowsOf (n : Nat) : Share → Outcome Int
  | whole i => .ok (n * i)
  | double x => floorOf (Float.ofNat n * x)
  | exact q => .ok ((n : Rat) * q).floor

end Share

structure Shares where
  train : Share
  valid : Share
  test : Share
deriving Inhabited

abbrev Row := List Value

def withoutEmpties (r : Row) : Row := r.map fun v => if v.isTruthy then v else .null

def Share.stop (n : Nat) (start : Int) (s : Share) : Outcome Int := do
  if s.isPositive then return start + (← s.rowsOf n) else return start

def Shares.split (s : Shares) (rows : List Row) : Outcome (List Row × List Row × List Row) := do
  let n := rows.length
  let train ← s.train.stop n 0
  let valid ← s.valid.stop n train
  let _ ← s.test.stop n valid
  return (if s.train.isPositive then slice rows 0 train else [],
    if s.valid.isPositive then slice rows train valid else [],
    if s.test.isPositive then slice rows valid n else [])

def Shares.ofValues (n : Nat) (train valid test : Value) : Outcome Shares := do
  let tried (v : Value) : Outcome Share := do
    let share ← Share.ofValue v
    let _ ← share.stop n 0
    return share
  return ⟨← tried train, ← tried valid, ← tried test⟩

def shuffleSeed : UInt32 := 4

def Shares.prepare (s : Shares) (batch : List Row) : Outcome (List (List Row)) := do
  let rows := shuffled shuffleSeed (batch.map withoutEmpties)
  let (train, valid, test) ← s.split rows
  return [rows, train, valid, test]

end TraceArtifacts.Loading
