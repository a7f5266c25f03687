import TraceArtifacts.Decimal.Fixed
import TraceArtifacts.Decimal.Shortest

/-!
# Decimals with a number of significant digits

The exact value is rounded to the given number of digits, a half to the even neighbour. The digits are written
positionally or with an exponent.
-/

namespace TraceArtifacts.Decimal

def floorPlace : Nat := 400

def pointOf (b : Binary) : Int :=
  ((digits (b.scaled * Nat.pow 10 floorPlace / Binary.scale)).length : Int) - floorPlace

/-- The first digits of a magnitude, rounded, and the place of the point. Zero has zeros, and the point behind the
first of them. -/
def significant (count : Nat) (b : Binary) : List Char × Int :=
  if b.mantissa = 0 then (List.replicate count '0', 1)
  else
    let point := pointOf b
    let shift := (count : Int) - point
    let units := if 0 ≤ shift then roundHalfEven (b.scaled * Nat.pow 10 shift.toNat) Binary.scale
      else roundHalfEven b.scaled (Binary.scale * Nat.pow 10 (-shift).toNat)
    let ds := digits units
    if count < ds.length then (ds.take count, point + 1) else (padLeft count ds, point)

def withExponent (always : Bool) (ds : List Char) (point : Int) : List Char :=
  let e := point - 1
  ds.take 1 ++ (if ds.length < 2 && !always then [] else '.' :: ds.drop 1) ++
    ['e', if e < 0 then '-' else '+'] ++ padLeft 2 (digits e.natAbs)

def dropZeros (ds : List Char) : List Char := (trimZeros ds).1

def withoutExponent (always : Bool) (ds : List Char) (point : Int) : List Char :=
  let whole := if point ≤ 0 then ['0']
    else ds.take point.toNat ++ List.replicate (point.toNat - ds.length) '0'
  let part := List.replicate (-point).toNat '0' ++ ds.drop point.toNat
  whole ++ if part.isEmpty && !always then [] else '.' :: part

def general (always : Bool) (count : Nat) (widest : Int) (b : Binary) : List Char :=
  let (ds, point) := significant count b
  let kept := if always then ds else dropZeros ds
  let kept := if kept.isEmpty then ['0'] else kept
  if -4 < point ∧ point ≤ widest then withoutExponent always kept point
  else withExponent always kept point

end TraceArtifacts.Decimal
