import TraceArtifacts.Decimal.Binary

/-!
# Decimals with a fixed number of places

The exact value is rounded to the nearest multiple of the last place, a half to the even neighbour.
-/

namespace TraceArtifacts.Decimal

def withPoint (places units : Nat) : List Char :=
  let ds := padLeft (places + 1) (digits units)
  let whole := ds.take (ds.length - places)
  if places = 0 then whole else whole ++ '.' :: ds.drop (ds.length - places)

def unitsOf (places : Nat) (b : Binary) : Nat :=
  roundHalfEven (b.scaled * Nat.pow 10 places) Binary.scale

def fixed (places : Nat) (x : Float) : String :=
  match partsOf x with
  | .undefined => "nan"
  | .infinite negative => if negative then "-inf" else "inf"
  | .finite negative b =>
      String.ofList ((if negative then ['-'] else []) ++ withPoint places (unitsOf places b))

end TraceArtifacts.Decimal
