import TraceArtifacts.Decimal.Binary

/-!
# Shortest decimals

The fewest digits that read back as the same double, and of those the nearest to it.
-/

namespace TraceArtifacts.Decimal

/-- The numbers that are read as a given double, as bounds over `4 * Binary.scale`; the bounds
themselves belong to it if the mantissa is even. -/
structure Basin where
  low : Nat
  mid : Nat
  high : Nat
  /-- Whether the bounds are read as the double too. -/
  closed : Bool

def Basin.of (b : Binary) : Basin :=
  let unit := Nat.pow 2 b.exponent
  { low := 4 * b.scaled - (if b.mantissa = Nat.pow 2 52 ∧ b.exponent ≠ 0 then unit else 2 * unit)
    mid := 4 * b.scaled
    high := 4 * b.scaled + 2 * unit
    closed := b.mantissa % 2 == 0 }

def Basin.holds (basin : Basin) (num den : Nat) : Bool :=
  if basin.closed then decide (basin.low * den ≤ num ∧ num ≤ basin.high * den)
  else decide (basin.low * den < num ∧ num < basin.high * den)

/-- A decimal: `digits * 10 ^ (exponent - bias)` for the bias of the search. -/
structure Candidate where
  digits : Nat
  /-- The number of places that the last digit lies above the lowest place. -/
  exponent : Nat

def lowestPlace : Nat := 350

/-- The candidate with its last digit at a place, if one of the two neighbours of the double on that
grid reads back. -/
def candidateAt (basin : Basin) (place : Nat) : Option Candidate :=
  let step := Nat.pow 10 place * (4 * Binary.scale)
  let target := basin.mid * Nat.pow 10 lowestPlace
  let below := target / step
  let fits (n : Nat) : Bool := basin.holds (n * step) (Nat.pow 10 lowestPlace)
  let toBelow := target - below * step
  let toAbove := (below + 1) * step - target
  match fits below, fits (below + 1) with
  | true, true =>
      if toBelow < toAbove ∨ toBelow = toAbove ∧ below % 2 = 0 then some ⟨below, place⟩
      else some ⟨below + 1, place⟩
  | true, false => some ⟨below, place⟩
  | false, true => some ⟨below + 1, place⟩
  | false, false => none

def highestCandidate (basin : Basin) : Nat → Candidate
  | 0 => (candidateAt basin 0).getD ⟨0, 0⟩
  | place + 1 =>
      match candidateAt basin (place + 1) with
      | some c => if c.digits = 0 then highestCandidate basin place else c
      | none => highestCandidate basin place

def trimZeros (ds : List Char) : List Char × Nat :=
  let kept := (ds.reverse.dropWhile (· == '0')).reverse
  (kept, ds.length - kept.length)

def shortestDigits (b : Binary) : List Char × Int :=
  let c := highestCandidate (Basin.of b) (lowestPlace + 310)
  let (ds, dropped) := trimZeros (digits c.digits)
  (ds, (ds.length + dropped + c.exponent : Int) - lowestPlace)

def positional (ds : List Char) (point : Int) : List Char :=
  if point ≤ 0 then ['0', '.'] ++ List.replicate (-point).toNat '0' ++ ds
  else
    let n := point.toNat
    if ds.length ≤ n then ds ++ List.replicate (n - ds.length) '0' ++ ['.', '0']
    else ds.take n ++ '.' :: ds.drop n

def scientific (ds : List Char) (point : Int) : List Char :=
  let e := point - 1
  let mantissa := match ds with
    | [] => ['0']
    | [d] => [d]
    | d :: rest => d :: '.' :: rest
  mantissa ++ ['e', if e < 0 then '-' else '+'] ++ padLeft 2 (digits e.natAbs)

def shortest (x : Float) : String :=
  match partsOf x with
  | .undefined => "nan"
  | .infinite negative => if negative then "-inf" else "inf"
  | .finite negative b =>
      let sign := if negative then ['-'] else []
      if b.mantissa = 0 then String.ofList (sign ++ ['0', '.', '0'])
      else
        let (ds, point) := shortestDigits b
        String.ofList (sign ++
          if -4 < point ∧ point ≤ 16 then positional ds point else scientific ds point)

end TraceArtifacts.Decimal
