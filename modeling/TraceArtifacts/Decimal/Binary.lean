/-!
# Double-precision numbers in exact terms

A finite double is a whole number times a power of two.
-/

namespace TraceArtifacts.Decimal

structure Binary where
  /-- The whole number, below `2 ^ 53`. -/
  mantissa : Nat
  /-- The power of two, counted from the smallest one there is. -/
  exponent : Nat
deriving Repr, DecidableEq

inductive Parts where
  | finite (negative : Bool) (magnitude : Binary)
  | infinite (negative : Bool)
  | undefined
deriving Repr, DecidableEq

def partsOf (x : Float) : Parts :=
  let bits := x.toBits.toNat
  let negative := bits / Nat.pow 2 63 == 1
  let exponent := bits / Nat.pow 2 52 % 2048
  let fraction := bits % Nat.pow 2 52
  if exponent = 2047 then if fraction = 0 then .infinite negative else .undefined
  else if exponent = 0 then .finite negative ⟨fraction, 0⟩
  else .finite negative ⟨fraction + Nat.pow 2 52, exponent - 1⟩

def Binary.scaled (b : Binary) : Nat := b.mantissa * Nat.pow 2 b.exponent

def Binary.scale : Nat := Nat.pow 2 1074

def roundHalfEven (num den : Nat) : Nat :=
  let q := num / den
  let twice := 2 * (num % den)
  if twice < den then q
  else if den < twice then q + 1
  else if q % 2 = 0 then q else q + 1

def digits (n : Nat) : List Char := Nat.toDigits 10 n

def padLeft (width : Nat) (ds : List Char) : List Char :=
  List.replicate (width - ds.length) '0' ++ ds

end TraceArtifacts.Decimal
