import TraceArtifacts.Value

/-!
# Reading JSON text

A value is read from the start of a text, and the rest is returned with it. Besides the standard forms the three names of numbers
that are not finite are read.
-/

namespace TraceArtifacts.Json

def skipBlanks (s : List Char) : List Char :=
  s.dropWhile fun c => c == ' ' || c == '\t' || c == '\n' || c == '\r'

def hexValue? (s : List Char) : Option Nat :=
  s.foldl (fun n c => do
    let n ← n
    if '0' ≤ c ∧ c ≤ '9' then some (16 * n + (c.toNat - 48))
    else if 'a' ≤ c ∧ c ≤ 'f' then some (16 * n + (c.toNat - 87))
    else if 'A' ≤ c ∧ c ≤ 'F' then some (16 * n + (c.toNat - 55))
    else none) (some 0)

def bytesOfHex : List Char → List UInt8
  | c :: d :: rest => UInt8.ofNat ((hexValue? [c, d]).getD 0) :: bytesOfHex rest
  | _ => []

def readUnit? : List Char → Option (Nat × List Char)
  | a :: b :: c :: d :: rest => (hexValue? [a, b, c, d]).map (·, rest)
  | _ => none

def readEscape? : List Char → Option (Char × List Char)
  | '"' :: rest => some ('"', rest)
  | '\\' :: rest => some ('\\', rest)
  | '/' :: rest => some ('/', rest)
  | 'b' :: rest => some (Char.ofNat 8, rest)
  | 'f' :: rest => some (Char.ofNat 12, rest)
  | 'n' :: rest => some ('\n', rest)
  | 'r' :: rest => some ('\r', rest)
  | 't' :: rest => some ('\t', rest)
  | 'u' :: rest => do
      let (high, rest) ← readUnit? rest
      if 0xD800 ≤ high ∧ high < 0xDC00 then
        match rest with
        | '\\' :: 'u' :: rest' =>
            match readUnit? rest' with
            | some (low, rest'') =>
                if 0xDC00 ≤ low ∧ low < 0xE000 then
                  some (Char.ofNat (0x10000 + (high - 0xD800) * 1024 + (low - 0xDC00)), rest'')
                else some (Char.ofNat 0xFFFD, rest)
            | none => none
        | _ => some (Char.ofNat 0xFFFD, rest)
      else if 0xDC00 ≤ high ∧ high < 0xE000 then some (Char.ofNat 0xFFFD, rest)
      else some (Char.ofNat high, rest)
  | _ => none

/-- Reads a text behind its opening quote; what is read so far is given in reverse. The number of
steps bounds the length. -/
def readText? : Nat → List Char → List Char → Option (String × List Char)
  | 0, _, _ => none
  | fuel + 1, read, s =>
      match s with
      | [] => none
      | '"' :: rest => some (String.ofList read.reverse, rest)
      | '\\' :: rest =>
          match readEscape? rest with
          | some (c, rest) => readText? fuel (c :: read) rest
          | none => none
      | c :: rest => if c.toNat < 32 then none else readText? fuel (c :: read) rest

def decimalValue (s : List Char) : Nat := s.foldl (fun n c => 10 * n + (c.toNat - 48)) 0

def spanDigits (s : List Char) : List Char × List Char :=
  (s.takeWhile Char.isDigit, s.dropWhile Char.isDigit)

def readFraction : List Char → List Char × List Char
  | '.' :: rest =>
      match spanDigits rest with
      | ([], _) => ([], '.' :: rest)
      | (ds, rest) => (ds, rest)
  | s => ([], s)

def readExponent (s : List Char) : Option Int × List Char :=
  match s with
  | c :: rest =>
      if c = 'e' ∨ c = 'E' then
        let (negative, body) := match rest with
          | '-' :: r => (true, r)
          | '+' :: r => (false, r)
          | r => (false, r)
        match spanDigits body with
        | ([], _) => (none, s)
        | (ds, rest) =>
            (some (if negative then -(decimalValue ds : Int) else decimalValue ds), rest)
      else (none, s)
  | [] => (none, s)

/-- Reads a number: a whole one if it has neither fraction nor exponent. -/
def readNumber? (s : List Char) : Option (Value × List Char) :=
  let (negative, body) := match s with
    | '-' :: rest => (true, rest)
    | _ => (false, s)
  let (whole, rest) := match body with
    | '0' :: rest => (['0'], rest)
    | _ => spanDigits body
  if whole.isEmpty then none
  else
    let (fraction, rest) := readFraction rest
    let (exponent, rest) := readExponent rest
    if fraction.isEmpty && exponent.isNone then
      let n : Int := decimalValue whole
      some (.int (if negative then -n else n), rest)
    else
      let shift : Int := exponent.getD 0 - fraction.length
      let x := Float.ofScientific (decimalValue (whole ++ fraction)) (decide (shift < 0))
        shift.natAbs
      some (.float (if negative then -x else x), rest)

def dropWord? (word : String) (s : List Char) : Option (List Char) :=
  if word.toList.isPrefixOf s then some (s.drop word.length) else none

def readAtom? (s : List Char) : Option (Value × List Char) :=
  match dropWord? "null" s with
  | some rest => some (.null, rest)
  | none =>
  match dropWord? "true" s with
  | some rest => some (.bool true, rest)
  | none =>
  match dropWord? "false" s with
  | some rest => some (.bool false, rest)
  | none =>
  match dropWord? "NaN" s with
  | some rest => some (.float (0.0 / 0.0), rest)
  | none =>
  match dropWord? "Infinity" s with
  | some rest => some (.float (1.0 / 0.0), rest)
  | none =>
  match dropWord? "-Infinity" s with
  | some rest => some (.float (-1.0 / 0.0), rest)
  | none => readNumber? s

mutual

/-- Reads a value behind white space; the number of steps bounds its size. -/
def readValue? : Nat → List Char → Option (Value × List Char)
  | 0, _ => none
  | fuel + 1, s =>
      match skipBlanks s with
      | '"' :: rest => (readText? (rest.length + 1) [] rest).map fun (t, rest) => (.text t, rest)
      | '[' :: rest =>
          match skipBlanks rest with
          | ']' :: rest => some (.list [], rest)
          | rest => readMembers? fuel [] rest
      | '\x7b' :: rest =>
          match skipBlanks rest with
          | '\x7d' :: rest => some (.object [], rest)
          | rest => readEntries? fuel [] rest
      | s => readAtom? s

def readMembers? : Nat → List Value → List Char → Option (Value × List Char)
  | 0, _, _ => none
  | fuel + 1, read, s => do
      let (v, rest) ← readValue? fuel s
      match skipBlanks rest with
      | ',' :: rest => readMembers? fuel (v :: read) rest
      | ']' :: rest => some (.list (v :: read).reverse, rest)
      | _ => none

def readEntries? : Nat → Fields → List Char → Option (Value × List Char)
  | 0, _, _ => none
  | fuel + 1, read, s => do
      match skipBlanks s with
      | '"' :: rest =>
          let (key, rest) ← readText? (rest.length + 1) [] rest
          match skipBlanks rest with
          | ':' :: rest =>
              let (v, rest) ← readValue? fuel rest
              let read := (key, v) :: read
              match skipBlanks rest with
              | ',' :: rest => readEntries? fuel read rest
              | '\x7d' :: rest => some (.object (Fields.ofPairs read.reverse), rest)
              | _ => none
          | _ => none
      | _ => none

end

def parse? (s : String) : Option Value := do
  let cs := s.toList
  let (v, rest) ← readValue? (2 * cs.length + 2) cs
  if (skipBlanks rest).isEmpty then some v else none

end TraceArtifacts.Json
