import TraceArtifacts.Decimal.Significant
import TraceArtifacts.Text.Spelling

/-!
# Layouts of fields

How a value is laid out in a field of a template: a fill and an alignment, a sign, a least width, a separator of thousands, a number
of digits and a code.
-/

namespace TraceArtifacts.Text

def greatestNumber : Nat := 9223372036854775807

def spelled? (s : List Char) : Option Nat :=
  if s.isEmpty then none
  else s.foldl (fun n c => do return 10 * (← n) + (← digitValue? c)) (some 0)

def numberOf? (s : List Char) : Outcome (Option Nat) :=
  match spelled? s with
  | some n => if n ≤ greatestNumber then .ok (some n) else .error (.template .hugeNumber)
  | none => .ok none

inductive LaidKind where
  | text
  | whole
  | truth
  | real
deriving Repr, DecidableEq

def LaidKind.word : LaidKind → String
  | text => "str"
  | whole => "int"
  | truth => "bool"
  | real => "float"

structure Layout where
  fill : Char := ' '
  /-- On which side the value stands; behind its sign for an equals sign. -/
  align : Char
  /-- Which sign numbers have that are not negative. -/
  sign : Option Char := none
  zero : Bool := false
  alternate : Bool := false
  width : Nat := 0
  separator : Option Char := none
  /-- The greatest length of a text, or the number of digits. -/
  precision : Option Nat := none
  code : Option Char := none

def isAlignment (c : Char) : Bool := c == '<' || c == '>' || c == '=' || c == '^'

def readAlignment (s : List Char) : Option Char × Option Char × List Char :=
  match s with
  | f :: a :: rest =>
      if isAlignment a then (some f, some a, rest)
      else if isAlignment f then (none, some f, a :: rest)
      else (none, none, s)
  | [a] => if isAlignment a then (none, some a, []) else (none, none, s)
  | [] => (none, none, [])

def dropMark (mark : Char) (s : List Char) : Bool × List Char :=
  match s with
  | c :: rest => if c = mark then (true, rest) else (false, s)
  | [] => (false, [])

def readWidth (s : List Char) : Outcome (Option Nat × List Char) :=
  let digits := s.takeWhile fun c => (digitValue? c).isSome
  match spelled? digits with
  | none => .ok (none, s)
  | some n =>
      if n ≤ greatestNumber then .ok (some n, s.drop digits.length)
      else .error (.template .hugeWidth)

/-- Refuses a separator of thousands with a code that does not take it. -/
def checkSeparator (kind : LaidKind) (l : Layout) : Outcome Unit :=
  match l.separator with
  | none => .ok ()
  | some sep =>
      match l.code with
      | none => if kind = .text then .error (.template (.separatorWith sep 's')) else .ok ()
      | some code =>
          if "defgEG%F".toList.contains code || sep == '_' && "boxX".toList.contains code then .ok ()
          else .error (.template (.separatorWith sep code))

def readLayout (kind : LaidKind) (spec : List Char) : Outcome Layout := do
  let (fill, align, s) := readAlignment spec
  let (sign, s) : Option Char × List Char :=
    match s with
    | c :: rest => if c = ' ' ∨ c = '+' ∨ c = '-' then (some c, rest) else (none, s)
    | [] => (none, s)
  let (zero, s) := dropMark 'z' s
  let (alternate, s) := dropMark '#' s
  let (padded, s) := if fill.isSome then (false, s) else dropMark '0' s
  let usual := if kind = .text then '<' else if padded then '=' else '>'
  let (width, s) ← readWidth s
  let (comma, s) := dropMark ',' s
  let (underscore, s) := dropMark '_' s
  if comma && underscore then throw (.template .bothSeparators)
  if underscore && s.head? == some ',' then throw (.template .bothSeparators)
  let (point, s) := dropMark '.' s
  let (precision, s) ← if point then readWidth s else pure (none, s)
  if point && precision.isNone then throw (.template .missingPrecision)
  if 1 < s.length then throw (.template (.badSpec (String.ofList spec) kind.word))
  let l : Layout :=
    { fill := fill.getD (if padded then '0' else ' '), align := align.getD usual, sign, zero, alternate
      width := width.getD 0
      separator := if comma then some ',' else if underscore then some '_' else none
      precision, code := s.head? }
  checkSeparator kind l
  return l

def filledUp (l : Layout) (s : List Char) : List Char :=
  let room := l.width - s.length
  let before := if l.align == '>' || l.align == '=' then room
    else if l.align == '^' then room / 2 else 0
  List.replicate before l.fill ++ s ++ List.replicate (room - before) l.fill

def layText (spec s : List Char) : Outcome (List Char) := do
  let l ← readLayout .text spec
  if let some code := l.code then
    if code != 's' then throw (.template (.unknownCode code LaidKind.text.word))
  match l.sign with
  | some ' ' => throw (.template .spaceOnText)
  | some _ => throw (.template .signOnText)
  | none => pure ()
  if l.zero then throw (.template .zeroOnText)
  if l.alternate then throw (.template .alternateOnText)
  if l.align == '=' then throw (.template .padAfterSignOnText)
  return filledUp l (match l.precision with
    | some n => s.take n
    | none => s)

def grouped (separator : Char) (size : Nat) : Nat → List Char → Nat → List Char
  | 0, ds, _ => ds
  | fuel + 1, ds, least =>
      let taken := min size (max (max ds.length least) 1)
      let group := Decimal.padLeft taken (ds.drop (ds.length - taken))
      let rest := ds.take (ds.length - taken)
      if rest.isEmpty && least ≤ taken then group
      else grouped separator size fuel rest (least - taken - 1) ++ separator :: group

def signOf (l : Layout) (negative : Bool) : List Char :=
  if negative then ['-']
  else match l.sign with
    | some '+' => ['+']
    | some ' ' => [' ']
    | _ => []

/-- Lays a number out: its sign, a mark, its whole digits and what follows them. Zeros fill the field between the
sign and the digits, in groups if there are groups. -/
def layParts (l : Layout) (negative : Bool) (mark ds tail : List Char) : List Char :=
  let sign := signOf l negative
  let least := if l.fill == '0' && l.align == '=' then
    l.width - (sign.length + mark.length + tail.length) else 0
  let body := if ds.isEmpty then []
    else match l.separator with
      | none => Decimal.padLeft least ds
      | some sep =>
          let size := match l.code with
            | some c => if "boxX".toList.contains c then 4 else 3
            | none => 3
          grouped sep size (ds.length + least + 1) ds least
  let room := l.width - (sign.length + mark.length + body.length + tail.length)
  if l.align == '=' then sign ++ mark ++ List.replicate room l.fill ++ body ++ tail
  else filledUp l (sign ++ mark ++ body ++ tail)

def isRealCode (c : Char) : Bool := "eEfFgG%".toList.contains c

/-- The text of a magnitude under a code, and whether it is a number at all. -/
def realText (l : Layout) (b : Decimal.Binary) : List Char :=
  match l.code with
  | none =>
      match l.precision with
      | none =>
          if b.mantissa = 0 then ['0', '.', '0']
          else
            let (ds, point) := Decimal.shortestDigits b
            if -4 < point ∧ point ≤ 16 then Decimal.positional ds point
            else Decimal.withExponent l.alternate ds point
      | some p =>
          let text := Decimal.general l.alternate (max p 1) ((max p 1 : Nat) - 1 : Int) b
          if text.contains '.' || text.contains 'e' then text else text ++ ['.', '0']
  | some code =>
      let p := l.precision.getD 6
      if code == 'f' || code == 'F' || code == '%' then
        Decimal.withPoint p (Decimal.unitsOf p b) ++ (if l.alternate && p = 0 then ['.'] else [])
      else if code == 'e' || code == 'E' then
        let (ds, point) := Decimal.significant (p + 1) b
        Decimal.withExponent l.alternate ds point
      else Decimal.general l.alternate (max p 1) (max p 1 : Nat) b

def layReal (l : Layout) (x : Float) : List Char :=
  let x := if l.code == some '%' then x * 100 else x
  let upper (s : List Char) : List Char :=
    if [some 'E', some 'F', some 'G'].contains l.code then s.map Char.toUpper else s
  let mark := if l.code == some '%' then ['%'] else []
  match Decimal.partsOf x with
  | .undefined => layParts l false [] [] (upper "nan".toList ++ mark)
  | .infinite negative => layParts l negative [] [] (upper "inf".toList ++ mark)
  | .finite negative b =>
      let s := upper (realText l b)
      let isZero := (s.takeWhile fun c => c != 'e' && c != 'E').all fun c => !c.isDigit || c == '0'
      let ds := s.takeWhile Char.isDigit
      layParts l (negative && !(l.zero && isZero)) [] ds (s.drop ds.length ++ mark)

def wholeDigits (l : Layout) (n : Nat) : List Char × List Char :=
  let mark (s : String) : List Char := if l.alternate then s.toList else []
  match l.code with
  | some 'b' => (mark "0b", Nat.toDigits 2 n)
  | some 'o' => (mark "0o", Nat.toDigits 8 n)
  | some 'x' => (mark "0x", Nat.toDigits 16 n)
  | some 'X' => (mark "0X", (Nat.toDigits 16 n).map Char.toUpper)
  | _ => ([], Nat.toDigits 10 n)

def layWhole (kind : LaidKind) (spec : List Char) (i : Int) : Outcome (List Char) := do
  let l ← readLayout kind spec
  match l.code with
  | some c =>
      if isRealCode c then return layReal l (Float.ofInt i)
      if !"bcdoxXn".toList.contains c then throw (.template (.unknownCode c kind.word))
  | none => pure ()
  if l.precision.isSome then throw (.template .precisionOnInteger)
  if l.zero then throw (.template .zeroOnInteger)
  if l.code == some 'c' then
    if l.sign.isSome then throw (.template .signOnCharacter)
    if l.alternate then throw (.template .alternateOnCharacter)
    if i < 0 || 0x10ffff < i then throw .overflow
    return layParts l false [] [] [Char.ofNat i.toNat]
  let (mark, ds) := wholeDigits l i.natAbs
  return layParts l (i < 0) mark ds []

def laidOut (spec : List Char) (v : Value) : Outcome (List Char) := do
  if spec.isEmpty then return v.display.toList
  match v with
  | .text s => layText spec s.toList
  | .int i => layWhole .whole spec i
  | .bool b => layWhole .truth spec (if b then 1 else 0)
  | .float x =>
      let l ← readLayout .real spec
      match l.code with
      | some c =>
          if !isRealCode c && c != 'n' then throw (.template (.unknownCode c LaidKind.real.word))
      | none => pure ()
      return layReal (if l.code == some 'n' then { l with code := some 'g' } else l) x
  | _ => throw .badOperand

end TraceArtifacts.Text
