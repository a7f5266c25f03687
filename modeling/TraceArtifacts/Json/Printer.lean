import TraceArtifacts.Text.Quoted
import TraceArtifacts.Value

/-!
# Values as JSON text

Entries stand in the order of the record, with a blank behind each comma and colon.
-/

namespace TraceArtifacts.Json

def unitText (n : Nat) : List Char := ['\\', 'u'] ++ Text.hexPadded 4 n

def charText (c : Char) : List Char :=
  if c = '"' ∨ c = '\\' then ['\\', c]
  else if c = '\n' then ['\\', 'n']
  else if c = '\r' then ['\\', 'r']
  else if c = '\t' then ['\\', 't']
  else if c.toNat = 8 then ['\\', 'b']
  else if c.toNat = 12 then ['\\', 'f']
  else if 32 ≤ c.toNat ∧ c.toNat < 127 then [c]
  else if c.toNat < 0x10000 then unitText c.toNat
  else
    let n := c.toNat - 0x10000
    unitText (0xD800 + n / 1024) ++ unitText (0xDC00 + n % 1024)

def quotedText (s : String) : String :=
  "\"" ++ String.ofList (s.toList.flatMap charText) ++ "\""

def floatText (x : Float) : String :=
  match Decimal.partsOf x with
  | .undefined => "NaN"
  | .infinite negative => if negative then "-Infinity" else "Infinity"
  | .finite _ _ => Decimal.shortest x

mutual

def render : Value → String
  | .null => "null"
  | .bool b => if b then "true" else "false"
  | .int i => toString i
  | .float x => floatText x
  | .text s => quotedText s
  | .list xs => "[" ++ renderMembers xs ++ "]"
  | .object fs => "\x7b" ++ renderEntries fs ++ "\x7d"

def renderMembers : List Value → String
  | [] => ""
  | [x] => render x
  | x :: y :: rest => render x ++ ", " ++ renderMembers (y :: rest)

def renderEntries : List (String × Value) → String
  | [] => ""
  | [(k, v)] => quotedText k ++ ": " ++ render v
  | (k, v) :: f :: rest => quotedText k ++ ": " ++ render v ++ ", " ++ renderEntries (f :: rest)

end

end TraceArtifacts.Json
