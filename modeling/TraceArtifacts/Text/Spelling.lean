import TraceArtifacts.Text.Quoted
import TraceArtifacts.Value

/-!
# Spelled values

Values in messages. Texts in sequences and records are quoted; a text by itself is not.
-/

namespace TraceArtifacts.Value

mutual

def spelled : Value → String
  | .null => "None"
  | .bool b => if b then "True" else "False"
  | .int i => toString i
  | .float x => Decimal.shortest x
  | .text s => String.ofList (Text.quoted s.toList)
  | .list xs => "[" ++ spelledMembers xs ++ "]"
  | .object fs => "\x7b" ++ spelledEntries fs ++ "\x7d"

def spelledMembers : List Value → String
  | [] => ""
  | [x] => spelled x
  | x :: y :: rest => spelled x ++ ", " ++ spelledMembers (y :: rest)

def spelledEntries : List (String × Value) → String
  | [] => ""
  | [(k, v)] => String.ofList (Text.quoted k.toList) ++ ": " ++ spelled v
  | (k, v) :: f :: rest =>
      String.ofList (Text.quoted k.toList) ++ ": " ++ spelled v ++ ", " ++ spelledEntries (f :: rest)

end

def display : Value → String
  | .text s => s
  | v => v.spelled

end TraceArtifacts.Value
