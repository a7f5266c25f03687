import TraceArtifacts.Text.Case
import TraceArtifacts.Text.Substitution
import TraceArtifacts.Text.Word

/-!
# Names of database objects

Names are put together from parts of which only the alphanumeric characters are kept, in small letters. A name has at most 125
characters.
-/

namespace TraceArtifacts

def plainLower (s : String) : String := lowerText (plainText s)

def greatestNameLength : Nat := 125

def objectNameOf (parts : List String) : String :=
  String.ofList ((String.intercalate "_" (parts.map plainLower)).toList.take greatestNameLength)

def contextName (context name : String) : String := "\"" ++ context ++ "." ++ name ++ "\""

def schemaName (schema name : String) : String := schema ++ ".\"" ++ name ++ "\""

def cleanText (s : String) : String :=
  String.ofList (s.toList.filter fun c => c != '"' && c != '#')

def identifier (n : Nat) : String :=
  let digits := Nat.toDigits 16 n
  String.ofList (List.replicate (32 - digits.length) '0' ++ digits)

def isPlain (s : String) : Bool := s != "" && s.toList.all Text.isAlphanumeric

def plainValue (v : Value) : Outcome String := do
  let parts ← (← v.members).mapM Value.asTextReceiver
  return String.join (parts.filter isPlain)

end TraceArtifacts
