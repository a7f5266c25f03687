import TraceArtifacts.Value

/-!
# Lines

Entries are written one after the other. An empty entry is left out, and so is the separator that would follow it; the last entry
has no separator.
-/

namespace TraceArtifacts

def Text.withPlainBreaks : List Char → List Char
  | [] => []
  | '\r' :: '\n' :: rest => '\n' :: withPlainBreaks rest
  | '\r' :: rest => '\n' :: withPlainBreaks rest
  | c :: rest => c :: withPlainBreaks rest

def plainBreaks (s : String) : String := String.ofList (Text.withPlainBreaks s.toList)

def joinEntries (separator indent : String) : List String → String
  | [] => ""
  | [e] => if e = "" then "" else indent ++ e
  | e :: es =>
      (if e = "" then "" else indent ++ e ++ separator) ++ joinEntries separator indent es

def joinLines (entries : List String) : String := joinEntries "\n" "" entries

def entryText (v : Value) : Outcome String := if v.isTruthy then v.asText else .ok ""

def joinMembers (entries separator indent : Value) : Outcome String := do
  let texts ← (← entries.members).mapM entryText
  if texts.all (· == "") then return ""
  let indent ← indent.asText
  if texts.dropLast.all (· == "") then return joinEntries "" indent texts
  return joinEntries (← separator.asText) indent texts

end TraceArtifacts
