import TraceArtifacts.Text.Blank
import TraceArtifacts.Text.Case
import TraceArtifacts.Text.Scan
import TraceArtifacts.Text.Word

/-!
# The data set behind a select

A select statement may be nested; the data set is what follows the last `FROM`.
-/

namespace TraceArtifacts

def fromLastSource (s : List Char) : List Char :=
  Text.fromPosition (Text.findNth "FROM".toList s (Text.countWords "FROM".toList s)) s

def betweenBlanks (s : List Char) : List Char :=
  if Text.count [' '] s > 1 then
    match Text.findNth [' '] s 1, Text.findNth [' '] s 2 with
    | some i, some j => (s.take j).drop i
    | _, _ => []
  else Text.fromPosition (Text.findNth [' '] s 1) s

def parseDataset (select : String) : Option String × String :=
  let name := Text.strip (betweenBlanks (fromLastSource (Text.upper select.toList)))
  let name := name.filter fun c => c != ')' && c != '"'
  match Text.cut '.' name with
  | [schema, table] => (some (String.ofList schema), String.ofList table)
  | table :: _ => (none, String.ofList table)
  | [] => (none, "")

end TraceArtifacts
