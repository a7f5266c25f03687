import TraceArtifacts.Fault
import TraceArtifacts.Text.Blank
import TraceArtifacts.Text.Case
import TraceArtifacts.Text.Scan

/-!
# Option files

An option file has sections, each with options.
-/

namespace TraceArtifacts.Loading

/-- The options of a section, each with the lines of its value. -/
abbrev Section := List (String × List String)

structure OptionFile where
  sections : List (String × Section) := []
  defaults : Section := []
deriving Inhabited

def defaultSection : String := "DEFAULT"

structure OptionReader where
  file : OptionFile := {}
  here : Option String := none
  option : Option String := none
  indent : Nat := 0
  seen : List String := []
  seenOptions : List (String × String) := []
  unreadable : Bool := false
deriving Inhabited

namespace OptionReader

def change (name : String) (f : List String → List String) : Section → Section
  | [] => [(name, f [])]
  | (n, v) :: rest => if n = name then (n, f v) :: rest else (n, v) :: change name f rest

def changeOption (r : OptionReader) (name : String) (f : List String → List String) : OptionReader :=
  match r.here with
  | none => r
  | some here =>
      if r.file.sections.any (·.1 == here) then
        { r with file := { r.file with sections := r.file.sections.map fun (n, s) =>
            if n = here then (n, change name f s) else (n, s) } }
      else { r with file := { r.file with defaults := change name f r.file.defaults } }

def extend (r : OptionReader) (line : String) : OptionReader :=
  match r.option with
  | some name => r.changeOption name (· ++ [line])
  | none => r

def sectionName? : List Char → Option String
  | '[' :: rest =>
      match (rest.reverse.dropWhile (· != ']')).drop 1 with
      | [] => none
      | name => some (String.ofList name.reverse)
  | _ => none

def isDivider (c : Char) : Bool := c == '=' || c == ':'

def withSection (r : OptionReader) (name : String) : OptionFile :=
  if r.file.sections.any (·.1 == name) then r.file
  else { r.file with sections := r.file.sections ++ [(name, [])] }

def startSection (r : OptionReader) (name : String) : Outcome OptionReader :=
  if r.seen.contains name then .error .duplicateSection
  else if name = defaultSection then .ok { r with here := some name, option := none }
  else .ok { r with
    file := r.withSection name, here := some name, option := none, seen := name :: r.seen }

/-- Reads the line of an option. A line without a divider cannot be read; one without a name is read all the
same, but the file is not. -/
def startOption (r : OptionReader) (here : String) (value : List Char) : Outcome OptionReader :=
  match value.dropWhile fun c => !isDivider c with
  | [] => .ok { r with unreadable := true }
  | _ :: rest =>
      let name := Text.stripRight (value.takeWhile fun c => !isDivider c)
      let option := lowerText (String.ofList name)
      if r.seenOptions.contains (here, option) then .error .duplicateOption
      else
        let r := { r with
          option := if option = "" then none else some option
          seenOptions := (here, option) :: r.seenOptions
          unreadable := r.unreadable || name.isEmpty }
        .ok (r.changeOption option fun _ => [String.ofList (Text.strip rest)])

def readLine (r : OptionReader) (line : List Char) : Outcome OptionReader :=
  let value := Text.strip line
  if value.head? == some '#' || value.head? == some ';' then .ok r
  else if value.isEmpty then .ok (r.extend "")
  else
    let indent := (line.takeWhile Text.isBlank).length
    if r.option.isSome && r.indent < indent then .ok (r.extend (String.ofList value))
    else
      let r := { r with indent }
      match sectionName? value with
      | some name => r.startSection name
      | none =>
          match r.here with
          | none => .error .headlessSettings
          | some here => r.startOption here value

end OptionReader

def joinedValue (lines : List String) : String :=
  String.ofList (Text.stripRight (String.intercalate "\n" lines).toList)

def OptionFile.readMore (read : OptionFile) (text : String) : Outcome OptionFile := do
  let r ← (cutText '\n' text).foldlM (fun r l => r.readLine l.toList) ({ file := read } : OptionReader)
  if r.unreadable then throw .unreadableSettings
  return r.file

def greatestDepth : Nat := 10

/-- A value with its references resolved; nothing if one of them cannot be. -/
def resolveReferences (options : List (String × String)) : Nat → Nat → List Char → Option (List Char)
  | 0, _, _ => none
  | _ + 1, 0, _ => some []
  | _ + 1, _ + 1, [] => some []
  | depth + 1, fuel + 1, c :: rest =>
      if c ≠ '%' then (resolveReferences options (depth + 1) fuel rest).map (c :: ·)
      else
        match rest with
        | '%' :: rest => (resolveReferences options (depth + 1) fuel rest).map ('%' :: ·)
        | '(' :: rest =>
            let name := rest.takeWhile (· != ')')
            match name, rest.drop name.length with
            | _ :: _, ')' :: 's' :: rest => do
                let v ← options.lookup (lowerText (String.ofList name))
                let inner ← if v.toList.contains '%' then
                    resolveReferences options depth (v.length + 1) v.toList
                  else some v.toList
                return inner ++ (← resolveReferences options (depth + 1) fuel rest)
            | _, _ => none
        | _ => none

def OptionFile.get? (f : OptionFile) (sectionName option : String) : Option String := do
  let s ← f.sections.lookup sectionName
  let options := (s ++ f.defaults).map fun (n, lines) => (n, joinedValue lines)
  let v ← options.lookup option
  return String.ofList (← resolveReferences options greatestDepth (v.length + 1) v.toList)

def digitsValue? (ds : List Char) : Option Nat :=
  let rec go : Nat → Bool → List Char → Option Nat
    | n, afterDigit, [] => if afterDigit then some n else none
    | n, afterDigit, c :: rest =>
        if c = '_' then if afterDigit then go n false rest else none
        else do go (10 * n + (← Text.digitValue? c)) true rest
  go 0 false ds

def greatestDigits : Nat := 4300

def wholeNumber? (s : String) : Option Int := do
  let cs := Text.strip s.toList
  let (negative, ds) := match cs with
    | '-' :: rest => (true, rest)
    | '+' :: rest => (false, rest)
    | _ => (false, cs)
  if (ds.filter (· != '_')).length > greatestDigits then none
  else
    let n ← digitsValue? ds
    return if negative then -(n : Int) else n

end TraceArtifacts.Loading
