import TraceArtifacts.Text.Layout

/-!
# Brace templates

A template is a text with fields between braces.
-/

namespace TraceArtifacts.Text

inductive Numbering where
  | undecided
  | automatic (next : Nat)
  | manual
deriving Repr, DecidableEq

structure Field where
  /-- Which argument, and which part of it. -/
  name : List Char
  conversion : Option Char
  /-- Width, alignment and the like, unread. -/
  spec : List Char

/-- Reads the name of a field up to its end mark, which is returned with the rest. Inside brackets
only the closing one counts. -/
def readName : Bool → List Char → Outcome (List Char × Char × List Char)
  | _, [] => .error (.template .unclosedField)
  | true, c :: cs => do
      let (name, stop, rest) ← readName (c != ']') cs
      return (c :: name, stop, rest)
  | false, c :: cs =>
      if c = '\x7b' then .error (.template .openingInName)
      else if c = '\x7d' ∨ c = ':' ∨ c = '!' then .ok ([], c, cs)
      else do
        let (name, stop, rest) ← readName (c == '[') cs
        return (c :: name, stop, rest)

def readSpec : Nat → List Char → Outcome (List Char × List Char)
  | _, [] => .error (.template .unclosedSpec)
  | depth, c :: cs =>
      if c = '\x7d' then
        match depth with
        | 0 => .ok ([], cs)
        | d + 1 => do
            let (spec, rest) ← readSpec d cs
            return (c :: spec, rest)
      else do
        let (spec, rest) ← readSpec (if c = '\x7b' then depth + 1 else depth) cs
        return (c :: spec, rest)

def readField (s : List Char) : Outcome (Field × List Char) := do
  let (name, stop, rest) ← readName false s
  if stop = '\x7d' then return (⟨name, none, []⟩, rest)
  if stop = '!' then
    match rest with
    | [] => throw (.template .noConversion)
    | k :: '\x7d' :: rest => return (⟨name, some k, []⟩, rest)
    | k :: ':' :: rest =>
        let (spec, rest) ← readSpec 0 rest
        return (⟨name, some k, spec⟩, rest)
    | [_] => throw (.template .unclosedSpec)
    | _ => throw (.template .afterConversion)
  let (spec, rest) ← readSpec 0 rest
  return (⟨name, none, spec⟩, rest)

def argumentOf (first : List Char) (numbering : Numbering) : Outcome (Nat × Numbering) := do
  match ← numberOf? first, numbering with
  | some n, .undecided => return (n, .manual)
  | some n, .manual => return (n, .manual)
  | some _, .automatic _ => throw (.template .automaticToManual)
  | none, _ =>
      if !first.isEmpty then throw (.missingKey (String.ofList first))
      match numbering with
      | .undecided => return (0, .automatic 1)
      | .automatic n => return (n, .automatic (n + 1))
      | .manual => throw (.template .manualToAutomatic)

/-- The attribute of a number; nothing else has one that can be shown. -/
def attributeOf (name : List Char) (v : Value) : Outcome Value :=
  match v.number?, String.ofList name with
  | some (.inl i), "real" => .ok (.int i)
  | some (.inl _), "imag" => .ok (.int 0)
  | some (.inl i), "numerator" => .ok (.int i)
  | some (.inl _), "denominator" => .ok (.int 1)
  | some (.inr x), "real" => .ok (.float x)
  | some (.inr _), "imag" => .ok (.float 0.0)
  | _, _ => .error .badReceiver

def indexed (index : List Char) (v : Value) : Outcome Value := do
  match ← numberOf? index, v with
  | some _, .object _ => throw .missingEntry
  | some n, v => v.item (.int n)
  | none, v => v.item (.text (String.ofList index))

/-- The part of a value that the rest of a field name picks; `fuel` bounds the number of picks. -/
def pick : Nat → Value → List Char → Outcome Value
  | 0, value, _ => .ok value
  | _, value, [] => .ok value
  | fuel + 1, value, '[' :: rest => do
      let index := rest.takeWhile (· != ']')
      if index.length = rest.length then throw (.template .unclosedIndex)
      let _ ← numberOf? index
      if index.isEmpty then throw (.template .emptyAttribute)
      pick fuel (← indexed index value) (rest.drop (index.length + 1))
  | fuel + 1, value, '.' :: rest => do
      let name := rest.takeWhile fun c => c != '.' && c != '['
      if name.isEmpty then throw (.template .emptyAttribute)
      pick fuel (← attributeOf name value) (rest.drop name.length)
  | _, _, _ => .error (.template .afterIndex)

def converted (conversion : Option Char) (v : Value) : Outcome Value :=
  match conversion with
  | none => .ok v
  | some 's' => .ok (.text v.display)
  | some 'r' => .ok (.text v.spelled)
  | some 'a' => .ok (.text (String.ofList (v.spelled.toList.flatMap fun c =>
      if c.toNat < 128 then [c] else numbered c)))
  | some c => .error (.template (.unknownConversion c))

def fillField (inner : Numbering → List Char → Outcome (List Char × Numbering))
    (args : List Value) (field : Field) (numbering : Numbering) :
    Outcome (List Char × Numbering) := do
  let first := field.name.takeWhile fun c => c != '.' && c != '['
  let (position, numbering) ← argumentOf first numbering
  match args[position]? with
  | none => throw .outOfRange
  | some arg =>
      let value ← pick field.name.length arg (field.name.drop first.length)
      let value ← converted field.conversion value
      let (spec, numbering) ←
        if field.spec.contains '\x7b' then inner numbering field.spec
        else pure (field.spec, numbering)
      return (← laidOut spec value, numbering)

/-- Fills the fields of a template from left to right; `fuel` bounds their number. -/
def fillFrom (inner : Numbering → List Char → Outcome (List Char × Numbering))
    (args : List Value) : Nat → Numbering → List Char → Outcome (List Char × Numbering)
  | 0, numbering, _ => .ok ([], numbering)
  | _ + 1, numbering, [] => .ok ([], numbering)
  | fuel + 1, numbering, c :: cs => do
      if c = '\x7d' then
        match cs with
        | '\x7d' :: rest =>
            let (out, numbering) ← fillFrom inner args fuel numbering rest
            return (c :: out, numbering)
        | _ => throw (.template .loneClosing)
      else if c = '\x7b' then
        match cs with
        | [] => throw (.template .loneOpening)
        | '\x7b' :: rest =>
            let (out, numbering) ← fillFrom inner args fuel numbering rest
            return (c :: out, numbering)
        | _ =>
            let (field, rest) ← readField cs
            let (value, numbering) ← fillField inner args field numbering
            let (out, numbering) ← fillFrom inner args fuel numbering rest
            return (value ++ out, numbering)
      else
        let (out, numbering) ← fillFrom inner args fuel numbering cs
        return (c :: out, numbering)

def fillNested (args : List Value) :
    Nat → Numbering → List Char → Outcome (List Char × Numbering)
  | 0, _, _ => .error (.template .tooDeep)
  | depth + 1, numbering, s => fillFrom (fillNested args depth) args s.length numbering s

def fill (template : List Char) (args : List Value) : Outcome (List Char) := do
  return (← fillNested args 2 .undecided template).1

end TraceArtifacts.Text

namespace TraceArtifacts

def fillTemplate (template : String) (args : List Value) : Outcome String := do
  return String.ofList (← Text.fill template.toList args)

def fillWith (template : Value) (args : Outcome Value) : Outcome String := do
  let template ← template.asTextReceiver
  fillTemplate template (← (← args).members)

end TraceArtifacts
