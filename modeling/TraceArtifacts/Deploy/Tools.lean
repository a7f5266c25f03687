import TraceArtifacts.Deploy.Site

/-!
# Tools

Deployments need commands. A command is tried out, and what it writes tells whether it is there and in which
version.
-/

namespace TraceArtifacts.Deploy

inductive Answer where
  | text (s : String)
  | bytes (b : ByteArray)
deriving Inhabited

structure Availability where
  available : Bool
  version : Option String := none
deriving Repr, DecidableEq, Inhabited

def answerOf (command shell : Value) (decode : Bool) : Step (Answer × Bool) := do
  try
    let (out, err) ← Step.start command shell
    if err.size ≠ 0 then return (.text (← Step.ofOutcome (decoded err)), true)
    if decode then return (.text (← Step.ofOutcome (decoded out)), false)
    return (.bytes out, false)
  catch _ => return (.text "", true)

def tryOut (command : List String) : Step (String × Bool) := do
  match ← answerOf (.ofTexts command) (.bool false) true with
  | (.text s, failed) => return (s, failed)
  | (.bytes _, failed) => return ("", failed)

def firstBreak (s : String) : Outcome Nat :=
  match Text.indexOf? ['\n'] s.toList with
  | some i => .ok i
  | none => .error .notContained

def javaAvailable : Step Availability := do
  let (s, failed) ← tryOut ["java", "-version"]
  if failed then
    let i ← Step.ofOutcome (firstBreak s)
    return ⟨true, some (String.ofList (s.toList.take i))⟩
  return ⟨false, none⟩

def versionStart : Nat := 11

def cloudClientAvailable : Step Availability := do
  let (s, _) ← tryOut ["cf", "-v"]
  if containsText s "cf version" then
    let i ← Step.ofOutcome (firstBreak s)
    let stop := if i = 0 then s.length - 1 else i - 1
    return ⟨true, some (String.ofList ((s.toList.take stop).drop versionStart))⟩
  return ⟨false, none⟩

def archiveClientAvailable : Step Availability := do
  let (s, failed) ← tryOut ["cf", "deploy"]
  if failed || containsText s "not a registered command" then return ⟨false, none⟩
  return ⟨true, some "Unknown"⟩

def packageManagerAvailable : Step Availability := do
  let (s, _) ← tryOut ["npm", "-v"]
  if s = "" then return ⟨false, none⟩
  return ⟨true, some s⟩

end TraceArtifacts.Deploy
