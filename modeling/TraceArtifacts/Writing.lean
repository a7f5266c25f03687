import TraceArtifacts.Channel
import TraceArtifacts.Session

/-!
# Writing files

Jobs on files and directories. A path may be any value, and one that is no text is refused where it is used.
-/

namespace TraceArtifacts

def Job.requirePath (path : Value) : Job Unit := do
  let s ← get
  if !(← s.tree.isThere s.cwd path) then throw (.noDirectory path.display)

def Job.listed (path : Value) : Job (List String) := do
  let s ← get
  s.tree.listed s.cwd path

def Job.writeFile (path name : Value) (content : String) : Job Unit := do
  Job.requirePath path
  let path ← path.asText
  let name ← name.asText
  Job.onTree fun cwd => .apply (FileTree.write cwd (joinPaths path name) content)

def Job.writeValue (path name content : Value) : Job Bool := do
  Job.writeFile path name content.display
  return true

def Job.writeText (path : Value) (name text : String) (replacements : Fields) : Job Unit := do
  let content ← if replacements.isEmpty then pure text else substituteFields replacements text
  Job.writeFile path (.text name) content

def Job.writeFrom (path name : Value) (source : String) (replacements : Value) : Job Unit := do
  let s ← get
  let text := plainBreaks (← s.tree.read s.cwd source)
  let content ← if replacements.isTruthy then substituteValue (.text text) replacements false
    else pure text
  Job.writeFile path name content

def Job.isThere (path : Value) : Job Bool := do
  Job.requirePath path
  return true

def Job.createDirectory (path : Value) : Job Unit := do
  let path ← path.asText
  Job.onTree fun cwd => FileTree.makeDirectories cwd path

/-- Copies a directory to a new place. Only a path text has content that can be copied. -/
def Job.copyDirectory (source target : Value) : Job Unit := do
  let _ ← Job.listed source
  match source with
  | .text source => do
      let target ← target.asText
      Job.onTree fun cwd => FileTree.copyDirectory cwd source target
  | _ => do
      Job.createDirectory target
      throw .badOperand

def Job.clearDirectory (path : Value) : Job Unit := do
  let names ← Job.listed path
  match path with
  | .text path => Job.onTree fun cwd => .apply (FileTree.clear cwd path)
  | _ => if !names.isEmpty then throw .badOperand

def Job.removeDirectory (path : Value) : Job Unit := do
  let s ← get
  if ← s.tree.isThere s.cwd path then
    Job.clearDirectory path
    let path ← path.asText
    Job.onTree fun cwd => .apply (FileTree.removeEmpty cwd path)

end TraceArtifacts
