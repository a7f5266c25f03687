import TraceArtifacts.Deploy.Archive

/-!
# Packages

A package is an archive of the files of a directory, for a later import by hand. Only the names of its members are
kept here, one to a line.
-/

namespace TraceArtifacts.Deploy

def besidePath (here source : String) : String := plainPath (joinPaths here (joinPaths source ".."))

/-- Writes a package, then goes to the directory and puts its files in. A relative path of the directory is then seen
from the directory itself. -/
def writePackage (source target name : Value) : Step Unit := do
  let target ← if target.isTruthy then Step.ofOutcome target.asText
    else do pure (besidePath (← Step.here) (← Step.ofOutcome source.asText))
  let path := target ++ "/" ++ name.display ++ ".zip"
  let s ← get
  let cwd := s.cwd
  let tree ← Step.ofOutcome (s.tree.write cwd path "")
  set { s with tree }
  let source ← Step.ofOutcome source.asText
  Step.enter source
  let s ← get
  if !s.tree.exists? s.cwd source then throw (.noDirectory source)
  let members := archiveNames s.tree s.cwd source
  let tree ← Step.ofOutcome (s.tree.write cwd path (String.intercalate "\n" members))
  set { s with tree }

end TraceArtifacts.Deploy
