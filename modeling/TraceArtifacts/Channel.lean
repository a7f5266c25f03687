import TraceArtifacts.FileTree
import TraceArtifacts.Value

/-!
# Paths that are no texts

Where a path is asked for, any value may be given.
-/

namespace TraceArtifacts

def openChannels : List Int := [0, 1, 2]

def channelRange : Int := 2147483648

def isOpenChannel (i : Int) : Outcome Bool :=
  if i < -channelRange || channelRange ≤ i then .error .overflow else .ok (openChannels.contains i)

namespace FileTree

def isThere (t : FileTree) (cwd : Location) (path : Value) : Outcome Bool :=
  match path, path.position? with
  | .text p, _ => .ok (t.exists? cwd p)
  | _, some i => isOpenChannel i
  | _, none => .error .badOperand

/-- The names in a directory that a value stands for. The number before the first channel stands for the working
directory too. -/
def listed (t : FileTree) (cwd : Location) (path : Value) : Outcome (List String) := do
  match path, path.position? with
  | .text p, _ => t.list cwd p
  | .null, _ => t.list cwd "."
  | _, some i =>
      if i = -1 then t.list cwd "."
      else if ← isOpenChannel i then throw .notDirectory
      else throw .badPath
  | _, none => throw .badOperand

end FileTree

end TraceArtifacts
