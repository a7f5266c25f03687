import TraceArtifacts.Fault
import TraceArtifacts.Text.Scan

/-!
# File trees

Files and directories by their paths from the top. A path is a list of names; a path text is cut at its slashes, and empty names and
single dots are dropped.
-/

namespace TraceArtifacts

inductive Node where
  | directory
  | file (content : String)
deriving Repr, DecidableEq, Inhabited

abbrev Location := List String

/-- Files and directories; the top itself is always there. -/
structure FileTree where
  entries : List (Location × Node) := []
deriving Inhabited

def joinPaths (a b : String) : String :=
  if startsWithText b "/" then b
  else if a = "" || a.toList.getLast? == some '/' then a ++ b
  else a ++ "/" ++ b

def pathNames (p : String) : List String :=
  (cutText '/' p).filter fun c => c != "" && c != "."

def isAbsolutePath (p : String) : Bool := startsWithText p "/"

def baseName (p : String) : String := ((cutText '/' p).getLast?).getD ""

def pathOf (loc : Location) : String := "/" ++ String.intercalate "/" loc

/-- Names with each step up taken together with the name before it. `above` holds the names so far, the last one
first; a step up at the start is kept if `open?` says that there may be something above. -/
def withoutStepsUp (open? : Bool) : List String → List String → List String
  | above, [] => above.reverse
  | above, name :: rest =>
      if name ≠ ".." then withoutStepsUp open? (name :: above) rest
      else
        match above with
        | [] => withoutStepsUp open? (if open? then [name] else []) rest
        | a :: before =>
            if a = ".." then withoutStepsUp open? (name :: above) rest
            else withoutStepsUp open? before rest

def plainPath (p : String) : String :=
  let absolute := isAbsolutePath p
  let names := withoutStepsUp (!absolute) [] (pathNames p)
  if absolute then pathOf names
  else if names.isEmpty then "."
  else String.intercalate "/" names

namespace FileTree

def find? (t : FileTree) (p : Location) : Option Node :=
  if p.isEmpty then some .directory else t.entries.lookup p

def put (p : Location) (n : Node) (t : FileTree) : FileTree :=
  ⟨t.entries.filter (fun e => e.1 != p) ++ [(p, n)]⟩

def remove (p : Location) (t : FileTree) : FileTree :=
  ⟨t.entries.filter fun e => !p.isPrefixOf e.1⟩

def childNames (p : Location) (t : FileTree) : List String :=
  sortTexts (t.entries.filterMap fun e =>
    if p.isPrefixOf e.1 && e.1.length == p.length + 1 then e.1.getLast? else none)

def greatestNameBytes : Nat := 255

/-- Follows names from a location; each but the last must lead to a directory. -/
def follow (t : FileTree) : Location → List String → Outcome Location
  | here, [] => .ok here
  | here, name :: rest =>
      match t.find? here with
      | none => .error .fileMissing
      | some (.file _) => .error .notDirectory
      | some .directory =>
          if name = ".." then follow t here.dropLast rest
          else if name.utf8ByteSize > greatestNameBytes then .error .badPath
          else follow t (here ++ [name]) rest

def locate (t : FileTree) (cwd : Location) (p : String) : Outcome Location :=
  if p.toList.contains (Char.ofNat 0) then .error .nulInPath
  else if p = "" then .error .fileMissing
  else t.follow (if startsWithText p "/" then [] else cwd) (pathNames p)

def asksDirectory (p : String) : Bool := baseName p == "" || baseName p == "."

def nodeAt (t : FileTree) (cwd : Location) (p : String) : Outcome Node := do
  match t.find? (← t.locate cwd p) with
  | none => throw .fileMissing
  | some (.file content) => if asksDirectory p then throw .notDirectory else return .file content
  | some .directory => return .directory

def nodeAt? (t : FileTree) (cwd : Location) (p : String) : Option Node := (t.nodeAt cwd p).toOption

def exists? (t : FileTree) (cwd : Location) (p : String) : Bool := (t.nodeAt? cwd p).isSome

def write (cwd : Location) (p content : String) (t : FileTree) : Outcome FileTree := do
  let loc ← t.locate cwd p
  if baseName p == "." then
    let _ ← t.nodeAt cwd p
  if asksDirectory p then throw .isDirectory
  match t.find? loc with
  | some .directory => throw .isDirectory
  | _ => return t.put loc (.file content)

def read (t : FileTree) (cwd : Location) (p : String) : Outcome String := do
  match ← t.nodeAt cwd p with
  | .file content => return content
  | .directory => throw .isDirectory

def makeDirectory (cwd : Location) (p : String) (t : FileTree) : Outcome FileTree := do
  let loc ← t.locate cwd p
  match t.find? loc with
  | some _ => throw .fileExists
  | none => return t.put loc .directory

end FileTree

def withoutLastSlashes (p : String) : String :=
  let rest := (p.toList.reverse.dropWhile (· == '/')).reverse
  if rest.isEmpty then p else String.ofList rest

def splitPath (p : String) : String × String :=
  let name := baseName p
  (withoutLastSlashes (String.ofList (p.toList.take (p.length - name.length))), name)

namespace FileTree

/-- A step that changes a tree; what was done before a fault stays. -/
abbrev TreeStep := EStateM Fault FileTree

def TreeStep.apply (f : FileTree → Outcome FileTree) : TreeStep Unit := do set (← f (← get))

/-- Creates a directory that is not there yet after the directories on the way. A directory on the way that is there
already is no fault. The first argument bounds the number of names. -/
def makeWithWay (cwd : Location) : Nat → String → TreeStep Unit
  | 0, _ => throw .fileMissing
  | fuel + 1, p => do
      let (head, last) := splitPath p
      let (head, last) := if last == "" then splitPath head else (head, last)
      let missing := head != "" && last != "" && !(← get).exists? cwd head
      if missing then
        try makeWithWay cwd fuel head
        catch e => if e != .fileExists then throw e
      if missing && last == "." then return
      set (← (← get).makeDirectory cwd p)

def makeDirectories (cwd : Location) (p : String) : TreeStep Unit := makeWithWay cwd (p.length + 1) p

def makeWay : Location → List String → FileTree → FileTree
  | _, [], t => t
  | here, name :: rest, t =>
      makeWay (here ++ [name]) rest
        (if (t.find? (here ++ [name])).isSome then t else t.put (here ++ [name]) .directory)

def list (t : FileTree) (cwd : Location) (p : String) : Outcome (List String) := do
  match ← t.nodeAt cwd p with
  | .directory => return t.childNames (← t.locate cwd p)
  | .file _ => throw .notDirectory

def removeAt (cwd : Location) (p : String) (t : FileTree) : FileTree :=
  if t.exists? cwd p then
    match t.locate cwd p with
    | .ok loc => t.remove loc
    | .error _ => t
  else t

def clear (cwd : Location) (p : String) (t : FileTree) : Outcome FileTree := do
  return (← t.list cwd p).foldl (fun t n => t.removeAt cwd (joinPaths p n)) t

def directoryAt (t : FileTree) (cwd : Location) (p : String) : Outcome Location := do
  match ← t.nodeAt cwd p with
  | .directory => t.locate cwd p
  | .file _ => throw .notDirectory

def lastName (p : String) : String := baseName (withoutLastSlashes p)

def removeEmpty (cwd : Location) (p : String) (t : FileTree) : Outcome FileTree := do
  let loc ← t.directoryAt cwd p
  if lastName p == "." then throw .badPath
  if lastName p == ".." || !(t.childNames loc).isEmpty then throw .notEmpty
  return t.remove loc

def filesBelow (t : FileTree) (p : Location) : List Location :=
  t.entries.filterMap fun e =>
    match e.2 with
    | .file _ => if p.isPrefixOf e.1 && p.length < e.1.length then some (e.1.drop p.length) else none
    | .directory => none

def contentOf (t : FileTree) (p : Location) : List (Location × Node) :=
  t.entries.filterMap fun e =>
    if p.isPrefixOf e.1 && p.length < e.1.length then some (e.1.drop p.length, e.2) else none

def copyInto (cwd : Location) (p : String) (content : List (Location × Node)) : TreeStep Unit := do
  makeDirectories cwd p
  let loc ← (← get).locate cwd p
  modify fun t => content.foldl (fun t e => t.put (loc ++ e.1) e.2) t

def isNested (t : FileTree) (outer inner : Location) : Bool :=
  outer.isPrefixOf inner && outer.length + 1 < inner.length &&
    (t.find? (inner.take (outer.length + 1))).isSome

def copyDirectory (cwd : Location) (source target : String) : TreeStep Unit := do
  let t ← get
  let loc ← t.directoryAt cwd source
  copyInto cwd target (t.contentOf loc)
  if t.isNested loc (← (← get).locate cwd target) then throw .endlessChain

def ofContent (root : Location) (directories : List String) (files : List (String × String)) :
    FileTree :=
  let t := directories.foldl (fun t d => makeWay root (pathNames d) t)
    (({} : FileTree).put root .directory)
  files.foldl (fun t (p, content) =>
    (makeWay root (pathNames p).dropLast t).put (root ++ pathNames p) (.file content)) t

def pathsBelow (p : Location) (t : FileTree) : List (String × Node) :=
  (t.contentOf p).map fun (names, n) =>
    (String.intercalate "/" names ++ (if n == .directory then "/" else ""), n)

def changedBelow (p : Location) (before after : FileTree) : List (String × Node) :=
  let old := before.pathsBelow p
  ((after.pathsBelow p).filter fun (path, n) => old.lookup path != some n).mergeSort
    fun a b => decide (a.1 ≤ b.1)

def removedBelow (p : Location) (before after : FileTree) : List String :=
  let new := after.pathsBelow p
  sortTexts (((before.pathsBelow p).map (·.1)).filter fun path => (new.lookup path).isNone)

end FileTree

end TraceArtifacts
