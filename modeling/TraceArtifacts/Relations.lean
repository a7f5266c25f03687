import TraceArtifacts.Layers

/-!
# Relations between base procedures

An output table is read by an input table if the select of the output occurs in the select of the input.
-/

namespace TraceArtifacts

def partsUnder (key : String) (object : Value) : Outcome (List Value) := do
  (← object.entryOr key (.list [])).members

def relate (algo function writer table readAlgo readFunction reader input : Value) :
    Outcome Relation := do
  let fromPath ← basePath algo function
  let fromMetadata ← writer.entry "metadata"
  let toPath ← basePath readAlgo readFunction
  let toMetadata ← reader.entry "metadata"
  return { fromPath, fromTable := table, fromMetadata, toPath, toTable := input, toMetadata }

def relationsOf (base algo function writer table : Value) : Outcome (List Relation) := do
  let select ← table.entry "select"
  gatherFunctions base fun readAlgo readFunction reader => do
    let found ← (← partsUnder "input_tables" reader).mapM fun input => do
      if ← select.isIn (← input.entry "select") then
        return [← relate algo function writer table readAlgo readFunction reader input]
      else return []
    return found.flatten

def buildRelations (layers : Value) : Outcome (List Relation) := do
  let base ← layers.entry baseKey
  gatherFunctions base fun algo function writer => do
    let found ← (← partsUnder "output_tables" writer).mapM fun table =>
      relationsOf base algo function writer table
    return found.flatten

/-- The link that follows a relation in a direction; `named` asks for the name of the element too. -/
def linkOf (layers : Value) (d : Direction) (named : Bool) (r : Value) : Outcome Link := do
  let path ← r.entry (d.far ++ "_path")
  let groups ← layers.attributeAt path (.text "groups")
  let metadata ← r.entry (d.far ++ "_metadata")
  let name ← metadata.entry "procedure_name"
  let elementName ← if named then do pure (some ("cons_" ++ (← name.asText))) else pure none
  let table ← r.entry (d.far ++ "_object")
  let interfaceName ← table.entry "interface_name"
  let dbObjectName ← table.entry "dbobject_name"
  return { path, groups, direction := d, name, elementName, interfaceName, dbObjectName }

def linksWhere (layers : Value) (d : Direction) (named : Bool) (test : Value → Outcome Bool) :
    Outcome (List Link) := do
  let found ← (← partsUnder relationsKey layers).mapM fun r => do
    if ← test r then return [← linkOf layers d named r] else return []
  return found.flatten

def isAt (d : Direction) (path : String) (r : Value) : Outcome Bool := do
  return (← r.entry (d.near ++ "_path")).same (.text path)

def links (layers : Value) (d : Direction) (algo function : Value) : Outcome (List Link) := do
  let path ← basePath algo function
  linksWhere layers d false fun r => do
    if !(← r.has (d.near ++ "_path")) then return false
    if !(← r.has (d.near ++ "_object")) then return false
    isAt d path r

def linksOfTable (layers : Value) (d : Direction) (algo function interface : Value) :
    Outcome (List Link) := do
  let path ← basePath algo function
  linksWhere layers d true fun r => do
    if !(← isAt d path r) then return false
    return (← (← r.entry (d.near ++ "_object")).entry "interface_name").same interface

end TraceArtifacts
