import TraceArtifacts.Container.Local
import TraceArtifacts.Graph.Draft

/-!
# Generating graphs

All elements of the consumption layer are drafted in order, then each graph is written to a file of its own.
-/

namespace TraceArtifacts.Graph

def drafting (step : DraftStep Unit) : Job GraphDrafts := do
  match step { layers := ← Job.layers } with
  | .ok _ d => do
      Job.keepLayers d.layers
      return d.graphs
  | .error e d => do
      Job.keepLayers d.layers
      throw e

def writeGraph (path name graph : Value) : Job Unit := do
  Job.writeFile path (.text ((← name.asText) ++ ".json")) (Json.render graph)

def writeGraphs (path : Value) (graphs : GraphDrafts) : Job Unit :=
  graphs.forM fun (name, g) => do
    writeGraph path name (← graphValue (.list g.operators) (.list g.connections))

def draftAndWrite (path : Value) (options : GraphOptions) : Job Unit := do
  writeGraphs path (← drafting (draftAll (← get).settings options))

def renewDirectory (key : String) : Job Unit := do
  let path ← Job.setting key
  Job.removeDirectory path
  Job.createDirectory path

def noteDirectory (key name : String) : Job Unit := do
  Job.setSetting key (.text (joinPaths (← Job.settingText Setting.outputPath) name))

def generate (container : Bool) (options : GraphOptions) : Job Unit := do
  noteDirectory Setting.graphPath "datahub"
  if container then Container.generate true false true
  renewDirectory Setting.graphPath
  draftAndWrite (← Job.setting Setting.graphPath) options

end TraceArtifacts.Graph
