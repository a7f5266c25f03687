import TraceArtifacts.Autonomous
import TraceArtifacts.Interface
import TraceArtifacts.Statement

/-!
# Base procedures

A prepared call becomes a base procedure: its tables and variables with their interface names, the synonyms of what it uses, its
body, and what kind of function it is.
-/

namespace TraceArtifacts

def baseKey : String := "base_layer"

def functionCategories : List String := ["PARTITION", "FIT", "PREDICT", "FIT_PREDICT", "SCORE"]

def procedureNameOf (algo function : String) : String :=
  "base_" ++ plainLower algo ++ "_" ++ plainLower function

def metadataOf (algo function : Value) : Outcome Value := do
  let name := procedureNameOf (← plainValue algo) (← plainValue function)
  return .object [("procedure_name", .text name),
    ("algo_function_cat", .text ((categoryOf functionCategories name).getD "Unknown"))]

structure BaseParts where
  statements : List String
  inputTables : Value
  outputTables : Value
  outputVars : Value
  synonyms : List Synonym

def baseStatements (inputs outputs vars : Value) (synonyms : List Synonym) (statements : Value) :
    Outcome (List String) := do
  let statements ← filterStatements inputs statements
  let statements ← filterStatements outputs (.list statements)
  let statements ← filterStatements vars (.list statements)
  let statements ← arrangeStatements inputs outputs vars (.list statements)
  transformStatements (.list (synonyms.map Synonym.toValue)) (.list statements)

def extendedIf (extend : Value → Outcome Value) (tables : Value) : Outcome Value :=
  if tables.isTruthy then extend tables else .ok tables

/-- What a prepared call determines of its base procedure. The called functions get their synonyms noted, also if
it fails later. -/
def buildBase (settings : Settings) (algo function : Value) (p : Prepared) : Change BaseParts := do
  let inputs ← extendedIf (extendTables settings algo function p.statements) p.inputTables
  let outputs ← extendedIf (extendTables settings algo function p.statements) p.outputTables
  let vars ← extendedIf (extendVariables algo function) p.outputVars
  let functionSynonyms ← Synonym.noteAll Synonym.forFunction
  match Synonym.noteAll Synonym.forInput inputs with
  | .error e _ => throw e
  | .ok inputSynonyms inputs => do
      let synonyms := functionSynonyms ++ inputSynonyms
      return {
        statements := ← baseStatements inputs outputs vars synonyms p.statements
        inputTables := inputs, outputTables := outputs, outputVars := vars, synonyms }

def ensureRecord (key : Value) : Change Unit := do
  let v ← get
  if !(← key.isIn v) then set (← v.setItem key (.object []))

def Change.under (key : Value) (c : Change α) : Change α := do
  let v ← get
  let part ← v.item key
  match c part with
  | .ok a part => do
      set (← v.setItem key part)
      return a
  | .error e part => do
      set (← v.setItem key part)
      throw e

def BaseParts.putInto (b : BaseParts) (metadata object : Value) : Outcome Value := do
  let object ← object.setEntry "sql" (.ofTexts b.statements)
  return object.withEntries
    [("input_tables", b.inputTables), ("output_tables", b.outputTables),
     ("output_vars", b.outputVars), ("synonyms", .list (b.synonyms.map Synonym.toValue)),
     ("metadata", metadata)]

def storeBase (algo function : Value) (b : BaseParts) : Change Unit := do
  ensureRecord (.text baseKey)
  Change.under (.text baseKey) do
    ensureRecord algo
    Change.under algo (ensureRecord function)
  let metadata ← metadataOf algo function
  Change.under (.text baseKey) (Change.under algo (Change.under function
    (Change.apply (b.putInto metadata))))

structure BaseWork where
  functions : Value
  layers : Value

def generateBase (settings : Settings) (algo function : Value) (p : Prepared) :
    EStateM Fault BaseWork Unit := do
  let w ← get
  match buildBase settings algo function p w.functions with
  | .error e functions => do
      set { w with functions }
      throw e
  | .ok parts functions => do
      match storeBase algo function parts w.layers with
      | .error e layers => do
          set (BaseWork.mk functions layers)
          throw e
      | .ok _ layers => set (BaseWork.mk functions layers)

end TraceArtifacts
