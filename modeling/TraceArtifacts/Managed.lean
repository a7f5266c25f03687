import TraceArtifacts.Graph.Generate

/-!
# Managed procedures

An element that trains or applies a model becomes a method of a class that is carried out in the database.
-/

namespace TraceArtifacts.Managed

def classText : String := Container.unlines
  ["class ZCL_<<AMDP_NAME>> definition",
   "  public",
   "  final",
   "  create public .",
   "",
   "public section.",
   "    interfaces IF_AMDP_MARKER_HDB.",
   "    types:",
   "        begin of <<OUTPUT>>_TABLE,",
   "            <<OUTPUT_SIGNATURE>>",
   "        end of <<OUTPUT>>_TABLE,",
   "        tt_<<ALGO>>_<<OUTPUT>> TYPE STANDARD TABLE OF <<OUTPUT>>_TABLE,",
   "        begin of <<INPUT>>_DATA,",
   "            <<INPUT_SIGNATURE>>",
   "        end of <<INPUT>>_DATA,",
   "        tt_<<ALGO>>_<<INPUT>>_DATA TYPE STANDARD TABLE OF <<INPUT>>_DATA.",
   "    data:",
   "        lt_<<ALGO>>_<<INPUT>>_DATA TYPE tt_<<ALGO>>_<<INPUT>>_DATA,",
   "        lt_<<ALGO>>_<<OUTPUT>> TYPE tt_<<ALGO>>_<<OUTPUT>>.",
   "",
   "    methods:",
   "        <<FUNCTION>>",
   "          IMPORTING",
   "            VALUE(lt_<<ALGO>>_<<INPUT>>_DATA) TYPE tt_<<ALGO>>_<<INPUT>>_DATA",
   "          EXPORTING",
   "            VALUE(lt_<<ALGO>>_<<OUTPUT>>) TYPE tt_<<ALGO>>_<<OUTPUT>>.",
   "",
   "protected section.",
   "private section.",
   "ENDCLASS.",
   "",
   "",
   "CLASS ZCL_<<AMDP_NAME>> IMPLEMENTATION.",
   "",
   "method <<FUNCTION>>",
   "    by database procedure",
   "        for hdb",
   "        language sqlscript",
   "        OPTIONS READ-ONLY",
   "        <<USING_STATEMENT>>.",
   "        <<MODEL_SELECT>>",
   "        ",
   "        <<DECLARATIONS>> ",
   "        ",
   "        <<CALL_STATEMENT>>",
   "",
   "endmethod.",
   "",
   "ENDCLASS."]

structure Carried where
  output : Option Value := none
  input : Option Value := none
  modelInterface : Option Value := none
  algo : Option Value := none
  call : Option String := none
deriving Inhabited

def isOneOf (s : Settings) (table : Value) : List TableKind → Outcome Bool
  | [] => .ok false
  | kind :: kinds => do
      if ← s.isKind (← table.entry "cat") kind then return true
      isOneOf s table kinds

def takeOutputs (s : Settings) (c : Carried) : List Value → Outcome (Carried × List Value)
  | [] => .ok (c, [])
  | table :: rest => do
      if ← isOneOf s table [.model, .fitted] then takeOutputs s { c with output := some table } rest
      else
        let (c, others) ← takeOutputs s c rest
        return (c, table :: others)

def takeInputs (s : Settings) (c : Carried) : List Value → Outcome Carried
  | [] => .ok c
  | table :: rest => do
      if ← isOneOf s table [.model] then
        let name ← table.entry "interface_name"
        takeInputs s { c with modelInterface := some name } rest
      else takeInputs s { c with input := some table, modelInterface := some (.text "") } rest

def takeElement (s : Settings) (c : Carried) (element : Value) : Outcome (Carried × String) := do
  let statements ← element.entry "sql"
  let (c, others) ← takeOutputs s c (← partsUnder "output" statements)
  let c ← takeInputs s c (← partsUnder "input" statements)
  let c ← if ← statements.has "body" then do
      let algo ← element.entry "algo"
      let item ← (← statements.entry "body").item (.int 0)
      pure { c with algo := some algo, call := some (← statementText item) }
    else pure c
  return (c, ← Container.signature .null (.list others))

inductive Purpose where
  | train
  | apply
deriving Repr, DecidableEq

namespace Purpose

def word : Purpose → String
  | train => "TRAIN"
  | apply => "APPLY"

def result : Purpose → String
  | train => "MODEL"
  | apply => "RESULT"

def methodName : Purpose → String
  | train => "train_model"
  | apply => "apply_model"

def usingClause : Purpose → String
  | train => ""
  | apply => "USING <<MODEL_DSO>>"

def modelSelect : Purpose → String
  | train => ""
  | apply => "lt_model_table = SELECT * FROM <<MODEL_DSO>>"

def declarations (signature : String) : Purpose → String
  | train => replaceText (replaceText signature "out" "DECLARE") "), D" ");\n D" ++ ";"
  | apply => ""

end Purpose

def methodCall (schema input output model algo : String) (p : Purpose) (call : String) : String :=
  let call := replaceText call "CALL " ("CALL " ++ schema ++ ".")
  let call := replaceText call (":" ++ input) (":lt_" ++ algo ++ "_" ++ p.word ++ "_DATA")
  let call := replaceText call ("> " ++ output) ("> lt_" ++ algo ++ "_" ++ p.result)
  replaceText call (":" ++ model) ":lt_model_table"

def purposeOf (s : Settings) (output : Value) : Outcome (Option Purpose) := do
  if ← isOneOf s output [.model] then return some .train
  if ← isOneOf s output [.fitted] then return some .apply
  return none

def classFile (s : Settings) (input model output signature algo call : Value) :
    Outcome (String × Fields) := do
  let schema ← s.entry Setting.schema
  let appId ← s.entry Setting.appId
  let inputType ← input.entry "abap_type"
  let outputType ← output.entry "abap_type"
  let inputName ← input.entry "interface_name"
  let outputName ← output.entry "interface_name"
  let purpose ← purposeOf s output
  let declared ← if purpose == some .train then signature.asTextReceiver else pure ""
  let appName ← appId.asText
  let algoName ← algo.asText
  match purpose with
  | none => throw .unset
  | some p =>
      let call ← call.asTextReceiver
      let schemaName ← schema.asText
      let call := methodCall schemaName (← inputName.asText) (← outputName.asText) (← model.asText)
        algoName p call
      return (algoName ++ "_" ++ p.word ++ ".txt",
        [("<<AMDP_NAME>>", .text (appName ++ "_" ++ algoName ++ "_" ++ p.word)), ("<<ALGO>>", algo),
         ("<<INPUT_SIGNATURE>>", inputType), ("<<OUTPUT_SIGNATURE>>", outputType),
         ("<<FUNCTION>>", .text p.methodName), ("<<INPUT>>", .text p.word),
         ("<<OUTPUT>>", .text p.result), ("<<USING_STATEMENT>>", .text p.usingClause),
         ("<<MODEL_SELECT>>", .text p.modelSelect), ("<<CALL_STATEMENT>>", .text call),
         ("<<DECLARATIONS>> ", .text (p.declarations declared))])

def writeMethod (path input model output signature algo call : Value) : Job Unit := do
  let (name, replacements) ← classFile (← get).settings input model output signature algo call
  Job.writeText path name classText replacements

def writeClass (path : Value) (c : Carried) (signature : String) : Job Unit := do
  match c.input, c.modelInterface, c.output, c.algo, c.call with
  | some input, some model, some output, some algo, some call =>
      writeMethod path input model output (.text signature) algo (.text call)
  | _, _, _, _, _ => throw .unset

def isWanted (element : Value) : Outcome Bool := do
  let kind ← (← (← element.entry "groups").item (.int 0)).entry "type"
  let _ ← kind.asKey
  return kind.same (.text "fit") || kind.same (.text "predict")

def generateElement (c : Carried) (element : Value) : Job Carried := do
  if !(← isWanted element) then return c
  if !(← element.has "sql") then return c
  let (c, signature) ← takeElement (← get).settings c element
  writeClass (← Job.setting Setting.abapPath) c signature
  return c

def generate : Job Unit := do
  Graph.noteDirectory Setting.abapPath "abap"
  Graph.renewDirectory Setting.abapPath
  let es ← Container.elements (← Job.layers)
  let _ ← es.foldlM generateElement {}

end TraceArtifacts.Managed
