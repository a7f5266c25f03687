import TraceArtifacts.Graph.Operator
import TraceArtifacts.Settings
import TraceArtifacts.Text.Lines

/-!
# Scripts of operators

The operator of an element connects to the database, runs the statements of the element as one block, and sends the names of the
tables it has filled.
-/

namespace TraceArtifacts.Graph

def indent : String := "    "

def portValue (name schema table : Value) : Outcome Value := do
  let schema ← schema.asText
  return .object [("port_name", name), ("dbobject_name", .text (schema ++ "." ++ (← table.asText)))]

def connectionLines : List String :=
  ["api.logger.debug(\"HANAML: Define connection context\")",
   "address = api.config.hanaConnection[\"connectionProperties\"][\"host\"]",
   "port =  api.config.hanaConnection[\"connectionProperties\"][\"port\"]",
   "pwd =  api.config.hanaConnection[\"connectionProperties\"][\"password\"]",
   "user =  api.config.hanaConnection[\"connectionProperties\"][\"user\"]",
   "useTLS =  api.config.hanaConnection[\"connectionProperties\"][\"useTLS\"]",
   "encrypt = \"false\"",
   "if useTLS:",
   indent ++ "encrypt = \"true\"",
   "hana_connection = dbapi.connect(address=address, port=port, user=user, password=pwd, " ++
     "encrypt=encrypt, sslValidateCertificate=\"false\")",
   "api.logger.debug(\"HANAML: Generate SQL\")"].map (indent ++ ·)

def executionLines : List String :=
  ["cursor = hana_connection.cursor()",
   "api.logger.debug(\"HANAML: Execute SQL\")",
   "api.logger.debug(\"HANAML: \" + sql)",
   "success = cursor.execute(sql)",
   "if success:"].map (indent ++ ·)

def portNames (ports : Value) : Outcome (List String) := do
  let names ← (← ports.members).mapM fun p => p.entry "name"
  names.mapM Value.asText

def sendLine (value : Value) : Outcome String := do
  let name ← value.textEntry "port_name"
  return indent ++ indent ++ "api.send(\"" ++ name ++ "\", '" ++
    (← value.textEntry "dbobject_name") ++ "')"

def elementScript (settings : Settings) (statements inPorts values : Value) : Outcome String := do
  let names ← portNames inPorts
  let arguments := String.intercalate "," names
  let statements ← settings.mapSources
    (.text (← joinMembers statements (.text "\n") (.text indent)))
  let sending ← (← values.members).mapM sendLine
  return joinLines (
    ["from hdbcli import dbapi", "def on_input(" ++ arguments ++ "):"] ++ connectionLines ++
    [indent ++ "sql = \"\"\"", indent ++ "Do", indent ++ "Begin", statements, indent ++ "End",
     if names.isEmpty then indent ++ "\"\"\"" else indent ++ "\"\"\".format(" ++ arguments ++ ")"] ++
    executionLines ++ sending ++
    [indent ++ "api.logger.debug(\"HANAML: operator done\")",
     if names.isEmpty then "on_input()"
     else "api.set_port_callback([\"" ++ String.intercalate "\", \"" names ++ "\"], on_input)"])

/-- The script of the client that answers requests with the content of the table it last heard of. -/
def clientScript (dataPort requestPort responsePort : String) : String :=
  joinLines (
    ["import json", "from hdbcli import dbapi", "def on_request(msg):",
     indent ++ "msg.attributes[\"openapi.header.content-type\"] = \"application/json\"",
     indent ++ "response = \x7b\x7d",
     indent ++ "if \"results\" in globals():",
     indent ++ indent ++ "response = \x7b\"results\": results\x7d",
     indent ++ "else:",
     indent ++ indent ++
       "response = \x7b\"results\": \"Sorry no results yet. Please try again in a sec\"\x7d",
     indent ++ "msg.body=json.dumps(response)",
     indent ++ "api.send(\"" ++ responsePort ++ "\", msg)",
     "def on_data(data):"] ++ connectionLines ++
    [indent ++ "sql = \"select * from \x7b\x7d;\".format(data)"] ++ executionLines ++
    [indent ++ indent ++ "global results",
     indent ++ indent ++ "results = []",
     indent ++ indent ++ "for row in cursor:",
     indent ++ indent ++ indent ++ "results.append(str(row))",
     indent ++ "api.logger.debug(\"HANAML: result operator done processing data\")",
     "api.set_port_callback(\"" ++ requestPort ++ "\", on_request)",
     "api.set_port_callback(\"" ++ dataPort ++ "\", on_data)"])

def finishScript (inPorts outPort : Value) : Outcome String := do
  let names ← portNames inPorts
  let output ← outPort.textEntry "name"
  return joinLines
    ["def on_input(" ++ String.intercalate "," names ++ "):",
     indent ++ "api.send(\"" ++ output ++ "\", api.Message(\"Operators have finished.\"))",
     "api.set_port_callback([\"" ++ String.intercalate "\",\"" names ++ "\"], on_input)"]

end TraceArtifacts.Graph
