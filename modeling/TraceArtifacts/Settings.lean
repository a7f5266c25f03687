import TraceArtifacts.Text.Substitution

/-!
# Settings

Everything that generation is told: names, strategies, paths, the mapping of data sources, and three tables that come with the
library.
-/

namespace TraceArtifacts

abbrev Settings := Fields

namespace Setting

def outputDir : String := "outputdir"
def outputPath : String := "outputpath"
def projectName : String := "project_name"
def version : String := "version"
def mergeStrategy : String := "merge_type"
def groupStrategy : String := "group_type"
def entityTypes : String := "hdbtable_to_hdbdd_datatypes"
def structureTypes : String := "hdbtable_to_abap_datatypes"
def categoryWords : String := "category_identfiers"
def appId : String := "appid"
def hanaPath : String := "output_path_hana"
def moduleName : String := "module_name"
def schema : String := "schema"
def grantService : String := "ups"
def layers : String := "sql_processed"
def entityContext : String := "cds_context"
def modulePath : String := "output_path_module"
def sourcePath : String := "output_path_module_src"
def skeletonPath : String := "module_template_path"
def grantsPath : String := "grants_path"
def synonymsPath : String := "synonyms_path"
def proceduresPath : String := "procedures_path"
def rolesPath : String := "roles_path"
def entitiesPath : String := "cds_path"
def virtualTablePath : String := "virtual_table_sda"
def remoteSource : String := "remote_source_sda"
def modelOnly : String := "model_only"
def sourceMapping : String := "data_source_mapping"
def abapPath : String := "output_path_abap"
def graphPath : String := "output_path_datahub"
def applicationPath : String := "cloudfoundry"
def remote (key : String) : String := key ++ "_sda"

end Setting

namespace Settings

def entry (s : Settings) (key : String) : Outcome Value := need key (s.get? key)

def text (s : Settings) (key : String) : Outcome String := do (← s.entry key).asText

end Settings

def entityTypeNames : List (String × String) :=
  [("NVARCHAR", "String"), ("SHORTTEXT", "String"), ("NCLOB", "LargeString"),
   ("TEXT", "LargeString"), ("VARBINARY", "Binary"), ("BLOB", "LargeBinary"),
   ("INTEGER", "Integer"), ("INT", "Integer"), ("BIGINT", "Integer64"),
   ("DECIMAL", "DecimalFloat"), ("DOUBLE", "BinaryFloat"), ("DAYDATE", "LocalDate"),
   ("DATE", "LocalDate"), ("SECONDTIME", "LocalTime"), ("TIME", "LocalTime"),
   ("SECONDDATE", "UTCDateTime"), ("LONGDATE", "UTCTimestamp"), ("TIMESTAMP", "UTCTimestamp"),
   ("ALPHANUM", "hana.ALPHANUM"), ("SMALLINT", "hana.SMALLINT"), ("TINYINT", "hana.TINYINT"),
   ("SMALLDECIMAL", "hana.SMALLDECIMAL"), ("REAL", "hana.REAL"), ("VARCHAR", "hana.VARCHAR"),
   ("CLOB", "hana.CLOB"), ("BINARY", "hana.BINARY"), ("ST_POINT", "hana.ST_POINT"),
   ("ST_GEOMETRY", "hana.ST_GEOMETRY")]

def structureTypeNames : List (String × String) :=
  [("NVARCHAR", "C"), ("SHORTTEXT", "C"), ("NCLOB", ""), ("TEXT", ""), ("VARBINARY", ""),
   ("BLOB", ""), ("INTEGER", "I"), ("INT", "I"), ("BIGINT", "I"), ("DECIMAL", ""),
   ("DOUBLE", "FLOAT"), ("DAYDATE", ""), ("DATE", ""), ("SECONDTIME", ""), ("TIME", ""),
   ("SECONDDATE", ""), ("LONGDATE", ""), ("TIMESTAMP", ""), ("ALPHANUM", ""), ("SMALLINT", ""),
   ("TINYINT", ""), ("SMALLDECIMAL", ""), ("REAL", ""), ("VARCHAR", "C"), ("CLOB", ""),
   ("BINARY", ""), ("ST_POINT", ""), ("ST_GEOMETRY", "")]

inductive TableKind where
  | model
  | metric
  | fitted
deriving Repr, DecidableEq

def TableKind.key : TableKind → String
  | model => "category_identfier_model"
  | metric => "category_identfier_metric"
  | fitted => "category_identfier_fitted"

def TableKind.words : TableKind → List String
  | model => ["MODEL"]
  | metric => ["METRIC"]
  | fitted => ["FITTED", "RESULT"]

def Value.ofTable (table : List (String × String)) : Value :=
  .object (table.map fun p => (p.1, .text p.2))

def Settings.builtin : Settings :=
  [(Setting.entityTypes, .ofTable entityTypeNames),
   (Setting.structureTypes, .ofTable structureTypeNames),
   (Setting.categoryWords, .object ([TableKind.model, .metric, .fitted].map fun k =>
      (k.key, .ofTexts k.words)))]

def anyWordIn : List Value → Value → Outcome Bool
  | [], _ => .ok false
  | w :: ws, category => do
      if ← w.isIn category then return true
      anyWordIn ws category

def Settings.isCategory (s : Settings) (category : Value) (key : Value) : Outcome Bool := do
  let words ← s.entry Setting.categoryWords
  if !category.isTruthy then return false
  if ← key.isIn words then anyWordIn (← (← words.item key).members) category else return false

def Settings.isKind (s : Settings) (category : Value) (kind : TableKind) : Outcome Bool :=
  s.isCategory category (.text kind.key)

def Settings.mapSources (s : Settings) (target : Value) : Outcome String := do
  substituteValue target (← s.entry Setting.sourceMapping) false

end TraceArtifacts
