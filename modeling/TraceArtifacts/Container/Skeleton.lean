import TraceArtifacts.Container.FileText
import TraceArtifacts.FileTree

/-!
# The skeleton of a container module

A new module has a directory of sources with a directory for each kind of artifact.
-/

namespace TraceArtifacts.Container

def plugins : List (String × String) :=
  [("hdbcollection", "collection"), ("hdbsystemversioning", "systemversioning"),
   ("hdbsynonym", "synonym"), ("hdbsynonymconfig", "synonym.config"), ("hdbtable", "table"),
   ("hdbdropcreatetable", "dropcreatetable"), ("hdbvirtualtable", "virtualtable"),
   ("hdbvirtualtableconfig", "virtualtable.config"), ("hdbindex", "index"),
   ("hdbfulltextindex", "fulltextindex"), ("hdbconstraint", "constraint"),
   ("hdbtrigger", "trigger"), ("hdbstatistics", "statistics"), ("hdbview", "view"),
   ("hdbcalculationview", "calculationview"), ("hdbprojectionview", "projectionview"),
   ("hdbprojectionviewconfig", "projectionview.config"), ("hdbresultcache", "resultcache"),
   ("hdbcds", "cds"), ("hdbfunction", "function"), ("hdbvirtualfunction", "virtualfunction"),
   ("hdbvirtualfunctionconfig", "virtualfunction.config"),
   ("hdbhadoopmrjob", "virtualfunctionpackage.hadoop"), ("jar", "virtualfunctionpackage.hadoop"),
   ("hdbtabletype", "tabletype"), ("hdbprocedure", "procedure"),
   ("hdbvirtualprocedure", "virtualprocedure"),
   ("hdbvirtualprocedureconfig", "virtualprocedure.config"),
   ("hdbafllangprocedure", "afllangprocedure"), ("hdblibrary", "library"),
   ("hdbsequence", "sequence"), ("hdbrole", "role"), ("hdbroleconfig", "role.config"),
   ("hdbstructuredprivilege", "structuredprivilege"),
   ("hdbanalyticprivilege", "analyticprivilege"), ("hdbtabledata", "tabledata"),
   ("csv", "tabledata.source"), ("properties", "tabledata.properties"),
   ("tags", "tabledata.properties"), ("hdbgraphworkspace", "graphworkspace"),
   ("hdbflowgraph", "flowgraph"), ("hdbreptask", "reptask"),
   ("hdbsearchruleset", "searchruleset"), ("hdbtextconfig", "textconfig"),
   ("hdbtextdict", "textdictionary"), ("hdbtextrule", "textrule"),
   ("hdbtextinclude", "textrule.include"), ("hdbtextlexicon", "textrule.lexicon"),
   ("hdbtextminingconfig", "textminingconfig"), ("txt", "copyonly"), ("ds_store", "copyonly")]

def pluginText (p : String × String) : String :=
  unlines ["        \"" ++ p.1 ++ "\" : \x7b",
    "            \"plugin_name\" : \"com.sap.hana.di." ++ p.2 ++ "\"",
    "        \x7d"]

def pluginsText : String :=
  unlines ["\x7b", "    \"plugin_version\" : \"2.0.0.0\",", "    \"file_suffixes\" : \x7b",
    String.intercalate ",\n" (plugins.map pluginText), "    \x7d", "\x7d"]

def namespaceText (name subfolder : String) : String :=
  unlines ["\x7b", "    \"name\":    \"" ++ name ++ "\",",
    "    \"subfolder\": \"" ++ subfolder ++ "\"", "\x7d"]

def namespaceFile : String := ".hdinamespace"

def artifactDirectory (name : String) : List (Location × Node) :=
  [(["src", name], .directory),
   (["src", name, namespaceFile], .file (namespaceText "" "ignore"))]

def skeleton (directories : List String) : List (Location × Node) :=
  [(["src"], .directory), (["src", ".hdiconfig"], .file pluginsText),
   (["src", namespaceFile], .file (namespaceText "anything" "append"))] ++
    directories.flatMap artifactDirectory

def directories : List String := ["cds", "grants", "procedures", "roles", "synonyms"]

def remoteDirectories : List String := directories ++ ["virtualtable"]

end TraceArtifacts.Container
