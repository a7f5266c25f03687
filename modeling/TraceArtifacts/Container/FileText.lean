/-!
# Texts of container files

The files of a container are made from texts with placeholders between doubled angle brackets.
-/

namespace TraceArtifacts.Container

def unlines (ls : List String) : String := String.intercalate "\n" ls

namespace FileText

def manifest : String := unlines
  ["ID: <<MODULE_APPID>>",
   "_schema-version: '2.0'",
   "version: <<MODULE_VERSION>>",
   "",
   "modules:",
   " - name: <<MODULE_NAME>>",
   "   type: hdb",
   "   path: <<MODULE_NAME>>",
   "   requires:                          # db module needs:",
   "    - name: <<MODULE_NAME>>_HDI      # RESOURCENAME within YMAL",
   "      properties:",
   "        TARGET_CONTAINER: ~\x7bhdi-container-name\x7d   # determination of the" ++
     " name by parameter: hdi-container-name",
   "    - group: SERVICE_REPLACEMENTS",
   "      name: cross-container-service-RESOURCENAME",
   "      properties:",
   "          key: LOGICAL_GRANTACCESS_SERVICE",
   "          service: ~\x7bthe-service-name\x7d",
   "          ",
   "resources:",
   " - name: <<MODULE_NAME>>_HDI",
   "   parameters:",
   "      config:",
   "         schema: <<SCHEMA_NAME>>",
   "   properties:",
   "      hdi-container-name: $\x7bservice-name\x7d         # get hdi service-name" ++
     " into the variable: hdi-container-name",
   "   type: com.sap.xs.hdi-container",
   "",
   " - name: cross-container-service-RESOURCENAME",
   "   parameters:",
   "      service-name: <<USP_FOR_GRANTS>>",
   "   properties:",
   "      the-service-name: $\x7bservice-name\x7d",
   "   type: org.cloudfoundry.existing-service"]

def grants : String := unlines
  ["\x7b",
   "  \"LOGICAL_GRANTACCESS_SERVICE\":\x7b",
   "    \"object_owner\":\x7b",
   "      \"global_roles\" : [",
   "        \x7b",
   "          \"roles\" : [ \"AFL__SYS_AFL_AFLPAL_EXECUTE\"]",
   "        \x7d",
   "      ],",
   "      \"schema_privileges\": <<SCHEMA_PRIVILEGES_WITH>>",
   "    \x7d,",
   "    \"application_user\":\x7b",
   "      \"global_roles\" : [",
   "        \x7b",
   "          \"roles\" : [ \"AFL__SYS_AFL_AFLPAL_EXECUTE\"]",
   "        \x7d",
   "      ],",
   "      \"schema_privileges\": <<SCHEMA_PRIVILEGES>>",
   "    \x7d",
   "  \x7d",
   "\x7d"]

def remoteGrants : String := unlines
  ["\x7b",
   "  \"LOGICAL_GRANTACCESS_SERVICE\":\x7b",
   "    \"object_owner\":\x7b",
   "      \"global_object_privileges\": [",
   "        \x7b",
   "            \"name\": \"<<REMOTE_SOURCE>>\",",
   "            \"type\": \"REMOTE SOURCE\",",
   "            \"privileges\": [",
   "            \"CREATE VIRTUAL TABLE\"",
   "          ],",
   "          \"privileges_with_grant_option\": []",
   "        \x7d",
   "      ],",
   "      \"global_roles\" : [",
   "        \x7b",
   "          \"roles\" : [ \"AFL__SYS_AFL_AFLPAL_EXECUTE\"]",
   "        \x7d",
   "      ],",
   "      \"schema_privileges\": <<SCHEMA_PRIVILEGES_WITH>>",
   "    \x7d,",
   "    \"application_user\":\x7b",
   "      \"global_roles\" : [",
   "        \x7b",
   "          \"roles\" : [ \"AFL__SYS_AFL_AFLPAL_EXECUTE\"]",
   "        \x7d",
   "      ],",
   "      \"schema_privileges\": <<SCHEMA_PRIVILEGES>>",
   "    \x7d",
   "  \x7d",
   "\x7d"]

def procedure : String := unlines
  ["PROCEDURE <<PROCEDURE_NAME>>(<<INTERFACE>>)",
   "    LANGUAGE SQLSCRIPT",
   "    SQL SECURITY INVOKER",
   "    AS",
   "BEGIN",
   "<<SQL_PLACEHOLDER>>",
   "END"]

def role : String := unlines
  ["\x7b",
   "    \"role\":\x7b",
   "        \"name\": \"<<ROLE_NAME>>\",",
   "        \"schema_privileges\":[",
   "                \x7b",
   "                    \"privileges\": [\"SELECT\", \"CREATE ANY\", \"EXECUTE\"," ++
     " \"INSERT\", \"DELETE\"]",
   "                \x7d",
   "        ]",
   "    \x7d",
   "\x7d",
   ""]

/-- The role of those who may pass on the use of a container. -/
def grantingRole : String := unlines
  ["\x7b",
   "    \"role\":\x7b",
   "        \"name\": \"<<ROLE_NAME>>#\",",
   "        \"schema_privileges\":[",
   "                \x7b",
   "                    \"privileges_with_grant_option\": [\"SELECT\", \"CREATE" ++
     " ANY\", \"EXECUTE\", \"INSERT\", \"DELETE\"]",
   "                \x7d",
   "        ]",
   "    \x7d",
   "\x7d",
   ""]

def virtualTable : String := unlines
  ["VIRTUAL TABLE \"<<VIRTUAL_TABLE>>\" AT" ++
     " \"<<CONNECTION_NAME>>\".\"<NULL>\".<<SOURCE_SCHEMA_TABLE>>"]

def entities : String := unlines
  ["context <<CONTEXT_NAME>> \x7b",
   "<<CONTEXT_CONTENT>>",
   "\x7d;"]

end FileText

end TraceArtifacts.Container
