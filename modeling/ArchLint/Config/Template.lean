/-!
# A configuration to start from
-/

namespace ArchLint

def configTemplateLines : List String :=
  [ "# archcheck configuration",
    "",
    "[analyzer]",
    "# Root directory to analyze (default: current directory)",
    "# root = \"./src/main/java\"",
    "",
    "# Glob patterns to exclude from analysis",
    "exclude = [",
    "    \"**/target/**\",",
    "    \"**/build/**\",",
    "    \"**/generated/**\",",
    "]",
    "",
    "# Files in these packages (or beneath them) are skipped entirely",
    "ignore_packages = []",
    "",
    "# Respect .gitignore files",
    "respect_gitignore = true",
    "",
    "# Rule configurations",
    "# Each rule can be enabled/disabled and have its severity overridden",
    "",
    "[rules.require-base-class]",
    "enabled = true",
    "suffix = \"HTMLAction\"",
    "base_class = \"HTMLActionSupport\"",
    "# exempt_annotation = \"Deprecated\"",
    "# ignore_inner_classes = false",
    "",
    "[rules.forbidden-dependency]",
    "enabled = true",
    "from = \"com.sun.j2ee.blueprints.processmanager\"",
    "to = \"com.sun.j2ee.blueprints.opc\"",
    "# message = \"Classes in processmanager should not call classes in opc.\"",
    "",
    "[rules.no-parameter-reassignment]",
    "enabled = true",
    "# severity = \"error\"" ]

def configTemplate : String :=
  String.join (configTemplateLines.map fun line => line ++ "\n")

end ArchLint
