import ScriptSurvey.Files.PathName
import ScriptSurvey.Text.Quoted

/-!
# Which files are analyzed

Scripts are told by the suffix of their names. Bundles, declarations, lock files and whatever lies in
a folder for dependencies or build results are left out.
-/

namespace ScriptSurvey

/-- Folders whose contents are not the project's own. -/
def skippedFolders : List String :=
  [".git", "node_modules", "bower_components", "jspm_packages", "vendor", "__pycache__", "dist",
   "build", ".next", ".nuxt", "coverage", ".idea", ".vscode", "out", "__MACOSX"]

/-- Files that tools write. -/
def skippedFiles : List String :=
  ["package-lock.json", "yarn.lock", "pnpm-lock.yaml"]

/-- Endings of files that tools write. -/
def skippedEndings : List String :=
  [".min.js", ".bundle.js", ".d.ts"]

/-- Suffixes of scripts. -/
def scriptSuffixes : List String :=
  [".js", ".jsx", ".ts", ".tsx", ".mjs", ".cjs", ".mts", ".cts"]

/-- Whether the name of a file is that of a script to analyze. -/
def isScriptName (name : String) : Bool :=
  !skippedFiles.contains name &&
    !skippedEndings.any (·.toList.isSuffixOf (Text.lower name).toList) &&
    scriptSuffixes.contains (Text.lower (PathName.suffixOf name))

/-- Whether a path is that of a script to analyze, outside the folders that are skipped. Backslashes
count as slashes. -/
def isAnalyzable (path : String) : Bool :=
  let parts := PathName.components (PathName.forward path)
  isScriptName (parts.getLast?.getD "") && !parts.dropLast.any skippedFolders.contains

end ScriptSurvey
