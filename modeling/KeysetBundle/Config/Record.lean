import KeysetBundle.Config.Basic
import KeysetBundle.Json.Decode
import KeysetBundle.Json.Parser
import KeysetBundle.Json.Printer

/-!
# Configuration files

A configuration file is a data text with a record of the settings. Settings that are missing have
their defaults; a setting without a value is not written.
-/

namespace KeysetBundle.Config

/-- The names of the settings in their order. -/
def fieldNames : List String :=
  ["levels", "dirSuffix", "langs", "i18nFile", "target", "outputDir", "base", "moduleName"]

/-- The configuration that a data value holds. -/
def ofJson? (json : Json) : Option Config := do
  match ← json.record? fieldNames with
  | [levels, dirSuffix, langs, runtimeFile, target, outputDir, base, moduleName] =>
    some {
      levels := ← Json.fieldOr? default.levels Json.texts? levels
      dirSuffix := ← Json.fieldOr? default.dirSuffix Json.text? dirSuffix
      langs := ← Json.fieldOr? default.langs Json.texts? langs
      runtimeFile := ← Json.fieldOr? none Json.optionalText? runtimeFile
      target := ← Json.fieldOr? default.target Json.text? target
      outputDir := ← Json.fieldOr? default.outputDir Json.text? outputDir
      base := ← Json.fieldOr? none Json.optionalText? base
      moduleName := ← Json.fieldOr? default.moduleName Json.text? moduleName }
  | _ => none

/-- The configuration of a file with the given text. -/
def ofText? (text : String) : Option Config := (Json.parse text).bind ofJson?

/-- A setting that is written only if it has a value. -/
def optionalMember (name : String) (value : Option String) : List (String × Json) :=
  match value with
  | some text => [(name, .ofText text)]
  | none => []

/-- The data value of a configuration. -/
def toJson (config : Config) : Json :=
  .ofMembers <|
    [("levels", .ofTexts config.levels), ("dirSuffix", .ofText config.dirSuffix),
      ("langs", .ofTexts config.langs)] ++
    optionalMember "i18nFile" config.runtimeFile ++
    [("target", .ofText config.target), ("outputDir", .ofText config.outputDir)] ++
    optionalMember "base" config.base ++
    [("moduleName", .ofText config.moduleName)]

/-- The text of a file with the configuration. -/
def render (config : Config) : String := config.toJson.pretty

end KeysetBundle.Config
