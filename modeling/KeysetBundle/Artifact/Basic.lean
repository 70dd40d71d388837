import KeysetBundle.Artifact.Dispatcher
import KeysetBundle.Collection.Compiled
import KeysetBundle.Language

/-!
# Artifacts

The text of a bundle: a prologue that brings in the runtime class, one registration for each
keyset, and an epilogue that sets the language and publishes the runtime. The bundle of no
language has registrations only.
-/

namespace KeysetBundle.Artifact

open KeysetBundle.Text (doubleQuoted singleQuoted)

/-- The name under which a registry of modules knows the runtime, unless the configuration names
another. -/
def defaultModuleName : String := "y-i18n"

/-- The lines joined by line feeds. -/
def lines (items : List String) : String := "\n".intercalate items

/-- The text before the registrations. -/
def prologue (language : Language) (classSource : String) : String :=
  if language.isAll then ""
  else
    "(function()\x7b\nfunction initKeyset(i18n) \x7b\n" ++
      "if (!i18n || typeof i18n !== \"function\") \x7b\n" ++
      "i18n = " ++ classSource ++ "\n\x7d\n\n"

/-- The line of a key. -/
def entryLine (entry : String × String) : String :=
  "    " ++ doubleQuoted entry.1 ++ ": " ++ entry.2

/-- The lines of the keys, with a comma after each but the last. -/
def entryLines : List (String × String) → List String
  | [] => []
  | [entry] => [entryLine entry]
  | entry :: rest => (entryLine entry ++ ",") :: entryLines rest

/-- The lines that register a keyset. -/
def registration (keyset : CompiledKeyset) : List String :=
  ("i18n.add(" ++ singleQuoted keyset.name ++ ", \x7b") :: entryLines keyset.entries ++ ["\x7d);"]

/-- The registrations, with a blank line between each two. -/
def body (keysets : List CompiledKeyset) : String :=
  "\n\n".intercalate (keysets.map fun keyset => lines (registration keyset))

/-- The text after the registrations. -/
def epilogue (language : Language) (moduleName : String) : String :=
  if language.isAll then ""
  else
    lines <|
      ["i18n.setLanguage(" ++ singleQuoted language.tag ++ ");", "return i18n;", "\x7d"] ++
        dispatcher Convention.all moduleName ++ ["\x7d)();"]

/-- The text of the bundle of a language. -/
def generate (language : Language) (classSource : String) (keysets : List CompiledKeyset)
    (moduleName : String) : String :=
  prologue language classSource ++ "\n" ++ body keysets ++ "\n" ++ epilogue language moduleName

end KeysetBundle.Artifact
