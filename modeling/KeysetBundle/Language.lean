/-!
# Language tags

A bundle is made for one language. The tag `all` stands for no language: its bundle holds
registrations only.
-/

namespace KeysetBundle

/-- The language of a bundle. -/
inductive Language
  /-- No language: registrations without the runtime class. -/
  | all
  /-- The language of a tag. -/
  | named (tag : String)
  deriving DecidableEq, Repr, Inhabited

/-- A text that is no language tag. -/
structure Language.InvalidTag where
  /-- The text in question. -/
  tag : String
  deriving DecidableEq, Repr

namespace Language

/-- The tag that selects no language. -/
def allTag : String := "all"

/-- Letters, digits, `_` and `-` of ASCII make up a tag. -/
def isTagChar (c : Char) : Bool :=
  c.isAlphanum || c == '_' || c == '-'

/-- A tag has at least one character, and tag characters only. -/
def isTag (text : String) : Bool :=
  !text.toList.isEmpty && text.toList.all isTagChar

/-- The tag of a language. -/
def tag : Language → String
  | .all => allTag
  | .named tag => tag

/-- The language that a tag names, whether or not the tag is well formed. -/
def ofTag (tag : String) : Language :=
  if tag = allTag then .all else .named tag

/-- Reads a tag. -/
def parse (text : String) : Except InvalidTag Language :=
  if text = allTag then .ok .all
  else if isTag text then .ok (.named text)
  else .error ⟨text⟩

/-- Whether the language is the one without a tag of its own. -/
def isAll : Language → Bool
  | .all => true
  | .named _ => false

/-- The name of the keyset files of the language. -/
def keysetFileName (language : Language) : String :=
  language.tag ++ ".js"

/-- The text shown for a refused tag. -/
def InvalidTag.message (e : InvalidTag) : String :=
  "Invalid language tag \"" ++ e.tag ++ "\""

end Language

end KeysetBundle
