/-!
# Names of targets

The name of a bundle is made from a template: `?` stands for the base name and a placeholder for
the tag of the language. The base name is put in first, so a placeholder in it is filled too.
-/

namespace KeysetBundle.TargetName

/-- The template that is used unless the configuration names another. -/
def default : String := "?.lang.\x7blang\x7d.js"

/-- The text with every `?` replaced by `base`. -/
def fillBase (base : List Char) (template : List Char) : List Char :=
  template.flatMap fun c => if c = '?' then base else [c]

/-- The text with every placeholder of the language, read from the left, replaced by `tag`. -/
def fillLanguage (tag : List Char) : List Char → List Char
  | [] => []
  | '{' :: 'l' :: 'a' :: 'n' :: 'g' :: '}' :: rest => tag ++ fillLanguage tag rest
  | c :: rest => c :: fillLanguage tag rest

/-- Whether a text has a placeholder of the language. -/
def mentionsLanguage : List Char → Bool
  | [] => false
  | '{' :: 'l' :: 'a' :: 'n' :: 'g' :: '}' :: _ => true
  | _ :: rest => mentionsLanguage rest

/-- The name of the bundle of a language. -/
def resolve (template base tag : String) : String :=
  String.ofList (fillLanguage tag.toList (fillBase base.toList template.toList))

/-- Whether the names that a template gives depend on the language. -/
def hasLanguage (template : String) : Bool := mentionsLanguage template.toList

end KeysetBundle.TargetName
