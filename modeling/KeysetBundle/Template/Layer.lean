/-!
# Function layers

A layer provides functions of templates: it turns the name of a function and its compiled
arguments into an expression of a script.
-/

namespace KeysetBundle.Template

/-- A provider of functions. -/
structure Layer where
  /-- The name of the layer. -/
  name : String
  /-- The expression of a call: `none` if the layer does not provide the function, an error with
  the reason if it does and refuses the arguments. -/
  call : String → List String → Option (Except String String)

namespace Layer

/-- The functions of the runtime class: `plural` picks a form by a count, `i18n` refers to another
key. -/
def localization : Layer where
  name := "i18n"
  call function arguments :=
    if function = "plural" then
      some <|
        if arguments.length = 4 ∨ arguments.length = 5 then
          .ok ("i18n.plural(" ++ ", ".intercalate arguments ++ ")")
        else
          .error ("`plural` expects a count and 3 or 4 forms, got " ++
            toString arguments.length ++ " argument(s)")
    else if function = "i18n" then
      some <|
        match arguments with
        | [keyset, key] => .ok ("i18n(" ++ keyset ++ ", " ++ key ++ ", params)")
        | _ =>
          .error ("`i18n` expects a keyset and a key, got " ++ toString arguments.length ++
            " argument(s)")
    else none

end Layer

end KeysetBundle.Template
