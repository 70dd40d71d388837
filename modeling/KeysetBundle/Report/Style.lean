/-!
# Styled text

Text in a terminal may be bold, dimmed or coloured. A style starts with a control sequence that
names its codes and ends with one that resets all styles; where the text itself resets all styles,
the style is started again. Without colours a text is shown as it is.
-/

namespace KeysetBundle.Report

/-- How a text is shown. -/
inductive Style
  /-- Heavy. -/
  | bold
  /-- Faint. -/
  | dimmed
  /-- In red. -/
  | red
  /-- In green. -/
  | green
  /-- In blue. -/
  | blue
  /-- In cyan. -/
  | cyan
  /-- Heavy and in yellow. -/
  | boldYellow
  deriving DecidableEq, Repr, Inhabited

/-- The codes of a style. -/
def Style.codes : Style → String
  | .bold => "1"
  | .dimmed => "2"
  | .red => "31"
  | .green => "32"
  | .blue => "34"
  | .cyan => "36"
  | .boldYellow => "1;33"

/-- The sequence that starts a style. -/
def Style.start (style : Style) : List Char :=
  '\x1b' :: '[' :: style.codes.toList ++ ['m']

/-- The sequence that resets all styles. -/
def reset : List Char := ['\x1b', '[', '0', 'm']

/-- The text with `start` after each sequence that resets all styles. -/
def restart (start : List Char) : List Char → List Char
  | [] => []
  | '\x1b' :: '[' :: '0' :: 'm' :: rest => reset ++ start ++ restart start rest
  | c :: rest => c :: restart start rest

/-- The text in a style, if there are colours. -/
def paint (color : Bool) (style : Style) (text : String) : String :=
  if color then String.ofList (style.start ++ restart style.start text.toList ++ reset) else text

end KeysetBundle.Report
