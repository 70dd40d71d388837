import KeysetBundle.Text.Combining

/-!
# Quoted text in messages

The form in which a message shows a text that may hold anything: in double quotes, with both
quotes, the backslash and all characters escaped that cannot be seen.
-/

namespace KeysetBundle.Text

/-- The code points of control characters, format characters, blanks other than the space, and
characters for private use. -/
def unseenRanges : List (Nat × Nat) :=
  [
    (0, 31), (127, 160), (173, 173), (1536, 1541), (1564, 1564), (1757, 1757), (1807, 1807),
    (2192, 2193), (2274, 2274), (5760, 5760), (6158, 6158), (8192, 8203), (8205, 8207),
    (8232, 8239), (8287, 8292), (8294, 8303), (12288, 12288), (57344, 63743), (65279, 65279),
    (65529, 65531), (69821, 69821), (69837, 69837), (78896, 78911), (113824, 113827),
    (119155, 119162), (917505, 917505), (983040, 1048573), (1048576, 1114109)
  ]

/-- Whether a character cannot be seen on its own. -/
def isUnseen (c : Char) : Bool := isCombining c || inRanges unseenRanges c.toNat

/-- A character inside the quotes of a message. -/
def diagnosticEscape (c : Char) : List Char :=
  if c = '"' then ['\\', '"']
  else if c = '\\' then ['\\', '\\']
  else if c = '\'' then ['\\', '\'']
  else if c = '\x00' then ['\\', '0']
  else if c = '\t' then ['\\', 't']
  else if c = '\n' then ['\\', 'n']
  else if c = '\r' then ['\\', 'r']
  else if isUnseen c then ['\\', 'u', '\x7b'] ++ Nat.toDigits 16 c.toNat ++ ['\x7d']
  else [c]

/-- The text in double quotes, as a message shows it. -/
def diagnosticQuoted (text : String) : String :=
  String.ofList ('"' :: text.toList.flatMap diagnosticEscape ++ ['"'])

end KeysetBundle.Text
