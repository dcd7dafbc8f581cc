/-
JoosStatics.Json.Writer — writing JSON text.

* `Json.compact` — one line, without white space.
* `Json.pretty` — two blanks a level, one item a line, empty arrays and
  objects closed at once.

Strings escape the quote, the backslash and the control characters below
U+0020; every other character is written as it is.
-/
import JoosStatics.Json.Basic

namespace JoosStatics.Json

/-- A hexadecimal digit in lower case. -/
def hexDigit (n : Nat) : Char :=
  if n < 10 then Char.ofNat ('0'.toNat + n) else Char.ofNat ('a'.toNat + (n - 10))

/-- One character inside a string. -/
def escapeChar (c : Char) : List Char :=
  if c == '"' then ['\\', '"']
  else if c == '\\' then ['\\', '\\']
  else if c == '\n' then ['\\', 'n']
  else if c == '\r' then ['\\', 'r']
  else if c == '\t' then ['\\', 't']
  else if c == '\x08' then ['\\', 'b']
  else if c == '\x0c' then ['\\', 'f']
  else if c.toNat < 0x20 then
    ['\\', 'u', '0', '0', hexDigit (c.toNat / 16), hexDigit (c.toNat % 16)]
  else [c]

/-- A string between quotes. -/
def quote (text : String) : String :=
  "\"" ++ String.ofList (text.toList.flatMap escapeChar) ++ "\""

mutual

/-- A value on one line. -/
def compact : Json → String
  | .null => "null"
  | .bool true => "true"
  | .bool false => "false"
  | .int n => toString n
  | .real text => text
  | .str text => quote text
  | .arr items => "[" ++ compactItems items ++ "]"
  | .obj members => "\x7b" ++ compactMembers members ++ "\x7d"
termination_by structural value => value

/-- Items separated by commas. -/
def compactItems : List Json → String
  | [] => ""
  | [item] => compact item
  | item :: items => compact item ++ "," ++ compactItems items
termination_by structural items => items

/-- Members separated by commas. -/
def compactMembers : List (String × Json) → String
  | [] => ""
  | [member] => compactMember member
  | member :: members => compactMember member ++ "," ++ compactMembers members
termination_by structural members => members

/-- A key with its value. -/
def compactMember : String × Json → String
  | (key, value) => quote key ++ ":" ++ compact value
termination_by structural member => member

end

/-- A new line indented by `level` levels. -/
def newLine (level : Nat) : String := "\n" ++ String.ofList (List.replicate (2 * level) ' ')

mutual

/-- A value over several lines; `level` is the indentation it stands at. -/
def prettyAt (level : Nat) : Json → String
  | .arr [] => "[]"
  | .obj [] => "\x7b\x7d"
  | .arr items => "[" ++ prettyItems (level + 1) items ++ newLine level ++ "]"
  | .obj members => "\x7b" ++ prettyMembers (level + 1) members ++ newLine level ++ "\x7d"
  | value => compact value
termination_by structural value => value

/-- Items on lines of their own. -/
def prettyItems (level : Nat) : List Json → String
  | [] => ""
  | [item] => newLine level ++ prettyAt level item
  | item :: items => newLine level ++ prettyAt level item ++ "," ++ prettyItems level items
termination_by structural items => items

/-- Members on lines of their own. -/
def prettyMembers (level : Nat) : List (String × Json) → String
  | [] => ""
  | [member] => newLine level ++ prettyMember level member
  | member :: members =>
    newLine level ++ prettyMember level member ++ "," ++ prettyMembers level members
termination_by structural members => members

/-- A key with its value. -/
def prettyMember (level : Nat) : String × Json → String
  | (key, value) => quote key ++ ": " ++ prettyAt level value
termination_by structural member => member

end

/-- A value over several lines. -/
def pretty (value : Json) : String := prettyAt 0 value

end JoosStatics.Json
