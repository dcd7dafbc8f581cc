/-
JoosStatics.Configuration.SettingsText — the text of a settings file.

Settings are written in TOML. A file is a sequence of lines: a table
header, a key with its value, or nothing, each with an optional comment.
`SettingsText.read?` returns the headers and pairs in order. Settings have
truth values, texts, and tables and arrays of these as values. No setting takes
a number, a date or a time, so of these only the end is looked for.

A key may have fewer than 80 parts and values may be nested less than 80 deep.
In a table on one line no key may be given twice or continue another.
-/
import JoosStatics.Configuration.Scalar
import JoosStatics.Text.Digits

namespace JoosStatics.SettingsText

/-- A key as the list of its dotted parts. -/
abbrev Key := List String

/-- A value of a setting. -/
inductive Value where
  | flag (value : Bool)
  | text (value : String)
  /-- A number, a date or a time. -/
  | scalar
  | table (entries : List (Key × Value))
  | array (items : List Value)

/-- A line that says something. -/
inductive Item where
  | header (key : Key)
  | pair (key : Key) (value : Value)

/-! ## Limits -/

/-- How many parts a key and how many levels a value must stay below. -/
def nestingLimit : Nat := 80

mutual

/-- How deep tables and arrays are nested. -/
def Value.depth : Value → Nat
  | .flag _ | .text _ | .scalar => 0
  | .table entries => entriesDepth entries + 1
  | .array items => itemsDepth items + 1

/-- The depth of the deepest of some entries. -/
def entriesDepth : List (Key × Value) → Nat
  | [] => 0
  | (_, value) :: entries => max value.depth (entriesDepth entries)

/-- The depth of the deepest of some items. -/
def itemsDepth : List Value → Nat
  | [] => 0
  | item :: items => max item.depth (itemsDepth items)

end

/-- Whether no key is given twice and none continues another. -/
def areApart : List Key → Bool
  | [] => true
  | key :: keys =>
    keys.all (fun other => !key.isPrefixOf other && !other.isPrefixOf key) && areApart keys

/-! ## Characters -/

/-- Blanks within a line. -/
def isGap (c : Char) : Bool := c == ' ' || c == '\t'

/-- The text without the blanks at its front. -/
def skipGap (cs : List Char) : List Char := cs.dropWhile isGap

/-- Characters that may stand in a comment or a quoted text: everything but
the control characters, tabs excepted. -/
def isPlain (c : Char) : Bool := c == '\t' || (0x20 ≤ c.toNat && c.toNat != 0x7F)

/-- Characters of a key without quotes. -/
def isKeyChar (c : Char) : Bool := c.isAlphanum || c == '-' || c == '_'

/-- The rest after a line end, if the text begins with one. -/
def lineEnd? : List Char → Option (List Char)
  | '\n' :: rest => some rest
  | '\r' :: '\n' :: rest => some rest
  | _ => none

/-- The rest after the end of a line: blanks, a comment, and a line end or the
end of the text. -/
def finishLine? (cs : List Char) : Option (List Char) :=
  let cs := skipGap cs
  let cs := match cs with
    | '#' :: rest => rest.dropWhile isPlain
    | cs => cs
  if cs.isEmpty then some [] else lineEnd? cs

/-- The rest after blanks, comments and line ends. -/
def skipLines? : (fuel : Nat) → List Char → Option (List Char)
  | 0, _ => none
  | fuel + 1, cs =>
    match skipGap cs with
    | '#' :: rest => do skipLines? fuel (← lineEnd? (rest.dropWhile isPlain))
    | cs =>
      match lineEnd? cs with
      | some rest => skipLines? fuel rest
      | none => some cs

/-! ## Quoted texts -/

/-- The character of an escape whose backslash has been taken. -/
def readEscape? : List Char → Option (Char × List Char)
  | 'b' :: cs => some ('\x08', cs)
  | 't' :: cs => some ('\t', cs)
  | 'n' :: cs => some ('\n', cs)
  | 'f' :: cs => some ('\x0c', cs)
  | 'r' :: cs => some ('\r', cs)
  | '"' :: cs => some ('"', cs)
  | '\\' :: cs => some ('\\', cs)
  | 'u' :: cs => Text.readCode? 4 0 cs
  | 'U' :: cs => Text.readCode? 8 0 cs
  | _ => none

/-- The rest of a text in double quotes on one line; `done` holds its
characters so far, last one first. -/
def readQuoted? : (fuel : Nat) → (done : List Char) → List Char → Option (String × List Char)
  | 0, _, _ => none
  | _ + 1, _, [] => none
  | fuel + 1, done, c :: cs =>
    if c == '"' then some (String.ofList done.reverse, cs)
    else if c == '\\' then do
      let (c, cs) ← readEscape? cs
      readQuoted? fuel (c :: done) cs
    else if isPlain c then readQuoted? fuel (c :: done) cs
    else none

/-- The rest of a text in single quotes on one line. -/
def readLiteral? (cs : List Char) : Option (String × List Char) :=
  match cs.span (fun c => isPlain c && c != '\'') with
  | (body, '\'' :: rest) => some (String.ofList body, rest)
  | _ => none

/-- The text without the blanks and line ends at its front. -/
def skipBreaks : List Char → List Char
  | ' ' :: cs | '\t' :: cs | '\n' :: cs | '\r' :: '\n' :: cs => skipBreaks cs
  | cs => cs

/-- The rest after blanks and line ends, provided that a line end comes before
anything else. -/
def skipLineBreak? (cs : List Char) : Option (List Char) :=
  (lineEnd? (skipGap cs)).map skipBreaks

/-- The rest of a text over several lines between three quotes. Up to two
quotes may stand before the closing ones; in double quotes there are escapes,
and a backslash before a line end joins the lines. -/
def readLines? (quote : Char) :
    (fuel : Nat) → (done : List Char) → List Char → Option (String × List Char)
  | 0, _, _ => none
  | _ + 1, _, [] => none
  | fuel + 1, done, c :: cs =>
    match lineEnd? (c :: cs) with
    | some rest => readLines? quote fuel ('\n' :: done) rest
    | none =>
      if c == quote then
        match (c :: cs).span (· == quote) with
        | (quotes, rest) =>
          if quotes.length < 3 then readLines? quote fuel (quotes ++ done) rest
          else if quotes.length ≤ 5 then
            some (String.ofList (quotes.drop 3 ++ done).reverse, rest)
          else none
      else if c == '\\' && quote == '"' then
        match skipLineBreak? cs with
        | some rest => readLines? quote fuel done rest
        | none =>
          match readEscape? cs with
          | some (c, cs) => readLines? quote fuel (c :: done) cs
          | none => none
      else if isPlain c then readLines? quote fuel (c :: done) cs
      else none

/-- The text without a line end at its front. -/
def dropLineEnd (cs : List Char) : List Char := (lineEnd? cs).getD cs

/-- A text in quotes of any of the four forms. -/
def readText? : List Char → Option (String × List Char)
  | '"' :: '"' :: '"' :: cs => readLines? '"' (cs.length + 1) [] (dropLineEnd cs)
  | '\'' :: '\'' :: '\'' :: cs => readLines? '\'' (cs.length + 1) [] (dropLineEnd cs)
  | '"' :: cs => readQuoted? (cs.length + 1) [] cs
  | '\'' :: cs => readLiteral? cs
  | _ => none

/-! ## Keys and values -/

/-- One part of a key. -/
def readKeyPart? : List Char → Option (String × List Char)
  | '"' :: cs => readQuoted? (cs.length + 1) [] cs
  | '\'' :: cs => readLiteral? cs
  | cs =>
    match cs.span isKeyChar with
    | ([], _) => none
    | (part, rest) => some (String.ofList part, rest)

/-- The parts of a key, of which there are at most as many as the fuel allows,
with blanks around them. -/
def readKeyParts? : (fuel : Nat) → List Char → Option (Key × List Char)
  | 0, _ => none
  | fuel + 1, cs => do
    let (part, rest) ← readKeyPart? (skipGap cs)
    match skipGap rest with
    | '.' :: rest =>
      let (parts, rest) ← readKeyParts? fuel rest
      return (part :: parts, rest)
    | rest => return ([part], rest)

/-- A key. -/
def readKey? (cs : List Char) : Option (Key × List Char) := readKeyParts? (nestingLimit - 1) cs

mutual

/-- A value. -/
def readValue? : (fuel : Nat) → List Char → Option (Value × List Char)
  | 0, _ => none
  | _ + 1, 't' :: 'r' :: 'u' :: 'e' :: cs => some (.flag true, cs)
  | _ + 1, 'f' :: 'a' :: 'l' :: 's' :: 'e' :: cs => some (.flag false, cs)
  | fuel + 1, '\x7b' :: cs =>
    match skipGap cs with
    | '\x7d' :: rest => some (.table [], rest)
    | cs => do
      let (entries, rest) ← readEntries? fuel cs
      if areApart (entries.map Prod.fst) then return (.table entries, rest) else none
  | fuel + 1, '[' :: cs =>
    (readArrayItems? fuel cs).map (fun (items, rest) => (.array items, rest))
  | _ + 1, cs =>
    ((readText? cs).map (fun (text, rest) => (.text text, rest))).or
      ((skipScalar? cs).map (fun rest => (.scalar, rest)))

/-- The entries of a table on one line, to its closing brace. -/
def readEntries? : (fuel : Nat) → List Char → Option (List (Key × Value) × List Char)
  | 0, _ => none
  | fuel + 1, cs => do
    let (key, rest) ← readKey? cs
    match rest with
    | '=' :: rest =>
      let (value, rest) ← readValue? fuel (skipGap rest)
      match skipGap rest with
      | ',' :: rest =>
        let (entries, rest) ← readEntries? fuel rest
        return ((key, value) :: entries, rest)
      | '\x7d' :: rest => return ([(key, value)], rest)
      | _ => none
    | _ => none

/-- The items of an array over any number of lines, to its closing bracket. -/
def readArrayItems? : (fuel : Nat) → List Char → Option (List Value × List Char)
  | 0, _ => none
  | fuel + 1, cs => do
    match ← skipLines? (fuel + 1) cs with
    | ']' :: rest => return ([], rest)
    | cs =>
      let (value, rest) ← readValue? fuel cs
      match ← skipLines? (fuel + 1) rest with
      | ',' :: rest =>
        let (items, rest) ← readArrayItems? fuel rest
        return (value :: items, rest)
      | ']' :: rest => return ([value], rest)
      | _ => none

end

/-! ## Lines -/

/-- A line that says something, and what follows it. -/
def readItem? (fuel : Nat) (cs : List Char) : Option (Item × List Char) :=
  match cs with
  | '[' :: cs => do
    let (key, rest) ← readKey? cs
    match rest with
    | ']' :: rest => return (.header key, ← finishLine? rest)
    | _ => none
  | cs => do
    let (key, rest) ← readKey? cs
    match rest with
    | '=' :: rest =>
      let (value, rest) ← readValue? fuel (skipGap rest)
      if value.depth < nestingLimit then return (.pair key value, ← finishLine? rest) else none
    | _ => none

/-- The lines of a text. -/
def readItems? : (fuel : Nat) → List Char → Option (List Item)
  | 0, _ => none
  | fuel + 1, cs =>
    match skipGap cs with
    | [] => some []
    | c :: rest =>
      if c == '#' || c == '\n' || c == '\r' then do readItems? fuel (← finishLine? (c :: rest))
      else do
        let (item, rest) ← readItem? fuel (c :: rest)
        return item :: (← readItems? fuel rest)

/-- The headers and pairs of a text. A byte order mark at its front is
skipped. -/
def read? (text : String) : Option (List Item) :=
  let cs := match text.toList with
    | '\uFEFF' :: cs => cs
    | cs => cs
  readItems? (cs.length + 2) cs

end JoosStatics.SettingsText
