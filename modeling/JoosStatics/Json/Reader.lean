/-
JoosStatics.Json.Reader — reading JSON text.

The reader is strict: one value, nothing but white space around it, no
trailing commas, no control characters inside strings, escapes of paired
surrogates only, at most 127 nested arrays and objects, and no number out of
range. Numbers are only estimated: of the digits those count that fit 64
bits, so the largest doubles are out of range in some spellings.

Each `read…` function takes characters off the front of a list and leaves the
value read with the rest of the text; it is structural or counts down a bound
taken from the length of the input.
-/
import JoosStatics.Json.Basic
import JoosStatics.Decimal.Double
import JoosStatics.Text.Digits

namespace JoosStatics.Json

open Text (digitsValue hexDigit?)

/-- White space between the tokens of JSON. -/
def isSpace (c : Char) : Bool := c == ' ' || c == '\n' || c == '\r' || c == '\t'

/-- The text without its leading white space. -/
def skipSpace (cs : List Char) : List Char := cs.dropWhile isSpace

/-- The value of four hexadecimal digits. -/
def readHex4 : List Char → Option (Nat × List Char)
  | a :: b :: c :: d :: rest => do
    let a ← hexDigit? a
    let b ← hexDigit? b
    let c ← hexDigit? c
    let d ← hexDigit? d
    return (((a * 16 + b) * 16 + c) * 16 + d, rest)
  | _ => none

/-- A UTF-16 escape whose `\u` has been taken: one unit, or two that form a
surrogate pair. -/
def readUnicode (cs : List Char) : Option (Char × List Char) := do
  let (high, rest) ← readHex4 cs
  if 0xDC00 ≤ high ∧ high ≤ 0xDFFF then none
  else if 0xD800 ≤ high ∧ high ≤ 0xDBFF then
    match rest with
    | '\\' :: 'u' :: rest =>
      let (low, rest) ← readHex4 rest
      if 0xDC00 ≤ low ∧ low ≤ 0xDFFF then
        return (Char.ofNat (0x10000 + (high - 0xD800) * 0x400 + (low - 0xDC00)), rest)
      else none
    | _ => none
  else return (Char.ofNat high, rest)

/-- The character of a one-letter escape. -/
def escaped? : Char → Option Char
  | '"' => some '"'
  | '\\' => some '\\'
  | '/' => some '/'
  | 'b' => some '\x08'
  | 'f' => some '\x0c'
  | 'n' => some '\n'
  | 'r' => some '\r'
  | 't' => some '\t'
  | _ => none

/-- The rest of a string whose opening quote has been taken; `done` holds the
characters read so far, last one first. -/
def readString : Nat → List Char → List Char → Option (String × List Char)
  | 0, _, _ => none
  | _ + 1, _, [] => none
  | _ + 1, done, '"' :: rest => some (String.ofList done.reverse, rest)
  | fuel + 1, done, '\\' :: 'u' :: rest => do
    let (c, rest) ← readUnicode rest
    readString fuel (c :: done) rest
  | fuel + 1, done, '\\' :: e :: rest => do
    let c ← escaped? e
    readString fuel (c :: done) rest
  | fuel + 1, done, c :: rest =>
    if c == '\\' || c.toNat < 0x20 then none else readString fuel (c :: done) rest

/-- The decimal digits at the front of a text. -/
def readDigits (cs : List Char) : List Char × List Char := cs.span Char.isDigit

/-- The parts of a number as it is written. -/
structure NumberText where
  negative : Bool
  whole : List Char
  fraction : List Char := []
  exponentNegative : Bool := false
  exponent : List Char := []
  isInteger : Bool

/-- The mark and digits of an exponent, when there is one. -/
def readExponent : List Char → Option (Option (Bool × List Char) × List Char)
  | [] => some (none, [])
  | c :: rest =>
    if c == 'e' || c == 'E' then
      let (negative, rest) := match rest with
        | '-' :: rest => (true, rest)
        | '+' :: rest => (false, rest)
        | rest => (false, rest)
      match readDigits rest with
      | ([], _) => none
      | (digits, rest) => some (some (negative, digits), rest)
    else some (none, c :: rest)

/-- The digits after a decimal point, when there is one. -/
def readFraction : List Char → Option (Option (List Char) × List Char)
  | '.' :: rest =>
    match readDigits rest with
    | ([], _) => none
    | (digits, rest) => some (some digits, rest)
  | rest => some (none, rest)

/-- A number in its written form: no leading zeros, digits on both sides of a
point and after an exponent mark. -/
def readNumberText (cs : List Char) : Option (NumberText × List Char) := do
  let (negative, cs) := match cs with
    | '-' :: rest => (true, rest)
    | rest => (false, rest)
  let (whole, cs) := readDigits cs
  let wellFormed := match whole with
    | [] => false
    | '0' :: _ :: _ => false
    | _ => true
  if !wellFormed then none
  else do
    let (fraction, cs) ← readFraction cs
    let (exponent, cs) ← readExponent cs
    return ({
      negative, whole
      fraction := fraction.getD []
      exponentNegative := (exponent.map Prod.fst).getD false
      exponent := (exponent.map Prod.snd).getD []
      isInteger := fraction.isNone && exponent.isNone }, cs)

/-- Appends digits to a significand while it fits 64 bits; the other part of
the result are the digits left over. -/
def takeDigits : (significand : Nat) → List Char → Nat × List Char
  | significand, [] => (significand, [])
  | significand, d :: rest =>
    let next := significand * 10 + (d.toNat - '0'.toNat)
    if next < UInt64.size then takeDigits next rest else (significand, d :: rest)

/-- The estimate of a number's magnitude as a significand of 64 bits and a
power of ten. Each digit left over of the whole part raises the exponent, and
digits left over of the fraction do not count. -/
def NumberText.estimate (n : NumberText) : Nat × Int :=
  let (significand, wholeRest) := takeDigits 0 n.whole
  let (significand, fractionRest) := takeDigits significand n.fraction
  let written := Int.ofNat (digitsValue n.exponent)
  (significand,
    Int.ofNat wholeRest.length - Int.ofNat (n.fraction.length - fractionRest.length) +
      (if n.exponentNegative then -written else written))

/-- Whether a number is out of range: the product of its significand and its
power of ten, both taken as doubles, is infinite. -/
def NumberText.overflows (n : NumberText) : Bool :=
  match n.estimate with
  | (0, _) | (_, .negSucc _) => false
  | (significand, .ofNat exponent) =>
    (Double.mul (.ofDecimal significand 0) (.ofDecimal 1 exponent)).isInfinite

/-- The value of the number that stands between the texts `before` and `after`
it was read. Integers of up to 64 bits are exact; `-0` and all others are
reals. -/
def NumberText.value? (n : NumberText) (before after : List Char) : Option Json :=
  let magnitude := digitsValue n.whole
  if n.isInteger && !n.negative && magnitude < UInt64.size then some (.int (Int.ofNat magnitude))
  else if n.isInteger && n.negative && 0 < magnitude &&
      Int64.minValue.toInt ≤ -Int.ofNat magnitude then
    some (.int (-Int.ofNat magnitude))
  else if n.overflows then none
  else some (.real (String.ofList (before.take (before.length - after.length))))

/-- A number. -/
def readNumber (cs : List Char) : Option (Json × List Char) := do
  let (number, rest) ← readNumberText cs
  let value ← number.value? cs rest
  return (value, rest)

/-- A fixed word at the front of a text. -/
def readWord (word : List Char) (value : Json) (cs : List Char) : Option (Json × List Char) :=
  if word.isPrefixOf cs then some (value, cs.drop word.length) else none

/-- The deepest nesting of arrays and objects that is read. -/
def maxDepth : Nat := 127

mutual

/-- A value, with `depth` further levels of nesting allowed. -/
def readValue : Nat → Nat → List Char → Option (Json × List Char)
  | 0, _, _ => none
  | fuel + 1, depth, cs =>
    match skipSpace cs with
    | '"' :: rest => (readString fuel [] rest).map (fun (text, rest) => (.str text, rest))
    | '[' :: rest =>
      match depth, skipSpace rest with
      | 0, _ => none
      | _ + 1, ']' :: rest => some (.arr [], rest)
      | depth + 1, rest =>
        (readItems fuel depth rest).map (fun (items, rest) => (.arr items, rest))
    | '\x7b' :: rest =>
      match depth, skipSpace rest with
      | 0, _ => none
      | _ + 1, '\x7d' :: rest => some (.obj [], rest)
      | depth + 1, rest =>
        (readMembers fuel depth rest).map (fun (members, rest) => (.obj members, rest))
    | 't' :: rest => readWord "rue".toList (.bool true) rest
    | 'f' :: rest => readWord "alse".toList (.bool false) rest
    | 'n' :: rest => readWord "ull".toList .null rest
    | cs => readNumber cs

/-- The items of an array whose bracket has been taken. -/
def readItems : Nat → Nat → List Char → Option (List Json × List Char)
  | 0, _, _ => none
  | fuel + 1, depth, cs => do
    let (item, rest) ← readValue fuel depth cs
    match skipSpace rest with
    | ',' :: rest =>
      let (items, rest) ← readItems fuel depth rest
      return (item :: items, rest)
    | ']' :: rest => return ([item], rest)
    | _ => none

/-- The members of an object whose brace has been taken. -/
def readMembers : Nat → Nat → List Char → Option (List (String × Json) × List Char)
  | 0, _, _ => none
  | fuel + 1, depth, cs =>
    match skipSpace cs with
    | '"' :: rest => do
      let (key, rest) ← readString fuel [] rest
      match skipSpace rest with
      | ':' :: rest =>
        let (value, rest) ← readValue fuel depth rest
        match skipSpace rest with
        | ',' :: rest =>
          let (members, rest) ← readMembers fuel depth rest
          return ((key, value) :: members, rest)
        | '\x7d' :: rest => return ([(key, value)], rest)
        | _ => none
      | _ => none
    | _ => none

end

/-- The value that a whole text denotes. -/
def ofText? (text : String) : Option Json :=
  let cs := text.toList
  match readValue (cs.length + 2) maxDepth cs with
  | some (value, rest) => if (skipSpace rest).isEmpty then some value else none
  | none => none

end JoosStatics.Json
