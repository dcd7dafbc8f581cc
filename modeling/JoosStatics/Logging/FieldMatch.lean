/-
JoosStatics.Logging.FieldMatch — conditions on the fields of a log record.

* `FieldValue.ofText?` — what a field has to hold: a truth value, a number,
  or a text that matches a pattern.
* `FieldMatch.ofText?` — a field name, with or without a value.
* `FieldMatch.toText` — a condition as it is written.

Conditions are ordered, since a filter lists its directives by what they
ask for.
-/
import JoosStatics.Decimal.Shortest
import JoosStatics.Logging.Pattern.Validity

namespace JoosStatics.Logging

/-- What a field has to hold. The forms are ordered as they are listed. -/
inductive FieldValue where
  | flag (value : Bool)
  | real (value : Double)
  | notANumber
  | natural (value : Nat)
  | integer (value : Int)
  /-- A text that matches a regular expression. -/
  | pattern (text : String)
  deriving DecidableEq, Repr

namespace FieldValue

/-- The place of a form among the forms. -/
def rank : FieldValue → Nat
  | .flag _ => 0
  | .real _ => 1
  | .notANumber => 2
  | .natural _ => 3
  | .integer _ => 4
  | .pattern _ => 5

/-- The order of two values. -/
def order : FieldValue → FieldValue → Ordering
  | .flag a, .flag b => compare a b
  | .real a, .real b => compare a b
  | .natural a, .natural b => compare a b
  | .integer a, .integer b => compare a b
  | .pattern a, .pattern b => compare a b
  | a, b => compare a.rank b.rank

instance : Ord FieldValue := ⟨order⟩

/-- A truth value. -/
def flag? : List Char → Option FieldValue
  | ['t', 'r', 'u', 'e'] => some (.flag true)
  | ['f', 'a', 'l', 's', 'e'] => some (.flag false)
  | _ => none

/-- A natural number of 64 bits. -/
def natural? (cs : List Char) : Option FieldValue :=
  (Text.unsigned? cs).bind (fun n => if n < UInt64.size then some (.natural n) else none)

/-- An integer of 64 bits. -/
def integer? (cs : List Char) : Option FieldValue :=
  (Text.signed? cs).bind (fun n =>
    if Int64.minValue.toInt ≤ n ∧ n ≤ Int64.maxValue.toInt then some (.integer n) else none)

/-- The exponent at the end of a real number, zero when there is none. -/
def exponent? : List Char → Option Int
  | [] => some 0
  | c :: rest => if c == 'e' || c == 'E' then Text.signed? rest else none

/-- The magnitude of a real number: digits with a point before, between or
after them, and an exponent. -/
def magnitude? (cs : List Char) : Option Double :=
  let (whole, rest) := cs.span Char.isDigit
  let (fraction, rest) := match rest with
    | '.' :: rest => rest.span Char.isDigit
    | rest => ([], rest)
  if whole.isEmpty && fraction.isEmpty then none
  else (exponent? rest).map (fun exponent =>
    .ofDecimal (Text.digitsValue (whole ++ fraction)) (exponent - Int.ofNat fraction.length))

/-- A real number without its sign. The names of infinity and of what is not a
number may be written in any case. -/
def unsignedReal? (negative : Bool) (cs : List Char) : Option FieldValue :=
  let word := (String.ofList cs).toLower
  if word == "nan" then some .notANumber
  else if word == "inf" || word == "infinity" then some (.real { Double.infinity with negative })
  else (magnitude? cs).map (fun value => .real { value with negative })

/-- A real number. -/
def real? : List Char → Option FieldValue
  | '-' :: rest => unsignedReal? true rest
  | '+' :: rest => unsignedReal? false rest
  | rest => unsignedReal? false rest

/-- The value that a text stands for; a text that is neither a truth value nor
a number is a pattern. -/
def ofText? (text : String) : Option FieldValue :=
  let cs := text.toList
  (flag? cs).or <| (natural? cs).or <| (integer? cs).or <| (real? cs).or <|
    if Pattern.isValid text then some (.pattern text) else none

/-- A value as it is written. -/
def toText : FieldValue → String
  | .flag value => if value then "true" else "false"
  | .real value => value.toText
  | .notANumber => "NaN"
  | .natural value => toString value
  | .integer value => toString value
  | .pattern text => text

end FieldValue

/-- A condition on a field: that it is there or, with a value, what it holds. -/
structure FieldMatch where
  name : String
  value : Option FieldValue := none
  deriving DecidableEq, Repr

namespace FieldMatch

/-- The order of two conditions: those without a value first, then by name,
then by value. -/
def order (a b : FieldMatch) : Ordering :=
  (compare a.value.isSome b.value.isSome).then <|
    (compare a.name b.name).then (compare a.value b.value)

instance : Ord FieldMatch := ⟨order⟩

/-- The condition that a text stands for: a name, and a value after an equals
sign. What follows a second one does not count. -/
def ofText? (text : String) : Option FieldMatch :=
  match text.toList.span (· != '=') with
  | (name, '=' :: rest) =>
    (FieldValue.ofText? (String.ofList (rest.takeWhile (· != '=')))).map (fun value =>
      { name := String.ofList name, value := some value })
  | (name, _) => some { name := String.ofList name }

/-- A condition as it is written. -/
def toText (m : FieldMatch) : String :=
  match m.value with
  | none => m.name
  | some value => m.name ++ "=" ++ value.toText

end FieldMatch

end JoosStatics.Logging
