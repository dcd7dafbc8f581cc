/-
JoosStatics.Json.Basic — JSON values.

An object is the list of its members in the order they are written, so a
repeated key is still seen by the readers of records. A number is an
`int` when it is written without fraction and exponent and fits 64 bits;
every other number is kept as its text, since no record has a field for it.

* `Json.record?`, `Json.tagged?` — the fields of a record, with or without a
  tag that says its kind.
* `Field` and `Json.field` — how a record reads one of its fields.
* `TagStyle` — whether a tag has to be a name.
* `Json.unitVariant?`, `Json.emptyVariant?`, `Json.variant?` — how a choice
  is read.
-/

namespace JoosStatics

/-- A JSON value. -/
inductive Json where
  | null
  | bool (value : Bool)
  | int (value : Int)
  | real (text : String)
  | str (text : String)
  | arr (items : List Json)
  | obj (members : List (String × Json))

namespace Json

instance : Inhabited Json := ⟨.null⟩

/-- What an object holds under a key. -/
inductive Field where
  | absent
  | present (value : Json)
  | repeated

/-- The members of an object; no other value has any. -/
def members? : Json → Option (List (String × Json))
  | .obj members => some members
  | _ => none

/-- The fields of a record with the fields `names`. A record is an object, or
the array of its values in the order of `names`, where the values after the
first `least` may be left out at the end. -/
def record? (names : List String) (least : Nat) : Json → Option (List (String × Json))
  | .obj members => some members
  | .arr values =>
    if least ≤ values.length ∧ values.length ≤ names.length then some (names.zip values) else none
  | _ => none

/-- The field of a record stored under `key`. -/
def field (members : List (String × Json)) (key : String) : Field :=
  match members.filter (fun member => member.1 == key) with
  | [] => .absent
  | [member] => .present member.2
  | _ => .repeated

/-- A field that has to be written. -/
def required {α : Type} (members : List (String × Json)) (key : String)
    (read : Json → Option α) : Option α :=
  match field members key with
  | .present value => read value
  | _ => none

/-- A field that may be left out, with the value it then has. -/
def defaulted {α : Type} (members : List (String × Json)) (key : String) (absent : α)
    (read : Json → Option α) : Option α :=
  match field members key with
  | .absent => some absent
  | .present value => read value
  | .repeated => none

/-- An absent value is written as `null`. -/
def nullable {α : Type} (read : Json → Option α) : Json → Option (Option α)
  | .null => some none
  | value => (read value).map some

/-- A field without a value may be left out or be `null`. -/
def optional {α : Type} (members : List (String × Json)) (key : String)
    (read : Json → Option α) : Option (Option α) :=
  defaulted members key none (nullable read)

/-- A truth value. -/
def bool? : Json → Option Bool
  | .bool value => some value
  | _ => none

/-- A text. -/
def str? : Json → Option String
  | .str text => some text
  | _ => none

/-- An integer that fits 64 bits. -/
def int? : Json → Option Int
  | .int value => some value
  | _ => none

/-- A natural number below `bound`. -/
def natBelow? (bound : Nat) : Json → Option Nat
  | .int (.ofNat n) => if n < bound then some n else none
  | _ => none

/-- A text of exactly one character. -/
def char? : Json → Option Char
  | .str text =>
    match text.toList with
    | [c] => some c
    | _ => none
  | _ => none

/-- How the kind of a tagged record is written. -/
inductive TagStyle where
  /-- By its name. -/
  | named
  /-- By its name or by its position among the kinds. -/
  | numbered
  deriving DecidableEq, Repr

/-- The kind that a tag stands for, with the names of its fields. -/
def kind? (style : TagStyle) (kinds : List (String × List String)) :
    Json → Option (String × List String)
  | .str name => kinds.find? (fun kind => kind.1 == name)
  | .int (.ofNat position) => if style = .numbered then kinds[position]? else none
  | _ => none

/-- The kind and the fields of a record with a tag: an object with the tag
under `key`, or an array that begins with it. A kind has the fields that
`kinds` gives, and `tail` after them, which an array may leave out. -/
def tagged? (style : TagStyle) (key tail : String) (kinds : List (String × List String)) :
    Json → Option (String × List (String × Json))
  | .obj members => (required members key (kind? style kinds)).map (fun kind => (kind.1, members))
  | .arr (tag :: values) => do
    let (kind, fields) ← kind? style kinds tag
    return (kind, ← record? (fields ++ [tail]) fields.length (.arr values))
  | _ => none

/-- The items of an array, each read by `read`. -/
def list? {α : Type} (read : Json → Option α) : Json → Option (List α)
  | .arr items => items.mapM read
  | _ => none

/-- The name of a choice without a payload: a text, or an object with that
one key and `null` under it. -/
def unitVariant? : Json → Option String
  | .str name => some name
  | .obj [(name, .null)] => some name
  | _ => none

/-- The name of a choice without a payload, where an empty object may also
stand for the missing payload. -/
def emptyVariant? : Json → Option String
  | .obj [(name, .obj [])] => some name
  | j => j.unitVariant?

/-- The name and payload of a choice: an object with exactly one key. -/
def variant? : Json → Option (String × Json)
  | .obj [member] => some member
  | _ => none

/-- An absent value is written as `null`. -/
def ofOption {α : Type} (write : α → Json) : Option α → Json
  | none => .null
  | some value => write value

/-- A list is written as an array. -/
def ofList {α : Type} (write : α → Json) (items : List α) : Json := .arr (items.map write)

/-- A natural number. -/
def ofNat (n : Nat) : Json := .int (Int.ofNat n)

end Json

end JoosStatics
