/-
JoosStatics.Logging.Directive — which records a level applies to.

A directive is a level, alone or with a scope: a target, the name of a span
and a condition on a field, as in `target[span{field=value}]=level`.

* `Directive.ofPiece?` — reads a directive.
* `Scope.order` — the more specific scope comes first.
* `Directive.toText` — a directive as it is written.
-/
import JoosStatics.Logging.FieldMatch
import JoosStatics.Logging.Level
import JoosStatics.Text.Alphanumeric
import JoosStatics.Text.Blank

namespace JoosStatics.Logging

/-- The records that a directive is about; an absent part excludes none. -/
structure Scope where
  target : Option String := none
  span : Option String := none
  field : Option FieldMatch := none
  deriving DecidableEq, Repr

namespace Scope

/-- The order of two scopes by how much they leave open: longer targets, then
the presence of a span, then that of a field count as more specific; equally
specific scopes are told apart by their texts. -/
def order (a b : Scope) : Ordering :=
  (compare (b.target.map String.utf8ByteSize) (a.target.map String.utf8ByteSize)).then <|
    (compare b.span.isSome a.span.isSome).then <|
      (compare b.field.isSome a.field.isSome).then <|
        (compare b.target a.target).then <|
          (compare b.span a.span).then (compare b.field a.field)

instance : Ord Scope := ⟨order⟩

/-- Whether the scope depends on the spans that a record stands in. -/
def isDynamic (s : Scope) : Bool := s.span.isSome || s.field.isSome

/-- Whether the scope can be decided from what is fixed about a record. -/
def isStatic (s : Scope) : Bool := s.span.isNone && s.field.all (fun field => field.value.isNone)

/-- A scope as it is written. -/
def toText (s : Scope) : String :=
  let field := match s.field with
    | none => ""
    | some field => "\x7b" ++ field.toText ++ "\x7d"
  let brackets := if s.isDynamic then "[" ++ s.span.getD "" ++ field ++ "]" else ""
  s.target.getD "" ++ brackets

end Scope

/-- A level for the records in a scope. -/
structure Directive where
  scope : Scope := {}
  level : Level := .trace
  deriving DecidableEq, Repr

namespace Directive

/-- A directive as it is written; an equals sign follows its scope. -/
def toText (d : Directive) : String :=
  if d.scope.target.isSome || d.scope.isDynamic then d.scope.toText ++ "=" ++ d.level.name
  else d.level.name

/-! ## Parts of a piece of text -/

/-- The length of a text in bytes. -/
def byteLength (cs : List Char) : Nat := cs.foldl (fun n c => n + c.utf8Size) 0

/-- A text without its first `count` bytes, if these end between characters. -/
def dropBytes? : (count : Nat) → List Char → Option (List Char)
  | 0, cs => some cs
  | _ + 1, [] => none
  | count + 1, c :: cs =>
    if c.utf8Size ≤ count + 1 then dropBytes? (count + 1 - c.utf8Size) cs else none

/-- The first `count` bytes of a text, if these end between characters. -/
def takeBytes? : (count : Nat) → List Char → Option (List Char)
  | 0, _ => some []
  | _ + 1, [] => none
  | count + 1, c :: cs =>
    if c.utf8Size ≤ count + 1 then (takeBytes? (count + 1 - c.utf8Size) cs).map (c :: ·)
    else none

/-- The part of a piece that lies as far behind its front as `part` lies behind
`before`, and is as long as `part`. -/
def partAt? (piece before part : List Char) : Option String := do
  let rest ← dropBytes? (byteLength before) piece
  return String.ofList (← takeBytes? (byteLength part) rest)

/-- The level at the end of a piece, behind as many bytes as `before` has; it
may be empty. -/
def levelAt? (piece before : List Char) : Option Level := do
  let rest ← dropBytes? (byteLength before) piece
  if rest.isEmpty then return .trace else Level.ofWord? (String.ofList rest)

/-! ## Reading -/

/-- Whether a directive may begin with a character. -/
def mayBegin (c : Char) : Bool :=
  c == '[' || c == '-' || c == ':' || c == '_' || Text.isAlphanumeric c

/-- A directive without brackets and equals sign: a level, or a target of which
everything is logged. -/
def ofWord (word : String) : Directive :=
  match Level.ofWord? word with
  | some level => { level }
  | none => { scope := { target := some word } }

/-- The rest of a directive behind its brackets. -/
def finish? (piece before : List Char) (scope : Scope) : List Char → Option Directive
  | [] => some { scope }
  | '=' :: _ => do return { scope, level := ← levelAt? piece (before ++ ['=']) }
  | _ => none

/-- The rest of a directive behind the opening bracket. -/
def ofBrackets? (piece before : List Char) (target : Option String) (text : List Char) :
    Option Directive := do
  let (name, rest) := text.span (fun c => c != ']' && c != '\x7b')
  let span ← partAt? piece before name
  let before := before ++ name
  match rest with
  | ']' :: rest => finish? piece (before ++ [']']) { target, span } rest
  | '\x7b' :: rest =>
    let before := before ++ ['\x7b']
    let (condition, rest) := rest.span (· != '\x7d')
    match condition, rest with
    | _ :: _, '\x7d' :: ']' :: rest =>
      let field ← FieldMatch.ofText? (← partAt? piece before condition)
      let span := if name.isEmpty then none else some span
      finish? piece (before ++ condition ++ ['\x7d', ']']) { target, span, field } rest
    | _, _ => none
  | _ => none

/-- The directive that a piece of text stands for. Its shape is read without
the blanks around it. The parts are found by counting bytes from the front of
the piece, so blanks in front of it shift them, and blanks behind it belong
to the last one. -/
def ofPiece? (piece : List Char) : Option Directive := do
  let text := Text.trim piece
  if !text.head?.any mayBegin then none
  else
    let (name, rest) := text.span (fun c => c != '=' && c != '[')
    match rest with
    | [] => return ofWord (String.ofList piece)
    | '=' :: _ =>
      let target ← partAt? piece [] name
      return { scope := { target }, level := ← levelAt? piece (name ++ ['=']) }
    | _ :: rest =>
      let target ← partAt? piece [] name
      ofBrackets? piece (name ++ ['[']) (if name.isEmpty then none else some target) rest

end Directive

end JoosStatics.Logging
