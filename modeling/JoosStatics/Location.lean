/-
JoosStatics.Location — positions in source text and in a program.

The analyzer never reads source text. A `Span` is carried from the syntax
tree to the reports; a `Location` names the type, the member and the span
of an offending construct as far as they are known.
-/

namespace JoosStatics

/-- A range of bytes in the source of a compilation unit. -/
structure Span where
  start : UInt64 := 0
  stop : UInt64 := 0
  deriving DecidableEq, Repr

namespace Span

instance : Inhabited Span := ⟨{}⟩

/-- The number of bytes; zero when the ends are reversed. -/
def length (s : Span) : Nat := s.stop.toNat - s.start.toNat

/-- Whether the range covers no byte. -/
def isEmpty (s : Span) : Bool := s.stop ≤ s.start

/-- The two ends as they are written in messages. -/
def toText (s : Span) : String := toString s.start.toNat ++ ".." ++ toString s.stop.toNat

/-- The range as it is shown while tracing. -/
def inspect (s : Span) : String := "Span(" ++ s.toText ++ ")"

end Span

/-- Where a rule is violated: the owning type, the member inside it and the
span of the construct, each absent when unknown. -/
structure Location where
  type? : Option String := none
  member? : Option String := none
  span? : Option Span := none
  deriving DecidableEq, Repr

namespace Location

instance : Inhabited Location := ⟨{}⟩

/-- The location of a whole type. -/
def ofType (type : String) : Location := { type? := some type }

/-- The same location inside a member. -/
def inMember (l : Location) (member : String) : Location := { l with member? := some member }

/-- The same location at a span. -/
def atSpan (l : Location) (span : Span) : Location := { l with span? := some span }

/-- The owner as it is written in messages. -/
def ownerText (l : Location) : Option String :=
  match l.type?, l.member? with
  | some type, some member => some ("in `" ++ type ++ "." ++ member ++ "`")
  | some type, none => some ("in `" ++ type ++ "`")
  | none, some member => some ("in `" ++ member ++ "`")
  | none, none => none

/-- The span as it is written in messages. -/
def spanText (l : Location) : Option String := l.span?.map (fun span => "at " ++ span.toText)

/-- The suffix a location adds to a message: nothing when nothing is known,
else the known parts in parentheses. -/
def toText (l : Location) : String :=
  match [l.ownerText, l.spanText].filterMap id with
  | [] => ""
  | parts => " (" ++ " ".intercalate parts ++ ")"

end Location

end JoosStatics
