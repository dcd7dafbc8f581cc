/-
JoosStatics.Primitive — the primitive types of the language.

There is no `long`, `float` or `double`. `Primitive.widensTo` is the
widening primitive conversion restricted to the types that remain;
`widensTo_iff` says it is the order generated by
`byte < short < int` and `char < int`.
-/

namespace JoosStatics

/-- The primitive types, in the order used to sort signatures. -/
inductive Primitive where
  | boolean | byte | short | char | int
  deriving DecidableEq, Repr, Ord

namespace Primitive

instance : Inhabited Primitive := ⟨.int⟩

/-- Every primitive type. -/
def all : List Primitive := [.boolean, .byte, .short, .char, .int]

/-- The keyword of a type. -/
def keyword : Primitive → String
  | .boolean => "boolean"
  | .byte => "byte"
  | .short => "short"
  | .char => "char"
  | .int => "int"

/-- The type a keyword names. -/
def ofKeyword? (text : String) : Option Primitive := all.find? (fun p => p.keyword == text)

/-- Every type but `boolean` is numeric. -/
def isNumeric : Primitive → Bool
  | .boolean => false
  | _ => true

/-- Widening primitive conversion, the identity included. -/
def widensTo (source target : Primitive) : Bool :=
  match source, target with
  | .byte, .short | .byte, .int | .short, .int | .char, .int => true
  | _, _ => source == target

instance : ToString Primitive := ⟨keyword⟩

/-- A keyword is read back as its type. -/
theorem ofKeyword?_keyword (p : Primitive) : ofKeyword? p.keyword = some p := by
  cases p <;> decide

/-- One step of widening. -/
inductive WidensDirectly : Primitive → Primitive → Prop
  | byteShort : WidensDirectly .byte .short
  | shortInt : WidensDirectly .short .int
  | charInt : WidensDirectly .char .int

/-- Widening is the reflexive, transitive closure of its single steps. -/
theorem widensTo_iff (p q : Primitive) :
    p.widensTo q = true ↔
      p = q ∨ WidensDirectly p q ∨ ∃ m, WidensDirectly p m ∧ WidensDirectly m q := by
  constructor
  · intro h
    cases p <;> cases q <;> first
      | exact absurd h (by decide)
      | exact .inl rfl
      | exact .inr (.inl .byteShort)
      | exact .inr (.inl .shortInt)
      | exact .inr (.inl .charInt)
      | exact .inr (.inr ⟨_, .byteShort, .shortInt⟩)
  · rintro (rfl | h | ⟨m, h, h'⟩)
    · cases p <;> rfl
    · cases h <;> rfl
    · cases h <;> cases h'
      rfl

end Primitive

end JoosStatics
