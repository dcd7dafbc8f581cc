/-
JoosStatics.Modifiers — declaration modifiers as a set of bits.

The five modifiers of the language take the lowest five bits; a set may
carry further bits, which have no name and no meaning.
-/

namespace JoosStatics

/-- A set of declaration modifiers. -/
structure Modifiers where
  bits : UInt16 := 0
  deriving DecidableEq, Repr

namespace Modifiers

instance : Inhabited Modifiers := ⟨{}⟩

/-- No modifier. -/
def none : Modifiers := ⟨0⟩
/-- The modifier `public`. -/
def «public» : Modifiers := ⟨1⟩
/-- The modifier `protected`. -/
def «protected» : Modifiers := ⟨2⟩
/-- The modifier `static`. -/
def static : Modifiers := ⟨4⟩
/-- The modifier `final`. -/
def final : Modifiers := ⟨8⟩
/-- The modifier `abstract`. -/
def «abstract» : Modifiers := ⟨16⟩

/-- The modifiers with their keywords, in the order they are written. -/
def keywords : List (Modifiers × String) :=
  [(«public», "public"), («protected», "protected"), (static, "static"), (final, "final"),
    («abstract», "abstract")]

/-- Whether every bit of `other` is in `m`. -/
def contains (m other : Modifiers) : Bool := m.bits &&& other.bits == other.bits

/-- The modifiers of either set. -/
def union (m other : Modifiers) : Modifiers := ⟨m.bits ||| other.bits⟩

instance : OrOp Modifiers := ⟨union⟩

/-- Declared `public`. -/
def isPublic (m : Modifiers) : Bool := m.contains «public»
/-- Declared `protected`. -/
def isProtected (m : Modifiers) : Bool := m.contains «protected»
/-- Declared `static`. -/
def isStatic (m : Modifiers) : Bool := m.contains static
/-- Declared `final`. -/
def isFinal (m : Modifiers) : Bool := m.contains final
/-- Declared `abstract`. -/
def isAbstract (m : Modifiers) : Bool := m.contains «abstract»

/-- The keywords of the set, separated by blanks. -/
def toText (m : Modifiers) : String :=
  " ".intercalate ((keywords.filter (fun entry => m.contains entry.1)).map Prod.snd)

/-- The set as it is shown while tracing. -/
def inspect (m : Modifiers) : String := "Modifiers(" ++ m.toText ++ ")"

instance : ToString Modifiers := ⟨toText⟩

end Modifiers

end JoosStatics
