/-
JoosStatics.QualifiedName — identifiers and dotted names.

A `QualifiedName` is a list of identifiers: the name of a package, of a
type, or an expression name whose meaning is not decided yet. Names are
compared segment by segment; `ofDotted` and `toDotted` pass between the
list and its dotted spelling.
-/
import JoosStatics.Text.Blank

namespace JoosStatics

/-- A single identifier. -/
abbrev Name := String

/-- A dotted name as the list of its identifiers. -/
structure QualifiedName where
  segments : List Name := []
  deriving DecidableEq, Repr

/-- The name of a package; the default package is the empty name. -/
abbrev PackageName := QualifiedName

namespace QualifiedName

instance : Inhabited QualifiedName := ⟨{}⟩

/-- Names are ordered by their identifiers from left to right. -/
instance : Ord QualifiedName := ⟨fun a b => compare a.segments b.segments⟩

/-- Names that stand at the same place are the same. -/
instance : Std.LawfulEqOrd QualifiedName where
  compare_self {a} :=
    have h : compare a.segments a.segments = .eq := Std.ReflCmp.compare_self
    h
  eq_of_compare {a b} h := by
    cases a
    cases b
    exact congrArg _ (Std.LawfulEqOrd.eq_of_compare h)

/-- The order of names is a total one. -/
instance : Std.TransOrd QualifiedName where
  eq_swap {a b} :=
    have h : compare a.segments b.segments = (compare b.segments a.segments).swap :=
      Std.OrientedCmp.eq_swap
    h
  isLE_trans {a b c} hab hbc :=
    have h : (compare a.segments c.segments).isLE = true :=
      Std.TransCmp.isLE_trans (b := b.segments) hab hbc
    h

/-- The pieces of a text between its dots. -/
def pieces : List Char → List (List Char)
  | [] => [[]]
  | c :: cs =>
    if c = '.' then [] :: pieces cs
    else match pieces cs with
      | [] => [[c]]
      | p :: ps => (c :: p) :: ps

/-- Reads a dotted text: each piece is trimmed and empty pieces are dropped. -/
def ofDotted (text : String) : QualifiedName :=
  ⟨(((pieces text.toList).map Text.trim).filter (fun piece => piece ≠ [])).map String.ofList⟩

/-- The name of one identifier. -/
def single (name : Name) : QualifiedName := ⟨[name]⟩

/-- The number of identifiers. -/
def length (n : QualifiedName) : Nat := n.segments.length

/-- Whether the name has no identifier. -/
def isEmpty (n : QualifiedName) : Bool := n.segments.isEmpty

/-- Whether the name is a single identifier. -/
def isSimple (n : QualifiedName) : Bool := n.length == 1

/-- The leftmost identifier. -/
def first? (n : QualifiedName) : Option Name := n.segments.head?

/-- The rightmost identifier. -/
def last? (n : QualifiedName) : Option Name := n.segments.getLast?

/-- The first `count` identifiers. -/
def take (n : QualifiedName) (count : Nat) : QualifiedName := ⟨n.segments.take count⟩

/-- Everything but the last identifier: the package of a type's full name. -/
def parent (n : QualifiedName) : QualifiedName := n.take (n.length - 1)

/-- The name followed by one more identifier. -/
def child (n : QualifiedName) (name : Name) : QualifiedName := ⟨n.segments ++ [name]⟩

/-- The identifiers joined by dots. -/
def toDotted (n : QualifiedName) : String := ".".intercalate n.segments

/-- Whether the identifiers of `n` begin those of `other`. -/
def isAncestorOrSelf (n other : QualifiedName) : Bool := n.segments.isPrefixOf other.segments

/-- The name as it is shown while tracing. -/
def inspect (n : QualifiedName) : String := "QualifiedName(" ++ n.toDotted ++ ")"

instance : ToString QualifiedName := ⟨toDotted⟩

end QualifiedName

end JoosStatics
