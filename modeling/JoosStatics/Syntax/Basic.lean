/-
JoosStatics.Syntax.Basic — the leaves of the syntax: type references,
literals and operators.

Programs are parsed elsewhere; the analyzer receives them as trees. Every
closed choice has a `key`, its name in the exchanged form of programs, and
`ofKey?` reads the key back.
-/
import JoosStatics.QualifiedName
import JoosStatics.Location
import JoosStatics.Primitive

namespace JoosStatics

/-- A class or interface as it is named in the source. -/
structure TypeRef where
  name : QualifiedName
  range : Span := {}
  deriving DecidableEq, Repr, Inhabited

/-- A reference to a dotted name, without a position. -/
def TypeRef.ofDotted (text : String) : TypeRef := { name := .ofDotted text }

/-- A type as it is written in the source. -/
inductive TypeSyntax where
  | primitive (type : Primitive)
  | named (type : TypeRef)
  | array (element : TypeSyntax)
  deriving DecidableEq, Repr, Inhabited

namespace TypeSyntax

/-- The position of the innermost type name. -/
def range : TypeSyntax → Span
  | .primitive _ => {}
  | .named type => type.range
  | .array element => element.range

end TypeSyntax

/-- Whether a type declaration is a class or an interface. -/
inductive TypeKind where
  | classType | interfaceType
  deriving DecidableEq, Repr, Inhabited

namespace TypeKind

/-- Every kind. -/
def all : List TypeKind := [.classType, .interfaceType]

/-- The exchanged name of a kind. -/
def key : TypeKind → String
  | .classType => "class"
  | .interfaceType => "interface"

/-- The kind an exchanged name stands for. -/
def ofKey? (text : String) : Option TypeKind := all.find? (fun kind => kind.key == text)

end TypeKind

/-- A literal. -/
inductive Literal where
  | int (value : Int32)
  | bool (value : Bool)
  | char (value : Char)
  | string (value : String)
  | null
  deriving DecidableEq, Repr, Inhabited

/-- The binary operators; `bitAnd` and `bitOr` are the eager forms of `and`
and `or`. -/
inductive BinaryOp where
  | add | sub | mul | div | rem | lt | le | gt | ge | eq | ne | and | or | bitAnd | bitOr
  deriving DecidableEq, Repr, Inhabited

namespace BinaryOp

/-- Every binary operator. -/
def all : List BinaryOp :=
  [.add, .sub, .mul, .div, .rem, .lt, .le, .gt, .ge, .eq, .ne, .and, .or, .bitAnd, .bitOr]

/-- The exchanged name of an operator. -/
def key : BinaryOp → String
  | .add => "add" | .sub => "sub" | .mul => "mul" | .div => "div" | .rem => "rem"
  | .lt => "lt" | .le => "le" | .gt => "gt" | .ge => "ge" | .eq => "eq" | .ne => "ne"
  | .and => "and" | .or => "or" | .bitAnd => "bit_and" | .bitOr => "bit_or"

/-- The operator an exchanged name stands for. -/
def ofKey? (text : String) : Option BinaryOp := all.find? (fun op => op.key == text)

/-- The operator as it is written in the source. -/
def symbol : BinaryOp → String
  | .add => "+" | .sub => "-" | .mul => "*" | .div => "/" | .rem => "%"
  | .lt => "<" | .le => "<=" | .gt => ">" | .ge => ">=" | .eq => "==" | .ne => "!="
  | .and => "&&" | .or => "||" | .bitAnd => "&" | .bitOr => "|"

end BinaryOp

/-- The unary operators. -/
inductive UnaryOp where
  | neg | not
  deriving DecidableEq, Repr, Inhabited

namespace UnaryOp

/-- Every unary operator. -/
def all : List UnaryOp := [.neg, .not]

/-- The exchanged name of an operator. -/
def key : UnaryOp → String
  | .neg => "neg"
  | .not => "not"

/-- The operator an exchanged name stands for. -/
def ofKey? (text : String) : Option UnaryOp := all.find? (fun op => op.key == text)

end UnaryOp

/-- Increments and decrements, before or after the value is taken. -/
inductive IncDecOp where
  | preInc | preDec | postInc | postDec
  deriving DecidableEq, Repr, Inhabited

namespace IncDecOp

/-- Every increment and decrement. -/
def all : List IncDecOp := [.preInc, .preDec, .postInc, .postDec]

/-- The exchanged name of an operator. -/
def key : IncDecOp → String
  | .preInc => "pre_inc" | .preDec => "pre_dec" | .postInc => "post_inc" | .postDec => "post_dec"

/-- The operator an exchanged name stands for. -/
def ofKey? (text : String) : Option IncDecOp := all.find? (fun op => op.key == text)

end IncDecOp

/-- Which class an explicit constructor invocation addresses. -/
inductive ConstructorCallKind where
  | this | super
  deriving DecidableEq, Repr, Inhabited

namespace ConstructorCallKind

/-- Both kinds of invocation. -/
def all : List ConstructorCallKind := [.this, .super]

/-- The exchanged name of a kind. -/
def key : ConstructorCallKind → String
  | .this => "this"
  | .super => "super"

/-- The kind an exchanged name stands for. -/
def ofKey? (text : String) : Option ConstructorCallKind := all.find? (fun kind => kind.key == text)

end ConstructorCallKind

end JoosStatics
