/-
JoosStatics.Types.Basic — types, signatures and the table of classes.

A `TypeTable` lists the signature of every class and interface; a
`ClassId` is a position in it. Members are addressed by their owner and
their position in its declaration. `Ty.cmp` is the order in which the
signatures of a type are listed.

A `ClassId` is a natural number without a bound. It is assumed that a table has
fewer than 2^32 types, library included, so that 32 bits are enough for one.
-/
import JoosStatics.Syntax.Basic
import JoosStatics.Modifiers

namespace JoosStatics

/-- The position of a class or interface in the table of types. -/
abbrev ClassId := Nat

/-- A type. `null` is the type of the null literal, `void` the result of a
method that returns nothing. -/
inductive Ty where
  | primitive (type : Primitive)
  | declared (id : ClassId)
  | array (element : Ty)
  | null
  | void
  deriving DecidableEq, Repr, Inhabited

namespace Ty

/-- The type `int`. -/
def int : Ty := .primitive .int
/-- The type `boolean`. -/
def boolean : Ty := .primitive .boolean
/-- The type `char`. -/
def char : Ty := .primitive .char

/-- Whether the type is a numeric primitive type. -/
def isNumeric : Ty → Bool
  | .primitive p => p.isNumeric
  | _ => false

/-- Whether the type is `boolean`. -/
def isBoolean : Ty → Bool
  | .primitive .boolean => true
  | _ => false

/-- Class, interface and array types and the null type are references. -/
def isReference : Ty → Bool
  | .declared _ | .array _ | .null => true
  | _ => false

/-- The class of a class or interface type. -/
def classId? : Ty → Option ClassId
  | .declared id => some id
  | _ => none

/-- The element type of an array type. -/
def element? : Ty → Option Ty
  | .array element => some element
  | _ => none

/-- The array type with `dims` dimensions over `base`. -/
def arrayOf (dims : Nat) (base : Ty) : Ty :=
  match dims with
  | 0 => base
  | dims + 1 => .array (arrayOf dims base)

/-- The place of a type's form in the order of types. -/
def rank : Ty → Nat
  | .primitive _ => 0
  | .declared _ => 1
  | .array _ => 2
  | .null => 3
  | .void => 4

/-- Types are ordered by their form: primitive types among themselves, then
classes by position, then arrays by their elements, then `null` and `void`. -/
def cmp : Ty → Ty → Ordering
  | .primitive p, .primitive q => compare p q
  | .declared i, .declared j => compare i j
  | .array a, .array b => cmp a b
  | a, b => compare a.rank b.rank

instance : Ord Ty := ⟨cmp⟩

/-- Only equal types stand at the same place. -/
theorem eq_of_cmp_eq {a b : Ty} (h : cmp a b = .eq) : a = b := by
  induction a generalizing b with
  | primitive p =>
    cases b with
    | primitive q => cases p <;> cases q <;> first | rfl | exact absurd h (by decide)
    | _ => exact absurd h (by simp [cmp, rank])
  | declared i =>
    cases b with
    | declared j => exact congrArg _ (Std.LawfulEqOrd.eq_of_compare h)
    | _ => exact absurd h (by simp [cmp, rank])
  | array a ih =>
    cases b with
    | array b => exact congrArg _ (ih h)
    | _ => exact absurd h (by simp [cmp, rank])
  | null => cases b <;> first | rfl | exact absurd h (by simp [cmp, rank])
  | void => cases b <;> first | rfl | exact absurd h (by simp [cmp, rank])

/-- Every type stands at its own place. -/
theorem cmp_self (a : Ty) : cmp a a = .eq := by
  induction a with
  | primitive p => cases p <;> rfl
  | declared i => exact Nat.compare_eq_eq.mpr rfl
  | array a ih => exact ih
  | null | void => rfl

/-- Types that stand at the same place are the same. -/
instance : Std.LawfulEqOrd Ty where
  compare_self := cmp_self _
  eq_of_compare := eq_of_cmp_eq

end Ty

/-- A field of a class or interface. -/
structure FieldDef where
  name : Name
  type : Ty
  modifiers : Modifiers := .none
  span : Span := {}
  deriving DecidableEq, Repr, Inhabited

/-- A method; `returnType` is `void` for a method that returns nothing. -/
structure MethodDef where
  name : Name
  params : List Ty
  returnType : Ty
  throws : List ClassId := []
  modifiers : Modifiers := .none
  span : Span := {}
  deriving DecidableEq, Repr, Inhabited

/-- Declared `abstract`. -/
def MethodDef.isAbstract (m : MethodDef) : Bool := m.modifiers.isAbstract

/-- Declared `static`. -/
def MethodDef.isStatic (m : MethodDef) : Bool := m.modifiers.isStatic

/-- A constructor. `isDefault` marks the one that a class gets when it
declares none. -/
structure ConstructorDef where
  params : List Ty
  throws : List ClassId := []
  modifiers : Modifiers := .none
  span : Span := {}
  isDefault : Bool := false
  deriving DecidableEq, Repr, Inhabited

/-- The signature of a class or interface. `interfaces` are in the order of
the declaration, repetitions included. -/
structure ClassDef where
  name : QualifiedName
  kind : TypeKind
  modifiers : Modifiers := .none
  superclass : Option ClassId := none
  interfaces : List ClassId := []
  fields : List FieldDef := []
  constructors : List ConstructorDef := []
  methods : List MethodDef := []
  span : Span := {}
  deriving DecidableEq, Repr

namespace ClassDef

instance : Inhabited ClassDef := ⟨{ name := {}, kind := .classType }⟩

/-- Whether the signature is that of an interface. -/
def isInterface (d : ClassDef) : Bool := d.kind == .interfaceType

/-- Interfaces are abstract whatever their modifiers say. -/
def isAbstract (d : ClassDef) : Bool := d.isInterface || d.modifiers.isAbstract

/-- Declared `final`. -/
def isFinal (d : ClassDef) : Bool := d.modifiers.isFinal

/-- The superclass followed by the superinterfaces. -/
def directSupertypes (d : ClassDef) : List ClassId := d.superclass.toList ++ d.interfaces

/-- The name of the type without its package. -/
def simpleName (d : ClassDef) : Name := d.name.last?.getD ""

end ClassDef

/-- A method by its owner and its position in the declaration. -/
structure MethodRef where
  owner : ClassId
  index : Nat
  deriving DecidableEq, Repr, Inhabited

/-- A field by its owner and its position in the declaration. -/
structure FieldRef where
  owner : ClassId
  index : Nat
  deriving DecidableEq, Repr, Inhabited

/-- A constructor by its owner and its position; a default constructor has
position 0. -/
structure ConstructorRef where
  owner : ClassId
  index : Nat
  deriving DecidableEq, Repr, Inhabited

/-- Constructors are ordered by owner, then by position. -/
instance : Ord ConstructorRef :=
  ⟨fun a b => (compare a.owner b.owner).then (compare a.index b.index)⟩

/-- Constructors that stand at the same place are the same. -/
instance : Std.LawfulEqOrd ConstructorRef where
  compare_self := Ordering.then_eq_eq.mpr ⟨Std.ReflCmp.compare_self, Std.ReflCmp.compare_self⟩
  eq_of_compare {a b} h := by
    obtain ⟨howner, hindex⟩ := Ordering.then_eq_eq.mp h
    cases a
    cases b
    exact congr (congrArg _ (Std.LawfulEqOrd.eq_of_compare howner))
      (Std.LawfulEqOrd.eq_of_compare hindex)

/-- The library types that the rules mention. -/
structure WellKnown where
  object : ClassId
  string : ClassId
  cloneable : ClassId
  serializable : ClassId
  throwable : ClassId
  runtimeException : ClassId
  error : ClassId
  deriving DecidableEq, Repr, Inhabited

/-- The signatures of all classes and interfaces. -/
structure TypeTable where
  classes : Array ClassDef
  wellKnown : WellKnown
  deriving Inhabited

namespace TypeTable

/-- The number of classes and interfaces. -/
def size (t : TypeTable) : Nat := t.classes.size

/-- The positions of the table in order. -/
def ids (t : TypeTable) : List ClassId := List.range t.size

/-- The signature at a position. -/
def classAt (t : TypeTable) (id : ClassId) : ClassDef := t.classes.getD id default

/-- The full name of the type at a position. -/
def nameOf (t : TypeTable) (id : ClassId) : String := (t.classAt id).name.toDotted

/-- The first position in a list of signatures that holds a name. -/
def indexIn (classes : Array ClassDef) (name : QualifiedName) : Option ClassId :=
  classes.findIdx? (fun d => d.name == name)

/-- The position of the type with a full name, the first one if several types
have it. -/
def lookup (t : TypeTable) (name : QualifiedName) : Option ClassId := indexIn t.classes name

/-- The position of a type that the rules mention, or else its name. -/
def require (classes : Array ClassDef) (name : String) : Except QualifiedName ClassId :=
  match indexIn classes (.ofDotted name) with
  | some id => .ok id
  | none => .error (.ofDotted name)

/-- The table of a list of signatures. Fails with the first type that the
rules mention and the list lacks. -/
def ofClasses (classes : Array ClassDef) : Except QualifiedName TypeTable := do
  let object ← require classes "java.lang.Object"
  let string ← require classes "java.lang.String"
  let cloneable ← require classes "java.lang.Cloneable"
  let serializable ← require classes "java.io.Serializable"
  let throwable ← require classes "java.lang.Throwable"
  let runtimeException ← require classes "java.lang.RuntimeException"
  let error ← require classes "java.lang.Error"
  return {
    classes
    wellKnown :=
      { object, string, cloneable, serializable, throwable, runtimeException, error } }

/-- The declaration of a method. -/
def methodAt (t : TypeTable) (r : MethodRef) : MethodDef :=
  (t.classAt r.owner).methods.getD r.index default

/-- The declaration of a field. -/
def fieldAt (t : TypeTable) (r : FieldRef) : FieldDef :=
  (t.classAt r.owner).fields.getD r.index default

/-- The declaration of a constructor. -/
def constructorAt (t : TypeTable) (r : ConstructorRef) : ConstructorDef :=
  (t.classAt r.owner).constructors.getD r.index default

section Declarations

variable {t : TypeTable}

theorem methodAt_of_getElem? {r : MethodRef} {m : MethodDef}
    (h : (t.classAt r.owner).methods[r.index]? = some m) : t.methodAt r = m := by
  rw [methodAt, List.getD_eq_getElem?_getD, h]
  rfl

theorem fieldAt_of_getElem? {r : FieldRef} {f : FieldDef}
    (h : (t.classAt r.owner).fields[r.index]? = some f) : t.fieldAt r = f := by
  rw [fieldAt, List.getD_eq_getElem?_getD, h]
  rfl

theorem constructorAt_of_getElem? {r : ConstructorRef} {c : ConstructorDef}
    (h : (t.classAt r.owner).constructors[r.index]? = some c) : t.constructorAt r = c := by
  rw [constructorAt, List.getD_eq_getElem?_getD, h]
  rfl

end Declarations

/-- A type as it is written in messages, with full names. -/
def display (t : TypeTable) : Ty → String
  | .primitive p => p.keyword
  | .declared id => t.nameOf id
  | .array element => t.display element ++ "[]"
  | .null => "null"
  | .void => "void"

/-- A list of types as it is written in messages. -/
def displayList (t : TypeTable) (types : List Ty) : String :=
  ", ".intercalate (types.map t.display)

/-- A name with its parameter types as it is written in messages. -/
def signature (t : TypeTable) (name : Name) (params : List Ty) : String :=
  name ++ "(" ++ t.displayList params ++ ")"

/-- The signature of a method. -/
def methodSignature (t : TypeTable) (m : MethodDef) : String := t.signature m.name m.params

/-- The location of a whole type. -/
def locationOf (t : TypeTable) (id : ClassId) : Location :=
  (Location.ofType (t.nameOf id)).atSpan (t.classAt id).span

end TypeTable

end JoosStatics
