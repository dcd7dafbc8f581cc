/-
JoosStatics.Syntax.Unit — declarations and compilation units.

A compilation unit holds the imports and the one type declaration of a
source file. `TypeDecl.isWellFormed` is the validation that every later
stage relies on: all positions are in bounds and the bodies of the members
are disjoint trees.
-/
import JoosStatics.Syntax.Arena
import JoosStatics.Modifiers

namespace JoosStatics

/-- A parameter of a method or constructor. -/
structure Param where
  type : TypeSyntax
  name : Name
  range : Span := {}
  deriving DecidableEq, Repr

/-- A field, with the position of its initializer. -/
structure FieldDecl where
  modifiers : Modifiers := .none
  type : TypeSyntax
  name : Name
  initializer : Option ExprId := none
  range : Span := {}
  deriving DecidableEq, Repr

/-- A method. `returnType` is absent for `void`; `body` is absent for a method
without one. -/
structure MethodDecl where
  modifiers : Modifiers := .none
  returnType : Option TypeSyntax := none
  name : Name
  params : List Param := []
  throws : List TypeRef := []
  body : Option StmtId := none
  range : Span := {}
  deriving DecidableEq, Repr

/-- A constructor, with the position of its root statement. -/
structure ConstructorDecl where
  modifiers : Modifiers := .none
  params : List Param := []
  throws : List TypeRef := []
  body : StmtId
  range : Span := {}
  deriving DecidableEq, Repr

/-- A class or interface declaration. `interfaces` are the types after
`implements` of a class or `extends` of an interface. -/
structure TypeDecl where
  kind : TypeKind
  name : Name
  modifiers : Modifiers := .none
  superclass : Option TypeRef := none
  interfaces : List TypeRef := []
  fields : List FieldDecl := []
  constructors : List ConstructorDecl := []
  methods : List MethodDecl := []
  bodies : BodyArena := {}
  range : Span := {}
  deriving DecidableEq, Repr

namespace TypeDecl

instance : Inhabited TypeDecl := ⟨{ kind := .classType, name := "" }⟩

/-- Whether the declaration is an interface. -/
def isInterface (d : TypeDecl) : Bool := d.kind == .interfaceType

/-- The roots of the field initializers. -/
def exprRoots (d : TypeDecl) : List ExprId := d.fields.filterMap FieldDecl.initializer

/-- The roots of the constructor and method bodies. -/
def stmtRoots (d : TypeDecl) : List StmtId :=
  d.constructors.map ConstructorDecl.body ++ d.methods.filterMap MethodDecl.body

/-- Whether all positions are in bounds and the bodies of the members are
disjoint trees. -/
def isWellFormed (d : TypeDecl) : Bool :=
  d.bodies.isWellFormed && d.exprRoots.all d.bodies.hasExpr && d.stmtRoots.all d.bodies.hasStmt &&
    d.bodies.formsTrees d.stmtRoots d.exprRoots

end TypeDecl

/-- An import declaration. -/
inductive ImportDecl where
  /-- A single-type import `import a.b.C;`. -/
  | single (path : QualifiedName) (range : Span)
  /-- An import on demand `import a.b.*;`. -/
  | onDemand (package : PackageName) (range : Span)
  deriving DecidableEq, Repr

/-- The place of an import in the source. -/
def ImportDecl.range : ImportDecl → Span
  | .single _ range | .onDemand _ range => range

/-- A compilation unit. The path of its file is used in reports only. -/
structure CompilationUnit where
  file : Option String := none
  package : Option PackageName := none
  imports : List ImportDecl := []
  decl : TypeDecl
  deriving DecidableEq, Repr

namespace CompilationUnit

instance : Inhabited CompilationUnit := ⟨{ decl := default }⟩

/-- The package of the unit; the default package is the empty name. -/
def packageName (u : CompilationUnit) : PackageName := u.package.getD {}

/-- The full name of the unit's type. -/
def typeName (u : CompilationUnit) : QualifiedName := u.packageName.child u.decl.name

end CompilationUnit

/-- The compilation units that are analyzed together. -/
structure Program where
  units : List CompilationUnit := []
  deriving DecidableEq, Repr

instance : Inhabited Program := ⟨{}⟩

end JoosStatics
