/-
JoosStatics.Linking.Lowering — from declarations to signatures.

`SymbolTable.lowerAll` resolves every type that is written anywhere in the
units and returns the table of signatures. Types inside the bodies of
program units are resolved too, so that a name that cannot be resolved is
reported before any later stage runs.

* A class without a superclass gets `java.lang.Object`.
* The methods of an interface are public and abstract.
* A class without constructors gets a public one without parameters.
-/
import JoosStatics.Linking.Lookup

namespace JoosStatics

/-- The type written in a statement itself, not in the parts of it. -/
def StmtForm.writtenType? : StmtForm → Option TypeSyntax
  | .localVar type _ _ => some type
  | _ => none

/-- The type written in an expression itself, not in its operands. -/
def ExprForm.writtenType? : ExprForm → Option TypeSyntax
  | .cast type _ | .instanceOf _ type => some type
  | .createArray element _ => some element
  | .create type _ => some (.named type)
  | _ => none

/-- Every type written in an arena, statements first. -/
def BodyArena.writtenTypes (a : BodyArena) : List TypeSyntax :=
  a.stmts.toList.filterMap (fun node => node.form.writtenType?) ++
    a.exprs.toList.filterMap (fun node => node.form.writtenType?)

namespace SymbolTable

/-- The full name of the class above all others. -/
def objectName : QualifiedName := .ofDotted "java.lang.Object"

/-- The superclass of a unit's type: none for an interface and for
`java.lang.Object` itself, `java.lang.Object` when none is written. -/
def lowerSuperclass (s : SymbolTable) (id : ClassId) : LookupM (Option ClassId) := do
  let unit := s.unitAt id
  match unit.decl.kind, unit.decl.superclass with
  | .interfaceType, _ => return none
  | .classType, some ref => return some (← s.resolveRef id ref)
  | .classType, none =>
    if unit.typeName = objectName then return none
    else
      match s.lookup objectName with
      | some object => return some object
      | none =>
        throw {
          cause := .typeNotFound objectName.toDotted
          location := s.locate id unit.decl.range }

/-- The signature of a field. -/
def lowerField (s : SymbolTable) (id : ClassId) (field : FieldDecl) : LookupM FieldDef := do
  return {
    name := field.name
    type := ← s.resolveType id field.type
    modifiers := field.modifiers
    span := field.range }

/-- The types of parameters. -/
def lowerParams (s : SymbolTable) (id : ClassId) (params : List Param) : LookupM (List Ty) :=
  params.mapM (fun param => s.resolveType id param.type)

/-- The types of a throws clause. -/
def lowerThrows (s : SymbolTable) (id : ClassId) (throws : List TypeRef) :
    LookupM (List ClassId) :=
  throws.mapM (s.resolveRef id)

/-- The result type of a method. -/
def lowerResult (s : SymbolTable) (id : ClassId) : Option TypeSyntax → LookupM Ty
  | some type => s.resolveType id type
  | none => return .void

/-- The signature of a method. -/
def lowerMethod (s : SymbolTable) (id : ClassId) (isInterface : Bool) (method : MethodDecl) :
    LookupM MethodDef := do
  let params ← s.lowerParams id method.params
  let returnType ← s.lowerResult id method.returnType
  let throws ← s.lowerThrows id method.throws
  return {
    name := method.name, params, returnType, throws
    modifiers :=
      if isInterface then method.modifiers ||| (.public ||| .abstract) else method.modifiers
    span := method.range }

/-- The signature of a written constructor. -/
def lowerConstructor (s : SymbolTable) (id : ClassId) (constructor : ConstructorDecl) :
    LookupM ConstructorDef := do
  let params ← s.lowerParams id constructor.params
  let throws ← s.lowerThrows id constructor.throws
  return { params, throws, modifiers := constructor.modifiers, span := constructor.range }

/-- The constructor of a class that declares none. -/
def defaultConstructor (decl : TypeDecl) : ConstructorDef :=
  { params := [], modifiers := .public, span := decl.range, isDefault := true }

/-- The constructors of a declaration; an interface has none. -/
def lowerConstructors (s : SymbolTable) (id : ClassId) (decl : TypeDecl) :
    LookupM (List ConstructorDef) :=
  if decl.isInterface then return []
  else if decl.constructors.isEmpty then return [defaultConstructor decl]
  else decl.constructors.mapM (s.lowerConstructor id)

/-- Resolves the types written in bodies of a program unit. -/
def linkBodies (s : SymbolTable) (id : ClassId) (decl : TypeDecl) : LookupM Unit := do
  if !s.isLibrary id then
    decl.bodies.writtenTypes.forM (fun type => do let _ ← s.resolveType id type)

/-- The signature of a unit's type. -/
def lowerUnit (s : SymbolTable) (id : ClassId) : LookupM ClassDef := do
  let unit := s.unitAt id
  let decl := unit.decl
  let superclass ← s.lowerSuperclass id
  let interfaces ← decl.interfaces.mapM (s.resolveRef id)
  let fields ← decl.fields.mapM (s.lowerField id)
  let methods ← decl.methods.mapM (s.lowerMethod id decl.isInterface)
  let constructors ← s.lowerConstructors id decl
  s.linkBodies id decl
  return {
    name := unit.typeName, kind := decl.kind, modifiers := decl.modifiers
    superclass, interfaces, fields, constructors, methods, span := decl.range }

/-- The signatures of all units, once the imports of every unit are valid. -/
def lowerAll (s : SymbolTable) : LookupM TypeTable := do
  s.ids.forM (fun id => ExceptT.mk (pure (s.checkImports id)))
  let classes ← s.ids.mapM s.lowerUnit
  match TypeTable.ofClasses classes.toArray with
  | .ok table => return table
  | .error missing => throw { cause := .typeNotFound missing.toDotted }

end SymbolTable

end JoosStatics
