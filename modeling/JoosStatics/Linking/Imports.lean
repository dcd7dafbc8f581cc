/-
JoosStatics.Linking.Imports — the imports of a unit and their validity.

Every unit imports `java.lang.*` implicitly, after its own on-demand
imports. `SymbolTable.checkImports` validates the imports of a unit whether
they are used or not: a single-type import has to name a declared type, may
not bring in a second type under the name of the declared one or of an
earlier import, and a package imported on demand has to exist.
-/
import JoosStatics.Linking.SymbolTable

namespace JoosStatics

/-- An import `import a.b.C;` with the simple name that it brings in. -/
structure SingleImport where
  path : QualifiedName
  imported : Name
  range : Span
  deriving DecidableEq, Repr

/-- An import `import a.b.*;`. Every unit has an implicit one. -/
structure OnDemandImport where
  package : PackageName
  range : Span
  isImplicit : Bool
  deriving DecidableEq, Repr

/-- The imports of a unit by form, each in source order. -/
structure Imports where
  single : List SingleImport
  onDemand : List OnDemandImport
  deriving DecidableEq, Repr

/-- The single-type import of a declaration; a path without identifiers brings
in nothing. -/
def ImportDecl.single? : ImportDecl → Option SingleImport
  | .single path range => path.last?.map (fun imported => { path, imported, range })
  | .onDemand .. => none

/-- The on-demand import of a declaration. -/
def ImportDecl.onDemand? : ImportDecl → Option OnDemandImport
  | .single .. => none
  | .onDemand package range => some { package, range, isImplicit := false }

namespace Imports

/-- The import that every unit has. -/
def javaLang : OnDemandImport :=
  { package := .ofDotted "java.lang", range := {}, isImplicit := true }

/-- The imports of a unit. -/
def ofUnit (unit : CompilationUnit) : Imports :=
  { single := unit.imports.filterMap ImportDecl.single?
    onDemand := unit.imports.filterMap ImportDecl.onDemand? ++ [javaLang] }

/-- The on-demand imports that are written in the source. -/
def explicitOnDemand (i : Imports) : List OnDemandImport :=
  i.onDemand.filter (fun imp => !imp.isImplicit)

end Imports

namespace SymbolTable

/-- The imports of the unit with a number. -/
def importsOf (s : SymbolTable) (id : ClassId) : Imports := .ofUnit (s.unitAt id)

/-- Validates single-type imports in order; `earlier` are those before them. -/
def checkSingleImports (s : SymbolTable) (id : ClassId) (earlier : List SingleImport) :
    List SingleImport → Except Violation Unit
  | [] => .ok ()
  | imp :: rest =>
    let unit := s.unitAt id
    let fail (cause : Cause) : Except Violation Unit :=
      .error { cause, location := s.locate id imp.range }
    if (s.lookup imp.path).isNone then fail (.typeNotFound imp.path.toDotted)
    else if imp.imported = unit.decl.name ∧ imp.path ≠ unit.typeName then
      fail (.singleTypeImportClash imp.path.toDotted)
    else
      match earlier.find? (fun e => e.imported = imp.imported ∧ e.path ≠ imp.path) with
      | some e => fail (.ambiguousImport imp.imported [e.path.toDotted, imp.path.toDotted])
      | none => s.checkSingleImports id (earlier ++ [imp]) rest

/-- Validates on-demand imports in order. -/
def checkOnDemandImports (s : SymbolTable) (id : ClassId) :
    List OnDemandImport → Except Violation Unit
  | [] => .ok ()
  | imp :: rest =>
    if s.packageExists imp.package then s.checkOnDemandImports id rest
    else .error {
      cause := .nonExistingPackage imp.package.toDotted, location := s.locate id imp.range }

/-- Validates the imports of a unit, single-type imports first. -/
def checkImports (s : SymbolTable) (id : ClassId) : Except Violation Unit := do
  s.checkSingleImports id [] (s.importsOf id).single
  s.checkOnDemandImports id (s.importsOf id).explicitOnDemand

end SymbolTable

end JoosStatics
