/-
JoosStatics.Linking.SymbolTable — every declared type by name and by
package.

Units are numbered in the order in which they are added, program units
first, so a number below `programSize` denotes a program type. Three
indexes grow with the units:

* `byName` — the number of each full type name;
* `packages` — the types declared directly in each package;
* `inhabited` — the packages that hold a type, directly or in a
  subpackage.
-/
import JoosStatics.Syntax.Unit
import JoosStatics.Types.Basic
import JoosStatics.OrderedMap
import JoosStatics.Violation

namespace JoosStatics

/-- The units of a program and its library, indexed by name and package. -/
structure SymbolTable where
  units : Array CompilationUnit := #[]
  programSize : Nat := 0
  byName : OrderedMap QualifiedName ClassId := ∅
  packages : OrderedMap PackageName (OrderedMap Name ClassId) := ∅
  inhabited : OrderedSet PackageName := ∅

namespace SymbolTable

instance : Inhabited SymbolTable := ⟨{}⟩

/-- The number of units. -/
def size (s : SymbolTable) : Nat := s.units.size

/-- The numbers of all units, in order. -/
def ids (s : SymbolTable) : List ClassId := List.range s.size

/-- The numbers of the program's units, in order. -/
def programIds (s : SymbolTable) : List ClassId := List.range s.programSize

/-- Whether a number denotes a library unit. -/
def isLibrary (s : SymbolTable) (id : ClassId) : Bool := s.programSize ≤ id

/-- The unit with a number. -/
def unitAt (s : SymbolTable) (id : ClassId) : CompilationUnit := s.units.getD id default

/-- The number of the type with a full name. -/
def lookup (s : SymbolTable) (name : QualifiedName) : Option ClassId := s.byName.find? name

/-- The types declared directly in a package, by simple name. -/
def typesIn (s : SymbolTable) (package : PackageName) : Option (OrderedMap Name ClassId) :=
  s.packages.find? package

/-- The type with a simple name declared directly in a package. -/
def lookupIn (s : SymbolTable) (package : PackageName) (name : Name) : Option ClassId :=
  (s.typesIn package).bind (fun types => types.find? name)

/-- A package exists when it or one of its subpackages declares a type. -/
def packageExists (s : SymbolTable) (package : PackageName) : Bool := s.inhabited.contains package

/-- A package together with all packages around it, outermost first. -/
def enclosing (package : PackageName) : List PackageName :=
  (List.range (package.length + 1)).map package.take

/-- Adds a unit under the next number. A full name may be declared once. -/
def add (s : SymbolTable) (unit : CompilationUnit) : Except Violation SymbolTable :=
  let name := unit.typeName
  let id := s.size
  if s.byName.contains name then
    .error {
      cause := .duplicateType name.toDotted
      location := (Location.ofType name.toDotted).atSpan unit.decl.range }
  else
    let package := unit.packageName
    .ok { s with
      units := s.units.push unit
      byName := s.byName.insert name id
      packages :=
        s.packages.insert package (((s.typesIn package).getD ∅).insert unit.decl.name id)
      inhabited := (enclosing package).foldl OrderedSet.add s.inhabited }

/-- Adds units in order. -/
def addAll (s : SymbolTable) : List CompilationUnit → Except Violation SymbolTable
  | [] => .ok s
  | unit :: units =>
    match s.add unit with
    | .ok s => s.addAll units
    | .error violation => .error violation

/-- The table of a program and its library. -/
def build (program library : List CompilationUnit) : Except Violation SymbolTable :=
  addAll { programSize := program.length } (program ++ library)

/-- A place in the unit with a number. -/
def locate (s : SymbolTable) (id : ClassId) (range : Span) : Location :=
  (Location.ofType (s.unitAt id).typeName.toDotted).atSpan range

end SymbolTable

end JoosStatics
