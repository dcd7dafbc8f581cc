/-
JoosStatics.Linking.Packages — clashes between packages and types, and the
linking stage as a whole.

The program refers to the packages of its units, to the packages of its
single-type imports and to those on-demand packages that supplied a type.
No beginning of two or more identifiers of such a package may be the full
name of a type.
-/
import JoosStatics.Linking.Lowering

namespace JoosStatics

namespace SymbolTable

/-- The packages that the program refers to, the default package aside;
`used` are the on-demand packages that supplied a type. -/
def referencedPackages (s : SymbolTable) (used : OrderedSet PackageName) :
    OrderedSet PackageName :=
  let named := s.programIds.flatMap (fun id =>
    (s.unitAt id).packageName :: (s.importsOf id).single.map (fun imp => imp.path.parent))
  (named.foldl OrderedSet.add used).erase {}

/-- The first type whose full name begins a package with two or more
identifiers. -/
def clashOf? (s : SymbolTable) (package : PackageName) : Option ClassId :=
  (List.range' 2 (package.length - 1)).findSome? (fun count => s.lookup (package.take count))

/-- No referenced package may begin with the full name of a type. -/
def checkPackageClashes (s : SymbolTable) (used : OrderedSet PackageName) :
    Except Violation Unit :=
  match (s.referencedPackages used).keys.findSome? (fun package =>
    (s.clashOf? package).map (fun id => (package, id))) with
  | none => .ok ()
  | some (package, id) =>
    let type := (s.unitAt id).typeName.toDotted
    .error { cause := .packageTypeClash package.toDotted type, location := .ofType type }

end SymbolTable

/-- A linked program: its units, their signatures and the lookups made so
far. -/
structure Linked where
  symbols : SymbolTable
  table : TypeTable
  lookups : LookupState
  deriving Inhabited

/-- Resolves all names of the units and checks the packages they refer to. -/
def SymbolTable.link (s : SymbolTable) : Except Violation Linked := do
  let (result, lookups) := s.lowerAll {}
  let table ← result
  s.checkPackageClashes lookups.usedPackages
  return { symbols := s, table, lookups }

end JoosStatics
