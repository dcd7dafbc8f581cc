/-
JoosStatics.Linking.Lookup — what a type name means in a unit.

A simple name denotes, in this order, the unit's own type, the type of a
single-type import, a type of the unit's package, and a type of a package
imported on demand (`SymbolTable.findSimple`). A qualified name denotes the
type with that full name, provided that no shorter beginning of it is a
type.

Lookups are remembered per unit and name: `lookupSimple` keeps the first
answer, a violation with its place included. The state also collects the
on-demand packages that supplied a type to a program unit, which the
package clash rule needs.
-/
import JoosStatics.Linking.Imports

namespace JoosStatics

/-- The answer to a simple name: a violation, no type, or a type. -/
abbrev SimpleAnswer := Except Violation (Option ClassId)

/-- The answers given so far, latest first, and the on-demand packages that
supplied a type to a program unit. -/
structure LookupState where
  answers : List ((ClassId × Name) × SimpleAnswer) := []
  usedPackages : OrderedSet PackageName := ∅

instance : Inhabited LookupState := ⟨{}⟩

/-- Computations that look names up. What is remembered outlives a failure. -/
abbrev LookupM := ExceptT Violation (StateM LookupState)

namespace SymbolTable

/-- The types with a simple name in the packages that a unit imports on
demand, each with the package that supplies it. -/
def onDemandHits (s : SymbolTable) (ctx : ClassId) (name : Name) : List (ClassId × PackageName) :=
  (s.importsOf ctx).onDemand.filterMap (fun imp =>
    (s.lookupIn imp.package name).map (fun id => (id, imp.package)))

/-- The distinct types among the hits, in the order of their numbers. -/
def distinctHits (hits : List (ClassId × PackageName)) : List ClassId :=
  ((hits.map Prod.fst).foldl OrderedSet.add (∅ : OrderedSet ClassId)).keys

/-- What single-type imports of one simple name denote. -/
def findImported (s : SymbolTable) (ctx : ClassId) (name : Name) (range : Span)
    (first : SingleImport) (others : List SingleImport) : SimpleAnswer :=
  match others.find? (fun imp => imp.path ≠ first.path) with
  | some other =>
    .error {
      cause := .ambiguousImport name [first.path.toDotted, other.path.toDotted]
      location := s.locate ctx range }
  | none =>
    match s.lookup first.path with
    | some id => .ok (some id)
    | none =>
      .error {
        cause := .typeNotFound first.path.toDotted
        location := s.locate ctx first.range }

/-- What a simple name denotes in a unit, and the on-demand packages that
supplied it. -/
def findSimple (s : SymbolTable) (ctx : ClassId) (name : Name) (range : Span) :
    SimpleAnswer × List PackageName :=
  let unit := s.unitAt ctx
  if unit.decl.name = name then (.ok (some ctx), [])
  else
    match (s.importsOf ctx).single.filter (fun imp => imp.imported = name) with
    | first :: others => (s.findImported ctx name range first others, [])
    | [] =>
      match s.lookupIn unit.packageName name with
      | some id => (.ok (some id), [])
      | none =>
        let hits := s.onDemandHits ctx name
        match distinctHits hits with
        | [] => (.ok none, [])
        | [id] => (.ok (some id), if s.isLibrary ctx then [] else hits.map Prod.snd)
        | ids =>
          (.error {
            cause := .ambiguousOnDemandImport name
              (ids.map (fun id => (s.unitAt id).typeName.toDotted))
            location := s.locate ctx range }, [])

/-- What a simple name denotes in a unit, as answered the first time. -/
def lookupSimple (s : SymbolTable) (ctx : ClassId) (name : Name) (range : Span) :
    LookupM (Option ClassId) := fun state =>
  match state.answers.lookup (ctx, name) with
  | some answer => (answer, state)
  | none =>
    let (answer, used) := s.findSimple ctx name range
    (answer, {
      answers := ((ctx, name), answer) :: state.answers
      usedPackages := used.foldl OrderedSet.add state.usedPackages })

/-- The type that a simple name denotes in a unit. -/
def resolveSimple (s : SymbolTable) (ctx : ClassId) (name : Name) (range : Span) :
    LookupM ClassId := do
  match ← s.lookupSimple ctx name range with
  | some id => return id
  | none => throw { cause := .typeNotFound name, location := s.locate ctx range }

/-- Whether a simple name denotes a type in a unit; an ambiguous name does
not. -/
def denotesType (s : SymbolTable) (ctx : ClassId) (name : Name) (range : Span) :
    LookupM Bool := fun state =>
  match s.lookupSimple ctx name range state with
  | (.ok (some _), state) => (.ok true, state)
  | (_, state) => (.ok false, state)

/-- The least number of identifiers, two or more, that begin a qualified name
and are a full type name themselves. -/
def leadingTypeLength? (s : SymbolTable) (name : QualifiedName) : Option Nat :=
  (List.range' 2 (name.length - 2)).find? (fun count => (s.lookup (name.take count)).isSome)

/-- The type that a simple or qualified name denotes in a unit. Its first
identifier is looked up like a simple name, longer beginnings as full names;
neither may be a type. -/
def resolveTypeName (s : SymbolTable) (ctx : ClassId) (name : QualifiedName) (range : Span) :
    LookupM ClassId := do
  let fail (cause : Cause) : LookupM ClassId :=
    throw { cause, location := s.locate ctx range }
  match name.segments with
  | [] => fail (.typeNotFound "")
  | [simple] => s.resolveSimple ctx simple range
  | first :: _ =>
    if ← s.denotesType ctx first range then
      fail (.leadingTypeName (name.take 1).toDotted name.toDotted)
    else
      match s.leadingTypeLength? name with
      | some count => fail (.leadingTypeName (name.take count).toDotted name.toDotted)
      | none =>
        match s.lookup name with
        | some id => return id
        | none => fail (.typeNotFound name.toDotted)

/-- The type that a reference denotes in a unit. -/
def resolveRef (s : SymbolTable) (ctx : ClassId) (ref : TypeRef) : LookupM ClassId :=
  s.resolveTypeName ctx ref.name ref.range

/-- The type that a written type denotes in a unit. -/
def resolveType (s : SymbolTable) (ctx : ClassId) : TypeSyntax → LookupM Ty
  | .primitive type => return .primitive type
  | .named ref => return .declared (← s.resolveRef ctx ref)
  | .array element => return .array (← s.resolveType ctx element)

end SymbolTable

end JoosStatics
