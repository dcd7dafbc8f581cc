/-
JoosStatics.Library.Units — the library as compilation units.

The library goes through the same stages as the program, except that its
bodies are not checked.
-/
import JoosStatics.Library.Lang
import JoosStatics.Library.Io
import JoosStatics.Library.Util

namespace JoosStatics.Library

/-- The packages of the library with their types, in order. -/
def contents : List (String × List TypeBlueprint) :=
  [("java.lang", langTypes), ("java.io", ioTypes), ("java.util", utilTypes)]

/-- The packages that hold library types. -/
def packages : List String := contents.map Prod.fst

/-- The compilation unit of a library type. -/
def toUnit (package : String) (type : TypeBlueprint) : CompilationUnit :=
  { file := some "<jdk>", package := some (.ofDotted package), decl := type.toDecl }

/-- Every compilation unit of the library, `java.lang` first. -/
def units : List CompilationUnit :=
  contents.flatMap (fun (package, types) => types.map (toUnit package))

/-- The library unit whose full type name is written as `dotted`. -/
def unit? (dotted : String) : Option CompilationUnit :=
  units.find? (fun unit => unit.typeName.toDotted == dotted)

end JoosStatics.Library
