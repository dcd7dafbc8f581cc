/-
JoosStatics.Library.Io — the types of the package `java.io`.
-/
import JoosStatics.Library.Signature

namespace JoosStatics.Library

/-- The types that `print` and `println` accept. -/
def printable : List TypeSyntax := [string, object, int, char, boolean, byte, short]

/-- The class `java.io.PrintStream`. -/
def printStreamClass : TypeBlueprint :=
  { (classNamed "PrintStream").extending "OutputStream" with
    constructors := [constructor]
    methods :=
      printable.map (fun type => procedure "print" [(type, "value")]) ++
      printable.map (fun type => procedure "println" [(type, "value")]) ++
      [procedure "println"] }

/-- The types of `java.io`. -/
def ioTypes : List TypeBlueprint := [
  interfaceNamed "Serializable",
  { classNamed "OutputStream" with
    constructors := [constructor]
    methods := [procedure "write" [(char, "c")], procedure "flush"] },
  printStreamClass,
  throwable "IOException" "Exception",
  throwable "FileNotFoundException" "IOException"]

end JoosStatics.Library
