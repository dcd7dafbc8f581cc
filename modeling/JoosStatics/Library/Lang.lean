/-
JoosStatics.Library.Lang — the types of the package `java.lang`.
-/
import JoosStatics.Library.Signature

namespace JoosStatics.Library

/-- The class `java.lang.Object`. -/
def objectClass : TypeBlueprint :=
  { classNamed "Object" with
    constructors := [constructor]
    methods := [
      method "equals" boolean [(object, "other")],
      method "toString" string,
      method "hashCode" int,
      { method "clone" object with modifiers := .protected },
      adding .final (method "getClass" (named "Class"))] }

/-- The class `java.lang.String`. -/
def stringClass : TypeBlueprint :=
  { classNamed "String" with
    fields := [{ type := .array char, name := "chars" }]
    constructors := [
      constructor, constructor [(.array char, "chars")], constructor [(string, "other")]]
    methods := [
      method "length" int,
      method "charAt" char [(int, "i")],
      method "concat" string [(string, "other")],
      staticMethod "valueOf" string [(char, "c")],
      staticMethod "valueOf" string [(int, "i")],
      staticMethod "valueOf" string [(short, "s")],
      staticMethod "valueOf" string [(byte, "b")],
      staticMethod "valueOf" string [(boolean, "b")],
      staticMethod "valueOf" string [(object, "o")],
      staticMethod "valueOf" string [(string, "s")],
      method "equals" boolean [(object, "other")],
      method "substring" string [(int, "begin"), (int, "end")],
      method "trim" string,
      method "hashCode" int,
      method "toString" string,
      method "compareTo" int [(object, "other")],
      method "compareTo" int [(string, "other")],
      method "toCharArray" (.array char),
      method "indexOf" int [(string, "needle")]] }

/-- The class `java.lang.Number`. -/
def numberClass : TypeBlueprint :=
  { marking .abstract (classNamed "Number") with
    constructors := [constructor]
    methods := [abstractMethod "intValue" int] }

/-- The class `java.lang.Integer`. -/
def integerClass : TypeBlueprint :=
  { (marking .final (classNamed "Integer")).extending "Number" with
    fields := [
      { type := int, name := "value" },
      { type := int, name := "MAX_VALUE", modifiers := .public ||| .static }]
    constructors := [constructor, constructor [(int, "i")], constructor [(string, "s")]]
    methods := [
      method "intValue" int,
      staticMethod "parseInt" int [(string, "s")],
      method "toString" string] }

/-- The class `java.lang.Thread`. -/
def threadClass : TypeBlueprint :=
  { (classNamed "Thread").implementing "Runnable" with
    constructors := [constructor, constructor [(named "Runnable", "target")]]
    methods := [
      procedure "run", procedure "start", procedure "interrupt", staticMethod "activeCount" int] }

/-- The class `java.lang.System`. -/
def systemClass : TypeBlueprint :=
  { classNamed "System" with
    constructors := [constructor]
    fields := [
      { type := named "java.io.PrintStream", name := "out", modifiers := .public ||| .static }]
    methods := [staticProcedure "gc", staticProcedure "exit" [(int, "status")]] }

/-- The types of `java.lang`. -/
def langTypes : List TypeBlueprint := [
  objectClass,
  stringClass,
  numberClass,
  integerClass,
  wrapper "Boolean" boolean,
  wrapper "Character" char,
  wrapper "Byte" byte,
  wrapper "Short" short,
  { marking .final (classNamed "Class") with constructors := [constructor] },
  interfaceNamed "Cloneable",
  { interfaceNamed "Comparable" with
    methods := [abstractMethod "compareTo" int [(object, "other")]] },
  { interfaceNamed "Runnable" with methods := [abstractProcedure "run"] },
  threadClass,
  systemClass,
  { throwable "Throwable" "Object" with methods := [method "getMessage" string] },
  throwable "Exception" "Throwable",
  throwable "RuntimeException" "Exception",
  throwable "Error" "Throwable",
  throwable "CloneNotSupportedException" "Exception",
  throwable "InterruptedException" "Exception",
  throwable "ArithmeticException" "RuntimeException",
  throwable "ClassCastException" "RuntimeException",
  throwable "NullPointerException" "RuntimeException",
  throwable "IllegalArgumentException" "RuntimeException",
  throwable "ArrayIndexOutOfBoundsException" "RuntimeException"]

end JoosStatics.Library
