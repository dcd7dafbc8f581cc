/-
JoosStatics.Library.Signature — short forms for writing library
declarations.

The analyzer needs signatures only, so library methods have no bodies and
library constructors have empty ones.
-/
import JoosStatics.Syntax.Blueprint

namespace JoosStatics.Library

/-- The type `int`. -/
def int : TypeSyntax := .primitive .int
/-- The type `boolean`. -/
def boolean : TypeSyntax := .primitive .boolean
/-- The type `byte`. -/
def byte : TypeSyntax := .primitive .byte
/-- The type `short`. -/
def short : TypeSyntax := .primitive .short
/-- The type `char`. -/
def char : TypeSyntax := .primitive .char
/-- A class or interface type. -/
def named (name : String) : TypeSyntax := .named (.ofDotted name)
/-- The type `String`. -/
def string : TypeSyntax := named "String"
/-- The type `Object`. -/
def object : TypeSyntax := named "Object"

/-- Parameters with their names. -/
abbrev Parameters := List (TypeSyntax × Name)

/-- A public method that returns a value. -/
def method (name : Name) (returnType : TypeSyntax) (params : Parameters := []) :
    MethodBlueprint :=
  { name, returnType := some returnType, params }

/-- A public method that returns nothing. -/
def procedure (name : Name) (params : Parameters := []) : MethodBlueprint := { name, params }

/-- The method with a further modifier. -/
def adding (modifier : Modifiers) (m : MethodBlueprint) : MethodBlueprint :=
  { m with modifiers := m.modifiers ||| modifier }

/-- A public static method that returns a value. -/
def staticMethod (name : Name) (returnType : TypeSyntax) (params : Parameters := []) :
    MethodBlueprint :=
  adding .static (method name returnType params)

/-- A public static method that returns nothing. -/
def staticProcedure (name : Name) (params : Parameters := []) : MethodBlueprint :=
  adding .static (procedure name params)

/-- A public abstract method that returns a value. -/
def abstractMethod (name : Name) (returnType : TypeSyntax) (params : Parameters := []) :
    MethodBlueprint :=
  adding .abstract (method name returnType params)

/-- A public abstract method that returns nothing. -/
def abstractProcedure (name : Name) (params : Parameters := []) : MethodBlueprint :=
  adding .abstract (procedure name params)

/-- A public constructor. -/
def constructor (params : Parameters := []) : ConstructorBlueprint := { params }

/-- A public class. -/
def classNamed (name : Name) : TypeBlueprint := { kind := .classType, name }

/-- A public interface. -/
def interfaceNamed (name : Name) : TypeBlueprint := { kind := .interfaceType, name }

/-- The declaration with a further modifier. -/
def marking (modifier : Modifiers) (b : TypeBlueprint) : TypeBlueprint :=
  { b with modifiers := b.modifiers ||| modifier }

/-- A throwable class with the constructors `()` and `(String)`. -/
def throwable (name parent : Name) : TypeBlueprint :=
  { (classNamed name).extending parent with
    constructors := [constructor, constructor [(string, "message")]] }

/-- A final class around one value of a primitive type. -/
def wrapper (name : Name) (type : TypeSyntax) : TypeBlueprint :=
  { marking .final (classNamed name) with
    fields := [{ type, name := "value" }]
    constructors := [constructor, constructor [(type, "value")]]
    methods := [method "toString" string] }

end JoosStatics.Library
