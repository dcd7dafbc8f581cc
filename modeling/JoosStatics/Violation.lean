/-
JoosStatics.Violation — the rules of the static semantics and their
violations.

A `Cause` says which rule is broken and names the parties. `Cause.code` is
its stable code, `Cause.phase` the analysis phase that owns the rule and
`Cause.message` its sentence. A `Violation` is a cause with the place where
it was found; its message is the sentence followed by the place.
-/
import JoosStatics.Location

namespace JoosStatics

/-- The groups of rules, in the order in which they are checked. -/
inductive Phase where
  | environment | typeLinking | hierarchy | typeChecking | reachability
  deriving DecidableEq, Repr

namespace Phase

/-- The title of a phase. -/
def title : Phase → String
  | .environment => "ENVIRONMENTS"
  | .typeLinking => "TYPE_LINKING"
  | .hierarchy => "HIERARCHY"
  | .typeChecking => "TYPE_CHECKING"
  | .reachability => "REACHABILITY"

/-- The key of a phase in machine-readable reports: its title, except that
the first phase is in the singular. -/
def reportKey : Phase → String
  | .environment => "ENVIRONMENT"
  | phase => phase.title

end Phase

/-- The ways in which a program can break a rule. -/
inductive Cause where
  | duplicateType (name : String)
  | packageTypeClash (package type : String)
  | duplicateField (name : String)
  | duplicateVariable (name : String)
  | ambiguousImport (name : String) (candidates : List String)
  | ambiguousOnDemandImport (name : String) (candidates : List String)
  | singleTypeImportClash (path : String)
  | leadingTypeName (leading name : String)
  | typeNotFound (name : String)
  | nonExistingPackage (package : String)
  | circularInheritance (type : String)
  | repeatedInterface (interface : String)
  | extendsNonClass (target : String)
  | extendsFinalClass (target : String)
  | implementsNonInterface (target : String)
  | duplicateMember (signature : String)
  | differentReturnType (signature replaced : String)
  | replaceFinal (signature replaced : String)
  | protectedReplacePublic (signature replaced : String)
  | nonstaticReplaceStatic (signature replaced : String)
  | staticReplaceNonstatic (signature replaced : String)
  | illegalThrowsInReplace (signature exception : String)
  | classMustBeAbstract (type method : String)
  | typeMismatch (expected found : String)
  | assignToFinalField (field : String)
  | noMatchingMethod (name args : String)
  | ambiguousOverload (name args : String)
  | illegalThisReference
  | misplacedConstructorInvocation
  | circularConstructorInvocation (type : String)
  | illegalThrowType (found : String)
  | undeclaredCheckedException (exception : String)
  | notLvalue
  | nonNumericIncDec (found : String)
  | unresolvedName (name : String)
  | invalidCast (source target : String)
  | instantiateAbstract (type : String)
  | illegalStaticAccess (member : String)
  | unreachableStatement
  | missingReturn (method : String)
  deriving DecidableEq, Repr

namespace Cause

/-- The stable code of a rule. -/
def code : Cause → String
  | duplicateType .. => "DUPLICATE_TYPE"
  | packageTypeClash .. => "PACKAGE_CLASH_WITH_TYPE"
  | duplicateField .. => "DUPLICATE_FIELD"
  | duplicateVariable .. => "DUPLICATE_VARIABLE"
  | ambiguousImport .. => "TWO_SINGLE_TYPE_IMPORTS_CLASH"
  | ambiguousOnDemandImport .. => "AMBIGUOUS_CLASS_NAME"
  | singleTypeImportClash .. => "SINGLE_TYPE_IMPORT_CLASH_WITH_CLASS"
  | leadingTypeName .. => "PREFIX_RESOLVES_TO_TYPE"
  | typeNotFound .. => "UNRESOLVED_TYPE"
  | nonExistingPackage .. => "NON_EXISTING_PACKAGE"
  | circularInheritance .. => "CIRCULAR_INHERITANCE"
  | repeatedInterface .. => "REPEATED_INTERFACE"
  | extendsNonClass .. => "EXTENDS_NON_CLASS"
  | extendsFinalClass .. => "EXTENDS_FINAL_CLASS"
  | implementsNonInterface .. => "IMPLEMENTS_NON_INTERFACE"
  | duplicateMember .. => "DUPLICATE_METHOD"
  | differentReturnType .. => "DIFFERENT_RETURN_TYPE"
  | replaceFinal .. => "REPLACE_FINAL"
  | protectedReplacePublic .. => "PROTECTED_REPLACE_PUBLIC"
  | nonstaticReplaceStatic .. => "NONSTATIC_REPLACE_STATIC"
  | staticReplaceNonstatic .. => "STATIC_REPLACE_NONSTATIC"
  | illegalThrowsInReplace .. => "ILLEGAL_THROWS_IN_REPLACE"
  | classMustBeAbstract .. => "CLASS_MUST_BE_ABSTRACT"
  | typeMismatch .. => "ASSIGN_TYPE"
  | assignToFinalField .. => "ASSIGN_TO_FINAL_FIELD"
  | noMatchingMethod .. => "NO_MATCHING_METHOD_FOUND"
  | ambiguousOverload .. => "AMBIGUOUS_OVERLOADING"
  | illegalThisReference => "THIS_IN_STATIC_CONTEXT"
  | misplacedConstructorInvocation => "MISPLACED_CONSTRUCTOR_INVOCATION"
  | circularConstructorInvocation .. => "CIRCULAR_CONSTRUCTOR_INVOCATION"
  | illegalThrowType .. => "ILLEGAL_THROW_TYPE"
  | undeclaredCheckedException .. => "ILLEGAL_THROWS"
  | notLvalue => "NOT_LVALUE"
  | nonNumericIncDec .. => "NON_NUMERIC_INC_DEC"
  | unresolvedName .. => "VARIABLE_OR_TYPE_NOT_FOUND"
  | invalidCast .. => "INVALID_CAST"
  | instantiateAbstract .. => "INSTANTIATE_ABSTRACT_CLASS"
  | illegalStaticAccess .. => "ILLEGAL_STATIC_ACCESS"
  | unreachableStatement => "UNREACHABLE_STATEMENT"
  | missingReturn .. => "MISSING_RETURN_STATEMENT"

/-- The phase that owns a rule. -/
def phase : Cause → Phase
  | duplicateType .. | packageTypeClash .. | duplicateField .. | duplicateVariable .. =>
    .environment
  | ambiguousImport .. | ambiguousOnDemandImport .. | singleTypeImportClash ..
  | leadingTypeName .. | typeNotFound .. | nonExistingPackage .. => .typeLinking
  | circularInheritance .. | repeatedInterface .. | extendsNonClass .. | extendsFinalClass ..
  | implementsNonInterface .. | duplicateMember .. | differentReturnType .. | replaceFinal ..
  | protectedReplacePublic .. | nonstaticReplaceStatic .. | staticReplaceNonstatic ..
  | illegalThrowsInReplace .. | classMustBeAbstract .. => .hierarchy
  | unreachableStatement | missingReturn .. => .reachability
  | _ => .typeChecking

/-- A text between backquotes. -/
def quoted (text : String) : String := "`" ++ text ++ "`"

/-- The sentence that reports a broken rule, without its place. -/
def message : Cause → String
  | duplicateType name => "type " ++ quoted name ++ " is declared more than once"
  | packageTypeClash package type =>
    "package " ++ quoted package ++ " clashes with type " ++ quoted type
  | duplicateField name => "field " ++ quoted name ++ " is declared more than once"
  | duplicateVariable name =>
    "variable " ++ quoted name ++ " is already defined in an enclosing scope"
  | ambiguousImport name candidates =>
    "single-type imports of " ++ quoted name ++ " clash: " ++ ", ".intercalate candidates
  | ambiguousOnDemandImport name candidates =>
    quoted name ++ " is ambiguous between on-demand imports: " ++ ", ".intercalate candidates
  | singleTypeImportClash path =>
    "single-type import " ++ quoted path ++ " clashes with the declared type"
  | leadingTypeName leading name =>
    "prefix " ++ quoted leading ++ " of " ++ quoted name ++ " resolves to a type"
  | typeNotFound name => "cannot find type " ++ quoted name
  | nonExistingPackage package => "package " ++ quoted package ++ " does not exist"
  | circularInheritance type =>
    quoted type ++ " depends on itself through its supertypes"
  | repeatedInterface interface =>
    "interface " ++ quoted interface ++ " is named more than once"
  | extendsNonClass target => quoted target ++ " is not a class and cannot be extended"
  | extendsFinalClass target => "final class " ++ quoted target ++ " cannot be extended"
  | implementsNonInterface target => quoted target ++ " is not an interface"
  | duplicateMember signature => quoted signature ++ " is declared more than once"
  | differentReturnType signature replaced =>
    quoted signature ++ " changes the return type of the method in " ++ quoted replaced
  | replaceFinal signature replaced =>
    quoted signature ++ " replaces a final method of " ++ quoted replaced
  | protectedReplacePublic signature replaced =>
    "protected " ++ quoted signature ++ " replaces a public method of " ++ quoted replaced
  | nonstaticReplaceStatic signature replaced =>
    "instance method " ++ quoted signature ++ " replaces a static method of " ++ quoted replaced
  | staticReplaceNonstatic signature replaced =>
    "static method " ++ quoted signature ++ " replaces an instance method of " ++ quoted replaced
  | illegalThrowsInReplace signature exception =>
    quoted signature ++ " throws " ++ quoted exception ++ ", which the replaced method does not"
  | classMustBeAbstract type method =>
    quoted type ++ " must be declared abstract: " ++ quoted method ++ " is abstract"
  | typeMismatch expected found => "expected " ++ quoted expected ++ ", found " ++ quoted found
  | assignToFinalField field => "cannot assign to final field " ++ quoted field
  | noMatchingMethod name args => "no applicable " ++ quoted (name ++ "(" ++ args ++ ")")
  | ambiguousOverload name args =>
    "call " ++ quoted (name ++ "(" ++ args ++ ")") ++ " is ambiguous"
  | illegalThisReference => quoted "this" ++ " is not available here"
  | misplacedConstructorInvocation =>
    "explicit constructor invocation must be the first statement of a constructor"
  | circularConstructorInvocation type =>
    "constructors of " ++ quoted type ++ " invoke each other circularly"
  | illegalThrowType found => "cannot throw a value of type " ++ quoted found
  | undeclaredCheckedException exception =>
    "checked exception " ++ quoted exception ++ " is not declared in the throws clause"
  | notLvalue => "operand is not a variable"
  | nonNumericIncDec found => "cannot increment or decrement a value of type " ++ quoted found
  | unresolvedName name => "cannot resolve " ++ quoted name
  | invalidCast source target => "cannot cast " ++ quoted source ++ " to " ++ quoted target
  | instantiateAbstract type => "cannot instantiate abstract type " ++ quoted type
  | illegalStaticAccess member => "illegal static/instance access to " ++ quoted member
  | unreachableStatement => "unreachable statement"
  | missingReturn method =>
    "method " ++ quoted method ++ " can complete without returning a value"

end Cause

/-- A broken rule and the place where it is broken. -/
structure Violation where
  cause : Cause
  location : Location := {}
  deriving DecidableEq, Repr

namespace Violation

/-- The stable code of the broken rule. -/
def code (v : Violation) : String := v.cause.code

/-- The phase that owns the broken rule. -/
def phase (v : Violation) : Phase := v.cause.phase

/-- The sentence followed by the place. -/
def message (v : Violation) : String := v.cause.message ++ v.location.toText

/-- The line that reports a violation as text. -/
def line (v : Violation) : String := v.code ++ ": " ++ v.message

end Violation

end JoosStatics
