/-
JoosStatics.Syntax.Decode — programs from JSON.

The readers accept what `Encode` writes and leave room for what producers
of trees commonly do: fields with a default may be missing, fields that the
record does not have are ignored, and a record may be the array of its
values. A known field given twice, a number out of range and a character
that is not exactly one code point are refused.

The tags of statements, expressions and imports follow a `TagStyle`. Inside
statements and expressions a choice without a payload may also be written
with an empty object as its payload.
-/
import JoosStatics.Syntax.Unit
import JoosStatics.Json.Basic

namespace JoosStatics

open Json

/-- Positions in an arena are below this bound. -/
def positionBound : Nat := UInt32.size

/-- A position in an arena. -/
def position? : Json → Option Nat := natBelow? positionBound

/-- A dotted name. -/
def QualifiedName.ofJson? (j : Json) : Option QualifiedName :=
  (list? str? j).map QualifiedName.mk

/-- A span; both ends have to be given. -/
def Span.ofJson? (j : Json) : Option Span := do
  let members ← j.record? ["start", "end"] 2
  let start ← required members "start" (natBelow? UInt64.size)
  let stop ← required members "end" (natBelow? UInt64.size)
  return ⟨UInt64.ofNat start, UInt64.ofNat stop⟩

/-- The place of a construct, empty when it is not given. -/
def rangeOf? (members : List (String × Json)) : Option Span :=
  defaulted members "range" {} Span.ofJson?

/-- A modifier set. -/
def Modifiers.ofJson? (j : Json) : Option Modifiers :=
  (natBelow? UInt16.size j).map (fun bits => ⟨UInt16.ofNat bits⟩)

/-- A reference to a named type. -/
def TypeRef.ofJson? (j : Json) : Option TypeRef := do
  let members ← j.record? ["name", "range"] 1
  return { name := ← required members "name" QualifiedName.ofJson?, range := ← rangeOf? members }

/-- A type as it is written; `name?` reads the name of a primitive type. -/
def TypeSyntax.ofJsonBy? (name? : Json → Option String) : Json → Option TypeSyntax
  | .obj [(form, payload)] =>
    if form = "array" then (TypeSyntax.ofJsonBy? name? payload).map .array
    else if form = "named" then (TypeRef.ofJson? payload).map .named
    else if form = "primitive" then
      ((name? payload).bind Primitive.ofKeyword?).map .primitive
    else none
  | _ => none
termination_by structural j => j

/-- A type in a declaration. -/
def TypeSyntax.ofJson? : Json → Option TypeSyntax := TypeSyntax.ofJsonBy? unitVariant?

/-- A type in a statement or an expression. -/
def TypeSyntax.inBody? : Json → Option TypeSyntax := TypeSyntax.ofJsonBy? emptyVariant?

/-- A 32-bit integer. -/
def int32? (j : Json) : Option Int32 :=
  match j.int? with
  | some n =>
    if Int32.minValue.toInt ≤ n ∧ n ≤ Int32.maxValue.toInt then some (Int32.ofInt n) else none
  | none => none

/-- A literal. -/
def Literal.ofJson? (j : Json) : Option Literal :=
  if j.emptyVariant? = some "null" then some .null
  else match j.variant? with
    | some ("int", payload) => (int32? payload).map .int
    | some ("bool", payload) => payload.bool?.map .bool
    | some ("char", payload) => payload.char?.map .char
    | some ("string", payload) => payload.str?.map .string
    | _ => none

/-- A choice under `key` in a statement or an expression. -/
def choice? {α : Type} (members : List (String × Json)) (key : String)
    (ofKey? : String → Option α) : Option α :=
  required members key (fun j => j.emptyVariant?.bind ofKey?)

/-- The kinds of expressions in their order, with the names of their fields. -/
def ExprForm.kinds : List (String × List String) :=
  [("literal", ["value"]), ("name", ["path"]), ("this", []),
    ("field_access", ["receiver", "name"]), ("method_call", ["receiver", "name", "args"]),
    ("new", ["ty", "args"]), ("new_array", ["element", "dims"]),
    ("array_access", ["array", "index"]), ("cast", ["ty", "expr"]),
    ("instance_of", ["expr", "ty"]), ("binary", ["op", "lhs", "rhs"]),
    ("unary", ["op", "expr"]), ("inc_dec", ["op", "expr"]), ("assign", ["lhs", "rhs"])]

/-- The fields of an expression of a given kind. -/
def ExprForm.ofMembers? (kind : String) (members : List (String × Json)) : Option ExprForm :=
  match kind with
  | "literal" => do return .literal (← required members "value" Literal.ofJson?)
  | "name" => do return .named (← required members "path" QualifiedName.ofJson?)
  | "this" => some .this
  | "field_access" => do
    return .fieldAccess (← required members "receiver" position?) (← required members "name" str?)
  | "method_call" => do
    return .methodCall (← optional members "receiver" position?) (← required members "name" str?)
      (← required members "args" (list? position?))
  | "new" => do
    return .create (← required members "ty" TypeRef.ofJson?)
      (← required members "args" (list? position?))
  | "new_array" => do
    return .createArray (← required members "element" TypeSyntax.inBody?)
      (← required members "dims" (list? position?))
  | "array_access" => do
    return .arrayAccess (← required members "array" position?)
      (← required members "index" position?)
  | "cast" => do
    return .cast (← required members "ty" TypeSyntax.inBody?) (← required members "expr" position?)
  | "instance_of" => do
    return .instanceOf (← required members "expr" position?)
      (← required members "ty" TypeSyntax.inBody?)
  | "binary" => do
    return .binary (← choice? members "op" BinaryOp.ofKey?) (← required members "lhs" position?)
      (← required members "rhs" position?)
  | "unary" => do
    return .unary (← choice? members "op" UnaryOp.ofKey?) (← required members "expr" position?)
  | "inc_dec" => do
    return .incDec (← choice? members "op" IncDecOp.ofKey?) (← required members "expr" position?)
  | "assign" => do
    return .assign (← required members "lhs" position?) (← required members "rhs" position?)
  | _ => none

/-- An expression with its place. -/
def ExprNode.ofJson? (style : TagStyle) (j : Json) : Option ExprNode := do
  let (kind, members) ← tagged? style "kind" "range" ExprForm.kinds j
  return { form := ← ExprForm.ofMembers? kind members, range := ← rangeOf? members }

/-- The kinds of statements in their order, with the names of their fields. -/
def StmtForm.kinds : List (String × List String) :=
  [("block", ["stmts"]), ("local", ["ty", "name", "initializer"]), ("expr", ["expr"]),
    ("if", ["condition", "then_branch", "else_branch"]), ("while", ["condition", "body"]),
    ("for", ["init", "condition", "update", "body"]), ("return", ["value"]),
    ("throw", ["expr"]), ("break", []), ("empty", []), ("constructor_call", ["call", "args"])]

/-- The fields of a statement of a given kind. -/
def StmtForm.ofMembers? (kind : String) (members : List (String × Json)) : Option StmtForm :=
  match kind with
  | "block" => do return .block (← required members "stmts" (list? position?))
  | "local" => do
    return .localVar (← required members "ty" TypeSyntax.inBody?) (← required members "name" str?)
      (← optional members "initializer" position?)
  | "expr" => do return .expression (← required members "expr" position?)
  | "if" => do
    return .branch (← required members "condition" position?)
      (← required members "then_branch" position?) (← optional members "else_branch" position?)
  | "while" => do
    return .whileLoop (← required members "condition" position?)
      (← required members "body" position?)
  | "for" => do
    return .forLoop (← optional members "init" position?)
      (← optional members "condition" position?) (← optional members "update" position?)
      (← required members "body" position?)
  | "return" => do return .returnValue (← optional members "value" position?)
  | "throw" => do return .throwValue (← required members "expr" position?)
  | "break" => some .breakLoop
  | "empty" => some .empty
  | "constructor_call" => do
    return .constructorCall (← choice? members "call" ConstructorCallKind.ofKey?)
      (← required members "args" (list? position?))
  | _ => none

/-- A statement with its place. -/
def StmtNode.ofJson? (style : TagStyle) (j : Json) : Option StmtNode := do
  let (kind, members) ← tagged? style "kind" "range" StmtForm.kinds j
  return { form := ← StmtForm.ofMembers? kind members, range := ← rangeOf? members }

/-- An arena. -/
def BodyArena.ofJson? (style : TagStyle) (j : Json) : Option BodyArena := do
  let members ← j.record? ["stmts", "exprs"] 2
  let stmts ← required members "stmts" (list? (StmtNode.ofJson? style))
  let exprs ← required members "exprs" (list? (ExprNode.ofJson? style))
  return { stmts := stmts.toArray, exprs := exprs.toArray }

/-- A parameter. -/
def Param.ofJson? (j : Json) : Option Param := do
  let members ← j.record? ["ty", "name", "range"] 2
  return {
    type := ← required members "ty" TypeSyntax.ofJson?
    name := ← required members "name" str?
    range := ← rangeOf? members }

/-- The modifiers of a declaration, none when they are not given. -/
def modifiersOf? (members : List (String × Json)) : Option Modifiers :=
  defaulted members "modifiers" .none Modifiers.ofJson?

/-- A field. -/
def FieldDecl.ofJson? (j : Json) : Option FieldDecl := do
  let members ← j.record? ["modifiers", "ty", "name", "initializer", "range"] 3
  return {
    modifiers := ← modifiersOf? members
    type := ← required members "ty" TypeSyntax.ofJson?
    name := ← required members "name" str?
    initializer := ← optional members "initializer" position?
    range := ← rangeOf? members }

/-- A method. -/
def MethodDecl.ofJson? (j : Json) : Option MethodDecl := do
  let members ← j.record?
    ["modifiers", "return_type", "name", "params", "throws", "body", "range"] 3
  return {
    modifiers := ← modifiersOf? members
    returnType := ← optional members "return_type" TypeSyntax.ofJson?
    name := ← required members "name" str?
    params := ← defaulted members "params" [] (list? Param.ofJson?)
    throws := ← defaulted members "throws" [] (list? TypeRef.ofJson?)
    body := ← optional members "body" position?
    range := ← rangeOf? members }

/-- A constructor. -/
def ConstructorDecl.ofJson? (j : Json) : Option ConstructorDecl := do
  let members ← j.record? ["modifiers", "params", "throws", "body", "range"] 4
  return {
    modifiers := ← modifiersOf? members
    params := ← defaulted members "params" [] (list? Param.ofJson?)
    throws := ← defaulted members "throws" [] (list? TypeRef.ofJson?)
    body := ← required members "body" position?
    range := ← rangeOf? members }

/-- A type declaration. -/
def TypeDecl.ofJson? (style : TagStyle) (j : Json) : Option TypeDecl := do
  let members ← j.record?
    ["kind", "name", "modifiers", "superclass", "interfaces", "fields", "constructors", "methods",
      "bodies", "range"] 2
  return {
    kind := ← required members "kind" (fun kind => kind.unitVariant?.bind TypeKind.ofKey?)
    name := ← required members "name" str?
    modifiers := ← modifiersOf? members
    superclass := ← optional members "superclass" TypeRef.ofJson?
    interfaces := ← defaulted members "interfaces" [] (list? TypeRef.ofJson?)
    fields := ← defaulted members "fields" [] (list? FieldDecl.ofJson?)
    constructors := ← defaulted members "constructors" [] (list? ConstructorDecl.ofJson?)
    methods := ← defaulted members "methods" [] (list? MethodDecl.ofJson?)
    bodies := ← defaulted members "bodies" {} (BodyArena.ofJson? style)
    range := ← rangeOf? members }

/-- The kinds of imports in their order, with the names of their fields. -/
def ImportDecl.kinds : List (String × List String) :=
  [("single", ["path"]), ("on_demand", ["package"])]

/-- An import. -/
def ImportDecl.ofJson? (style : TagStyle) (j : Json) : Option ImportDecl := do
  let (kind, members) ← tagged? style "kind" "range" ImportDecl.kinds j
  match kind with
  | "single" =>
    return .single (← required members "path" QualifiedName.ofJson?) (← rangeOf? members)
  | "on_demand" =>
    return .onDemand (← required members "package" QualifiedName.ofJson?) (← rangeOf? members)
  | _ => none

/-- A compilation unit. -/
def CompilationUnit.ofJson? (style : TagStyle) (j : Json) : Option CompilationUnit := do
  let members ← j.record? ["file", "package", "imports", "decl"] 4
  return {
    file := ← optional members "file" str?
    package := ← optional members "package" QualifiedName.ofJson?
    imports := ← defaulted members "imports" [] (list? (ImportDecl.ofJson? style))
    decl := ← required members "decl" (TypeDecl.ofJson? style) }

/-- A program. -/
def Program.ofJson? (style : TagStyle) (j : Json) : Option Program := do
  let members ← j.record? ["units"] 1
  return { units := ← required members "units" (list? (CompilationUnit.ofJson? style)) }

end JoosStatics
