/-
JoosStatics.Syntax.Encode — programs as JSON.

A record becomes an object with all its fields, a missing value `null`. The
forms of statements, expressions and imports carry their name in the field
`kind`; types and literals are objects whose single key names the form, and
the null literal is the text `null`.
-/
import JoosStatics.Syntax.Unit
import JoosStatics.Json.Basic

namespace JoosStatics

open Json

/-- A dotted name is the array of its identifiers. -/
def QualifiedName.toJson (n : QualifiedName) : Json := ofList .str n.segments

/-- A span is an object with its two ends. -/
def Span.toJson (s : Span) : Json :=
  .obj [("start", ofNat s.start.toNat), ("end", ofNat s.stop.toNat)]

/-- A modifier set is the number of its bits. -/
def Modifiers.toJson (m : Modifiers) : Json := ofNat m.bits.toNat

/-- A location with all its fields. -/
def Location.toJson (l : Location) : Json :=
  .obj [("ty", ofOption .str l.type?), ("member", ofOption .str l.member?),
    ("span", ofOption Span.toJson l.span?)]

/-- A reference to a named type. -/
def TypeRef.toJson (r : TypeRef) : Json :=
  .obj [("name", r.name.toJson), ("range", r.range.toJson)]

/-- A type as it is written. -/
def TypeSyntax.toJson : TypeSyntax → Json
  | .primitive type => .obj [("primitive", .str type.keyword)]
  | .named type => .obj [("named", type.toJson)]
  | .array element => .obj [("array", element.toJson)]

/-- A literal. -/
def Literal.toJson : Literal → Json
  | .int value => .obj [("int", .int value.toInt)]
  | .bool value => .obj [("bool", .bool value)]
  | .char value => .obj [("char", .str value.toString)]
  | .string value => .obj [("string", .str value)]
  | .null => .str "null"

/-- The kind and the fields of an expression. -/
def ExprForm.toJsonMembers : ExprForm → List (String × Json)
  | .literal value => [("kind", .str "literal"), ("value", value.toJson)]
  | .named path => [("kind", .str "name"), ("path", path.toJson)]
  | .this => [("kind", .str "this")]
  | .fieldAccess receiver name =>
    [("kind", .str "field_access"), ("receiver", ofNat receiver), ("name", .str name)]
  | .methodCall receiver name args =>
    [("kind", .str "method_call"), ("receiver", ofOption ofNat receiver), ("name", .str name),
      ("args", ofList ofNat args)]
  | .create type args =>
    [("kind", .str "new"), ("ty", type.toJson), ("args", ofList ofNat args)]
  | .createArray element dims =>
    [("kind", .str "new_array"), ("element", element.toJson), ("dims", ofList ofNat dims)]
  | .arrayAccess array index =>
    [("kind", .str "array_access"), ("array", ofNat array), ("index", ofNat index)]
  | .cast type operand =>
    [("kind", .str "cast"), ("ty", type.toJson), ("expr", ofNat operand)]
  | .instanceOf operand type =>
    [("kind", .str "instance_of"), ("expr", ofNat operand), ("ty", type.toJson)]
  | .binary op lhs rhs =>
    [("kind", .str "binary"), ("op", .str op.key), ("lhs", ofNat lhs), ("rhs", ofNat rhs)]
  | .unary op operand => [("kind", .str "unary"), ("op", .str op.key), ("expr", ofNat operand)]
  | .incDec op operand =>
    [("kind", .str "inc_dec"), ("op", .str op.key), ("expr", ofNat operand)]
  | .assign target value =>
    [("kind", .str "assign"), ("lhs", ofNat target), ("rhs", ofNat value)]

/-- An expression with its place. -/
def ExprNode.toJson (n : ExprNode) : Json :=
  .obj (n.form.toJsonMembers ++ [("range", n.range.toJson)])

/-- The kind and the fields of a statement. -/
def StmtForm.toJsonMembers : StmtForm → List (String × Json)
  | .block stmts => [("kind", .str "block"), ("stmts", ofList ofNat stmts)]
  | .localVar type name initializer =>
    [("kind", .str "local"), ("ty", type.toJson), ("name", .str name),
      ("initializer", ofOption ofNat initializer)]
  | .expression value => [("kind", .str "expr"), ("expr", ofNat value)]
  | .branch condition thenBranch elseBranch =>
    [("kind", .str "if"), ("condition", ofNat condition), ("then_branch", ofNat thenBranch),
      ("else_branch", ofOption ofNat elseBranch)]
  | .whileLoop condition body =>
    [("kind", .str "while"), ("condition", ofNat condition), ("body", ofNat body)]
  | .forLoop init condition update body =>
    [("kind", .str "for"), ("init", ofOption ofNat init),
      ("condition", ofOption ofNat condition), ("update", ofOption ofNat update),
      ("body", ofNat body)]
  | .returnValue value => [("kind", .str "return"), ("value", ofOption ofNat value)]
  | .throwValue value => [("kind", .str "throw"), ("expr", ofNat value)]
  | .breakLoop => [("kind", .str "break")]
  | .empty => [("kind", .str "empty")]
  | .constructorCall call args =>
    [("kind", .str "constructor_call"), ("call", .str call.key), ("args", ofList ofNat args)]

/-- A statement with its place. -/
def StmtNode.toJson (n : StmtNode) : Json :=
  .obj (n.form.toJsonMembers ++ [("range", n.range.toJson)])

/-- An arena as its two lists of nodes. -/
def BodyArena.toJson (a : BodyArena) : Json :=
  .obj [("stmts", ofList StmtNode.toJson a.stmts.toList),
    ("exprs", ofList ExprNode.toJson a.exprs.toList)]

/-- A parameter. -/
def Param.toJson (p : Param) : Json :=
  .obj [("ty", p.type.toJson), ("name", .str p.name), ("range", p.range.toJson)]

/-- A field. -/
def FieldDecl.toJson (f : FieldDecl) : Json :=
  .obj [("modifiers", f.modifiers.toJson), ("ty", f.type.toJson), ("name", .str f.name),
    ("initializer", ofOption ofNat f.initializer), ("range", f.range.toJson)]

/-- A method. -/
def MethodDecl.toJson (m : MethodDecl) : Json :=
  .obj [("modifiers", m.modifiers.toJson),
    ("return_type", ofOption TypeSyntax.toJson m.returnType), ("name", .str m.name),
    ("params", ofList Param.toJson m.params), ("throws", ofList TypeRef.toJson m.throws),
    ("body", ofOption ofNat m.body), ("range", m.range.toJson)]

/-- A constructor. -/
def ConstructorDecl.toJson (c : ConstructorDecl) : Json :=
  .obj [("modifiers", c.modifiers.toJson), ("params", ofList Param.toJson c.params),
    ("throws", ofList TypeRef.toJson c.throws), ("body", ofNat c.body),
    ("range", c.range.toJson)]

/-- A type declaration. -/
def TypeDecl.toJson (d : TypeDecl) : Json :=
  .obj [("kind", .str d.kind.key), ("name", .str d.name), ("modifiers", d.modifiers.toJson),
    ("superclass", ofOption TypeRef.toJson d.superclass),
    ("interfaces", ofList TypeRef.toJson d.interfaces),
    ("fields", ofList FieldDecl.toJson d.fields),
    ("constructors", ofList ConstructorDecl.toJson d.constructors),
    ("methods", ofList MethodDecl.toJson d.methods), ("bodies", d.bodies.toJson),
    ("range", d.range.toJson)]

/-- An import. -/
def ImportDecl.toJson : ImportDecl → Json
  | .single path range =>
    .obj [("kind", .str "single"), ("path", path.toJson), ("range", range.toJson)]
  | .onDemand package range =>
    .obj [("kind", .str "on_demand"), ("package", package.toJson), ("range", range.toJson)]

/-- A compilation unit. -/
def CompilationUnit.toJson (u : CompilationUnit) : Json :=
  .obj [("file", ofOption .str u.file), ("package", ofOption QualifiedName.toJson u.package),
    ("imports", ofList ImportDecl.toJson u.imports), ("decl", u.decl.toJson)]

/-- A program. -/
def Program.toJson (p : Program) : Json :=
  .obj [("units", ofList CompilationUnit.toJson p.units)]

end JoosStatics
