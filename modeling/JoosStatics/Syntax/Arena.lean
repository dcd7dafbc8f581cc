/-
JoosStatics.Syntax.Arena — the bodies of one type declaration.

All statements and expressions of a declaration lie in one `BodyArena`;
members and parent nodes refer to them by position. An arena comes from
outside and is not trusted:

* `BodyArena.isWellFormed` — every position held by a node is in bounds.
* `BodyArena.formsTrees` — no node is reached twice from the given roots,
  so that the bodies are disjoint trees.

Positions are natural numbers without a bound. In a file they have 32 bits, so an
arena is assumed to hold fewer than 2^32 statements and fewer than 2^32 expressions;
`CompilationUnit.Addressable` says it of the positions in a unit.
-/
import JoosStatics.Syntax.Basic

namespace JoosStatics

/-- The position of an expression in its arena. -/
abbrev ExprId := Nat

/-- The position of a statement in its arena. -/
abbrev StmtId := Nat

/-- An expression whose operands are positions. -/
inductive ExprForm where
  | literal (value : Literal)
  /-- A dotted name whose meaning the checker decides. -/
  | named (path : QualifiedName)
  | this
  | fieldAccess (receiver : ExprId) (name : Name)
  | methodCall (receiver : Option ExprId) (name : Name) (args : List ExprId)
  | create (type : TypeRef) (args : List ExprId)
  /-- The type `element` comes without the dimensions that are given here. -/
  | createArray (element : TypeSyntax) (dims : List ExprId)
  | arrayAccess (array index : ExprId)
  | cast (type : TypeSyntax) (operand : ExprId)
  | instanceOf (operand : ExprId) (type : TypeSyntax)
  | binary (op : BinaryOp) (lhs rhs : ExprId)
  | unary (op : UnaryOp) (operand : ExprId)
  | incDec (op : IncDecOp) (operand : ExprId)
  | assign (target value : ExprId)
  deriving DecidableEq, Repr

/-- A statement whose parts are positions. -/
inductive StmtForm where
  | block (stmts : List StmtId)
  | localVar (type : TypeSyntax) (name : Name) (initializer : Option ExprId)
  | expression (value : ExprId)
  | branch (condition : ExprId) (thenBranch : StmtId) (elseBranch : Option StmtId)
  | whileLoop (condition : ExprId) (body : StmtId)
  | forLoop (init : Option StmtId) (condition update : Option ExprId) (body : StmtId)
  | returnValue (value : Option ExprId)
  | throwValue (value : ExprId)
  | breakLoop
  | empty
  /-- An invocation `this(...)` or `super(...)`. -/
  | constructorCall (call : ConstructorCallKind) (args : List ExprId)
  deriving DecidableEq, Repr

/-- An expression with its place in the source. -/
structure ExprNode where
  form : ExprForm
  range : Span := {}
  deriving DecidableEq, Repr

/-- A statement with its place in the source. -/
structure StmtNode where
  form : StmtForm
  range : Span := {}
  deriving DecidableEq, Repr

/-- The operands of an expression, from left to right. -/
def ExprForm.children : ExprForm → List ExprId
  | .literal _ | .named _ | .this => []
  | .fieldAccess receiver _ => [receiver]
  | .methodCall receiver _ args => receiver.toList ++ args
  | .create _ args => args
  | .createArray _ dims => dims
  | .arrayAccess array index => [array, index]
  | .cast _ operand | .instanceOf operand _ | .unary _ operand | .incDec _ operand => [operand]
  | .binary _ lhs rhs => [lhs, rhs]
  | .assign target value => [target, value]

/-- The statements directly inside a statement, in order. -/
def StmtForm.stmtChildren : StmtForm → List StmtId
  | .block stmts => stmts
  | .branch _ thenBranch elseBranch => thenBranch :: elseBranch.toList
  | .whileLoop _ body => [body]
  | .forLoop init _ _ body => init.toList ++ [body]
  | _ => []

/-- The expressions directly inside a statement, in order. -/
def StmtForm.exprChildren : StmtForm → List ExprId
  | .localVar _ _ initializer => initializer.toList
  | .expression value | .throwValue value => [value]
  | .branch condition _ _ | .whileLoop condition _ => [condition]
  | .forLoop _ condition update _ => condition.toList ++ update.toList
  | .returnValue value => value.toList
  | .constructorCall _ args => args
  | .block _ | .breakLoop | .empty => []

/-- The statements and expressions of every body in one type declaration. -/
structure BodyArena where
  stmts : Array StmtNode := #[]
  exprs : Array ExprNode := #[]
  deriving DecidableEq, Repr

namespace BodyArena

instance : Inhabited BodyArena := ⟨{}⟩

/-- Whether a statement position is in bounds. -/
def hasStmt (a : BodyArena) (id : StmtId) : Bool := id < a.stmts.size

/-- Whether an expression position is in bounds. -/
def hasExpr (a : BodyArena) (id : ExprId) : Bool := id < a.exprs.size

/-- The statements directly inside the statement at a position. -/
def stmtChildrenOf (a : BodyArena) (id : StmtId) : List StmtId :=
  (a.stmts[id]?).elim [] (fun node => node.form.stmtChildren)

/-- The expressions directly inside the statement at a position. -/
def stmtOperandsOf (a : BodyArena) (id : StmtId) : List ExprId :=
  (a.stmts[id]?).elim [] (fun node => node.form.exprChildren)

/-- The operands of the expression at a position. -/
def operandsOf (a : BodyArena) (id : ExprId) : List ExprId :=
  (a.exprs[id]?).elim [] (fun node => node.form.children)

/-- Whether every position held by a node is in bounds. -/
def isWellFormed (a : BodyArena) : Bool :=
  a.stmts.toList.all (fun node =>
    node.form.stmtChildren.all a.hasStmt && node.form.exprChildren.all a.hasExpr) &&
  a.exprs.toList.all (fun node => node.form.children.all a.hasExpr)

/-- Visits the pending statements and then the pending expressions, each with
everything inside it, and reports whether no node came up a second time.
Every visit but the last adds a node to those seen, so `fuel` need only
exceed the number of nodes. -/
def visitsOnce (a : BodyArena) :
    (fuel : Nat) → (stmts : List StmtId) → (exprs : List ExprId) →
    (seenStmts : List StmtId) → (seenExprs : List ExprId) → Bool
  | 0, _, _, _, _ => false
  | fuel + 1, id :: stmts, exprs, seenStmts, seenExprs =>
    if seenStmts.contains id then false
    else a.visitsOnce fuel (a.stmtChildrenOf id ++ stmts) (a.stmtOperandsOf id ++ exprs)
      (id :: seenStmts) seenExprs
  | fuel + 1, [], id :: exprs, seenStmts, seenExprs =>
    if seenExprs.contains id then false
    else a.visitsOnce fuel [] (a.operandsOf id ++ exprs) seenStmts (id :: seenExprs)
  | _ + 1, [], [], _, _ => true

/-- Whether the nodes reachable from the given roots form disjoint trees: no
root and no node below a root is reached twice. -/
def formsTrees (a : BodyArena) (stmtRoots : List StmtId) (exprRoots : List ExprId) : Bool :=
  a.visitsOnce (a.stmts.size + a.exprs.size + 1) stmtRoots exprRoots [] []

end BodyArena

end JoosStatics
