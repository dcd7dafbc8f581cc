/-
JoosStatics.Syntax.Tree — bodies as trees.

The checker and the flow analysis work on trees. `Expr α` and `Stmt α`
carry a note of type `α` at every node: blueprints of declarations carry
none, trees read from an arena carry the position and the place of each
node (`Mark`). `BodyArena.readExpr?` and `BodyArena.readStmt?` follow the
positions of an arena; they succeed on the bodies of a well-formed
declaration.
-/
import JoosStatics.Syntax.Unit

namespace JoosStatics

/-- An expression tree. -/
inductive Expr (α : Type) where
  | literal (note : α) (value : Literal)
  | named (note : α) (path : QualifiedName)
  | this (note : α)
  | fieldAccess (note : α) (receiver : Expr α) (name : Name)
  /-- An unqualified call `name(args)`. -/
  | call (note : α) (name : Name) (args : List (Expr α))
  /-- A qualified call `receiver.name(args)`. -/
  | callOn (note : α) (receiver : Expr α) (name : Name) (args : List (Expr α))
  | create (note : α) (type : TypeRef) (args : List (Expr α))
  | createArray (note : α) (element : TypeSyntax) (dims : List (Expr α))
  | arrayAccess (note : α) (array index : Expr α)
  | cast (note : α) (type : TypeSyntax) (operand : Expr α)
  | instanceOf (note : α) (operand : Expr α) (type : TypeSyntax)
  | binary (note : α) (op : BinaryOp) (lhs rhs : Expr α)
  | unary (note : α) (op : UnaryOp) (operand : Expr α)
  | incDec (note : α) (op : IncDecOp) (operand : Expr α)
  | assign (note : α) (target value : Expr α)

/-- A statement tree. -/
inductive Stmt (α : Type) where
  | block (note : α) (stmts : List (Stmt α))
  | localVar (note : α) (type : TypeSyntax) (name : Name) (initializer : Option (Expr α))
  | expression (note : α) (value : Expr α)
  | branch (note : α) (condition : Expr α) (thenBranch : Stmt α) (elseBranch : Option (Stmt α))
  | whileLoop (note : α) (condition : Expr α) (body : Stmt α)
  | forLoop (note : α) (init : Option (Stmt α)) (condition update : Option (Expr α))
      (body : Stmt α)
  | returnValue (note : α) (value : Option (Expr α))
  | throwValue (note : α) (value : Expr α)
  | breakLoop (note : α)
  | empty (note : α)
  | constructorCall (note : α) (call : ConstructorCallKind) (args : List (Expr α))

variable {α : Type}

/-- The note at the root. -/
def Expr.note : Expr α → α
  | .literal note .. | .named note .. | .this note | .fieldAccess note .. | .call note ..
  | .callOn note .. | .create note .. | .createArray note .. | .arrayAccess note ..
  | .cast note .. | .instanceOf note .. | .binary note .. | .unary note .. | .incDec note ..
  | .assign note .. => note

/-- The note at the root. -/
def Stmt.note : Stmt α → α
  | .block note .. | .localVar note .. | .expression note .. | .branch note ..
  | .whileLoop note .. | .forLoop note .. | .returnValue note .. | .throwValue note ..
  | .breakLoop note | .empty note | .constructorCall note .. => note

/-- Where a node of a tree stands: its position in the arena and its place in
the source. -/
structure Mark where
  id : Nat
  range : Span
  deriving DecidableEq, Repr, Inhabited

/-- The place of an expression in the source. -/
def Expr.range (e : Expr Mark) : Span := e.note.range

/-- The place of a statement in the source. -/
def Stmt.range (s : Stmt Mark) : Span := s.note.range

namespace BodyArena

/-- The tree below the expression at a position, at most `depth` levels deep. -/
def readExpr? (a : BodyArena) : (depth : Nat) → ExprId → Option (Expr Mark)
  | 0, _ => none
  | depth + 1, id =>
    match a.exprs[id]? with
    | none => none
    | some node =>
      let mark : Mark := ⟨id, node.range⟩
      match node.form with
      | .literal value => some (.literal mark value)
      | .named path => some (.named mark path)
      | .this => some (.this mark)
      | .fieldAccess receiver name => do
        return .fieldAccess mark (← a.readExpr? depth receiver) name
      | .methodCall none name args => do
        return .call mark name (← args.mapM (a.readExpr? depth))
      | .methodCall (some receiver) name args => do
        return .callOn mark (← a.readExpr? depth receiver) name
          (← args.mapM (a.readExpr? depth))
      | .create type args => do return .create mark type (← args.mapM (a.readExpr? depth))
      | .createArray element dims => do
        return .createArray mark element (← dims.mapM (a.readExpr? depth))
      | .arrayAccess array index => do
        return .arrayAccess mark (← a.readExpr? depth array) (← a.readExpr? depth index)
      | .cast type operand => do return .cast mark type (← a.readExpr? depth operand)
      | .instanceOf operand type => do return .instanceOf mark (← a.readExpr? depth operand) type
      | .binary op lhs rhs => do
        return .binary mark op (← a.readExpr? depth lhs) (← a.readExpr? depth rhs)
      | .unary op operand => do return .unary mark op (← a.readExpr? depth operand)
      | .incDec op operand => do return .incDec mark op (← a.readExpr? depth operand)
      | .assign target value => do
        return .assign mark (← a.readExpr? depth target) (← a.readExpr? depth value)

/-- The tree below the expression at a position. A tree is never deeper than
its arena has nodes. -/
def expr? (a : BodyArena) (id : ExprId) : Option (Expr Mark) := a.readExpr? a.exprs.size id

/-- The tree below an expression that may be missing. -/
def exprOption? (a : BodyArena) : Option ExprId → Option (Option (Expr Mark))
  | none => some none
  | some id => (a.expr? id).map some

/-- The tree below the statement at a position, at most `depth` statements
deep. -/
def readStmt? (a : BodyArena) : (depth : Nat) → StmtId → Option (Stmt Mark)
  | 0, _ => none
  | depth + 1, id =>
    match a.stmts[id]? with
    | none => none
    | some node =>
      let mark : Mark := ⟨id, node.range⟩
      match node.form with
      | .block stmts => do return .block mark (← stmts.mapM (a.readStmt? depth))
      | .localVar type name initializer => do
        return .localVar mark type name (← a.exprOption? initializer)
      | .expression value => do return .expression mark (← a.expr? value)
      | .branch condition thenBranch none => do
        return .branch mark (← a.expr? condition) (← a.readStmt? depth thenBranch) none
      | .branch condition thenBranch (some elseBranch) => do
        return .branch mark (← a.expr? condition) (← a.readStmt? depth thenBranch)
          (some (← a.readStmt? depth elseBranch))
      | .whileLoop condition body => do
        return .whileLoop mark (← a.expr? condition) (← a.readStmt? depth body)
      | .forLoop none condition update body => do
        return .forLoop mark none (← a.exprOption? condition) (← a.exprOption? update)
          (← a.readStmt? depth body)
      | .forLoop (some init) condition update body => do
        return .forLoop mark (some (← a.readStmt? depth init)) (← a.exprOption? condition)
          (← a.exprOption? update) (← a.readStmt? depth body)
      | .returnValue value => do return .returnValue mark (← a.exprOption? value)
      | .throwValue value => do return .throwValue mark (← a.expr? value)
      | .breakLoop => some (.breakLoop mark)
      | .empty => some (.empty mark)
      | .constructorCall call args => do return .constructorCall mark call (← args.mapM a.expr?)

/-- The tree below the statement at a position. -/
def stmt? (a : BodyArena) (id : StmtId) : Option (Stmt Mark) := a.readStmt? a.stmts.size id

end BodyArena

end JoosStatics
