/-
JoosStatics.Syntax.Blueprint — declarations written by hand.

A `TypeBlueprint` is a type declaration whose bodies are trees. `toDecl`
puts the nodes of all bodies into one arena: fields first, then
constructors, then methods, operands before the node that uses them, every
span empty. The body of a constructor or method becomes a block.
-/
import JoosStatics.Syntax.Tree

namespace JoosStatics

/-- Building up an arena. -/
abbrev Allocation := StateM BodyArena

/-- Adds an expression and returns its position. -/
def allocateExpr (form : ExprForm) : Allocation ExprId := fun arena =>
  (arena.exprs.size, { arena with exprs := arena.exprs.push { form := form } })

/-- Adds a statement and returns its position. -/
def allocateStmt (form : StmtForm) : Allocation StmtId := fun arena =>
  (arena.stmts.size, { arena with stmts := arena.stmts.push { form := form } })

mutual

/-- Adds the nodes of an expression and returns the position of its root. -/
def Expr.allocate {α : Type} : Expr α → Allocation ExprId
  | .literal _ value => allocateExpr (.literal value)
  | .named _ path => allocateExpr (.named path)
  | .this _ => allocateExpr .this
  | .fieldAccess _ receiver name => do
    allocateExpr (.fieldAccess (← receiver.allocate) name)
  | .call _ name args => do
    allocateExpr (.methodCall none name (← allocateExprs args))
  | .callOn _ receiver name args => do
    let receiver ← receiver.allocate
    allocateExpr (.methodCall (some receiver) name (← allocateExprs args))
  | .create _ type args => do allocateExpr (.create type (← allocateExprs args))
  | .createArray _ element dims => do allocateExpr (.createArray element (← allocateExprs dims))
  | .arrayAccess _ array index => do
    let array ← array.allocate
    let index ← index.allocate
    allocateExpr (.arrayAccess array index)
  | .cast _ type operand => do allocateExpr (.cast type (← operand.allocate))
  | .instanceOf _ operand type => do allocateExpr (.instanceOf (← operand.allocate) type)
  | .binary _ op lhs rhs => do
    let lhs ← lhs.allocate
    let rhs ← rhs.allocate
    allocateExpr (.binary op lhs rhs)
  | .unary _ op operand => do allocateExpr (.unary op (← operand.allocate))
  | .incDec _ op operand => do allocateExpr (.incDec op (← operand.allocate))
  | .assign _ target value => do
    let target ← target.allocate
    let value ← value.allocate
    allocateExpr (.assign target value)
termination_by structural e => e

/-- Adds expressions from left to right. -/
def allocateExprs {α : Type} : List (Expr α) → Allocation (List ExprId)
  | [] => pure []
  | e :: es => do
    let id ← e.allocate
    let ids ← allocateExprs es
    return id :: ids
termination_by structural es => es

end

/-- Adds an expression that may be missing. -/
def allocateExprOption {α : Type} : Option (Expr α) → Allocation (Option ExprId)
  | none => pure none
  | some e => do return some (← e.allocate)

mutual

/-- Adds the nodes of a statement and returns the position of its root. -/
def Stmt.allocate {α : Type} : Stmt α → Allocation StmtId
  | .block _ stmts => do allocateStmt (.block (← allocateStmts stmts))
  | .localVar _ type name initializer => do
    allocateStmt (.localVar type name (← allocateExprOption initializer))
  | .expression _ value => do allocateStmt (.expression (← value.allocate))
  | .branch _ condition thenBranch elseBranch => do
    let condition ← condition.allocate
    let thenBranch ← thenBranch.allocate
    let elseBranch ← allocateStmtOption elseBranch
    allocateStmt (.branch condition thenBranch elseBranch)
  | .whileLoop _ condition body => do
    let condition ← condition.allocate
    let body ← body.allocate
    allocateStmt (.whileLoop condition body)
  | .forLoop _ init condition update body => do
    let init ← allocateStmtOption init
    let condition ← allocateExprOption condition
    let update ← allocateExprOption update
    let body ← body.allocate
    allocateStmt (.forLoop init condition update body)
  | .returnValue _ value => do allocateStmt (.returnValue (← allocateExprOption value))
  | .throwValue _ value => do allocateStmt (.throwValue (← value.allocate))
  | .breakLoop _ => allocateStmt .breakLoop
  | .empty _ => allocateStmt .empty
  | .constructorCall _ call args => do
    allocateStmt (.constructorCall call (← allocateExprs args))
termination_by structural s => s

/-- Adds statements in order. -/
def allocateStmts {α : Type} : List (Stmt α) → Allocation (List StmtId)
  | [] => pure []
  | s :: ss => do
    let id ← s.allocate
    let ids ← allocateStmts ss
    return id :: ids
termination_by structural ss => ss

/-- Adds a statement that may be missing. -/
def allocateStmtOption {α : Type} : Option (Stmt α) → Allocation (Option StmtId)
  | none => pure none
  | some s => do return some (← s.allocate)
termination_by structural s => s

end

/-- A field written by hand; `public` unless said otherwise. -/
structure FieldBlueprint where
  modifiers : Modifiers := .public
  type : TypeSyntax
  name : Name
  initializer : Option (Expr Unit) := none

/-- A constructor written by hand; `public` with an empty body unless said
otherwise. -/
structure ConstructorBlueprint where
  modifiers : Modifiers := .public
  params : List (TypeSyntax × Name) := []
  throws : List TypeRef := []
  body : List (Stmt Unit) := []

/-- A method written by hand; `public void` without a body unless said
otherwise. -/
structure MethodBlueprint where
  modifiers : Modifiers := .public
  returnType : Option TypeSyntax := none
  name : Name
  params : List (TypeSyntax × Name) := []
  throws : List TypeRef := []
  body : Option (List (Stmt Unit)) := none

/-- A type declaration written by hand; `public` unless said otherwise. -/
structure TypeBlueprint where
  kind : TypeKind
  name : Name
  modifiers : Modifiers := .public
  superclass : Option TypeRef := none
  interfaces : List TypeRef := []
  fields : List FieldBlueprint := []
  constructors : List ConstructorBlueprint := []
  methods : List MethodBlueprint := []

/-- Parameters without places in the source. -/
def toParams (params : List (TypeSyntax × Name)) : List Param :=
  params.map (fun param => { type := param.1, name := param.2 })

/-- The field with its initializer in the arena. -/
def FieldBlueprint.allocate (b : FieldBlueprint) : Allocation FieldDecl := do
  let initializer ← allocateExprOption b.initializer
  return { modifiers := b.modifiers, type := b.type, name := b.name, initializer }

/-- The constructor with its body in the arena. -/
def ConstructorBlueprint.allocate (b : ConstructorBlueprint) : Allocation ConstructorDecl := do
  let body ← (Stmt.block () b.body).allocate
  return { modifiers := b.modifiers, params := toParams b.params, throws := b.throws, body }

/-- The method with its body in the arena. -/
def MethodBlueprint.allocate (b : MethodBlueprint) : Allocation MethodDecl := do
  let body ← allocateStmtOption (b.body.map (Stmt.block ()))
  return {
    modifiers := b.modifiers, returnType := b.returnType, name := b.name
    params := toParams b.params, throws := b.throws, body }

namespace TypeBlueprint

/-- Names a supertype after `extends`: the superclass of a class, which
replaces an earlier one, or a further superinterface of an interface. -/
def extending (b : TypeBlueprint) (name : String) : TypeBlueprint :=
  match b.kind with
  | .classType => { b with superclass := some (.ofDotted name) }
  | .interfaceType => { b with interfaces := b.interfaces ++ [.ofDotted name] }

/-- Names a further superinterface. -/
def implementing (b : TypeBlueprint) (name : String) : TypeBlueprint :=
  { b with interfaces := b.interfaces ++ [.ofDotted name] }

/-- The members with their bodies in one arena. -/
def allocateMembers (b : TypeBlueprint) :
    Allocation (List FieldDecl × List ConstructorDecl × List MethodDecl) := do
  let fields ← b.fields.mapM FieldBlueprint.allocate
  let constructors ← b.constructors.mapM ConstructorBlueprint.allocate
  let methods ← b.methods.mapM MethodBlueprint.allocate
  return (fields, constructors, methods)

/-- The declaration of a blueprint. -/
def toDecl (b : TypeBlueprint) : TypeDecl :=
  let ((fields, constructors, methods), bodies) := b.allocateMembers {}
  { kind := b.kind, name := b.name, modifiers := b.modifiers, superclass := b.superclass
    interfaces := b.interfaces, fields, constructors, methods, bodies }

end TypeBlueprint

end JoosStatics
