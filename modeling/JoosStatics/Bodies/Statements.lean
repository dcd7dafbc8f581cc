/-
JoosStatics.Bodies.Statements — the rules on statements.

`checkStmt` returns the variables visible after a statement: a declaration
adds one, every other statement leaves the scope it found. Branches, loop
bodies and blocks are checked in scopes of their own.
-/
import JoosStatics.Bodies.Expressions

namespace JoosStatics

/-- A condition has to be a truth value. -/
def checkCondition (ctx : BodyContext) (scope : Scope) (condition : Expr Mark) : CheckM Unit := do
  let found ← inferExpr ctx scope condition
  CheckM.rule (ctx.requireAssignable found .boolean condition.range)

/-- The condition of a loop, which may be missing. -/
def checkConditionOption (ctx : BodyContext) (scope : Scope) :
    Option (Expr Mark) → CheckM Unit
  | none => return ()
  | some condition => checkCondition ctx scope condition

/-- The update of a loop, which may be missing. -/
def checkUpdate (ctx : BodyContext) (scope : Scope) : Option (Expr Mark) → CheckM Unit
  | none => return ()
  | some update => do let _ ← inferExpr ctx scope update

/-- The initializer of a variable or field, which may be missing. -/
def checkInitializer (ctx : BodyContext) (scope : Scope) (expected : Ty) :
    Option (Expr Mark) → CheckM Unit
  | none => return ()
  | some value => do
    let found ← inferExpr ctx scope value
    CheckM.rule (ctx.requireAssignable found expected value.range)

/-- A return statement has a value exactly when the member has a result. -/
def checkReturn (ctx : BodyContext) (scope : Scope) (range : Span) :
    Option (Expr Mark) → CheckM Unit
  | none =>
    if ctx.expectedReturn = .void then return ()
    else
      .rule (ctx.broken (.typeMismatch (ctx.table.display ctx.expectedReturn) "void") range)
  | some value => do
    let found ← inferExpr ctx scope value
    if ctx.expectedReturn = .void then
      .rule (ctx.broken (.typeMismatch "void" (ctx.table.display found)) range)
    else CheckM.rule (ctx.requireAssignable found ctx.expectedReturn value.range)

/-- Only throwable values are thrown; the null literal raises no checked
exception. -/
def checkThrown (ctx : BodyContext) (found : Ty) (range : Span) : Except Violation Unit :=
  let illegal : Except Violation Unit :=
    ctx.broken (.illegalThrowType (ctx.table.display found)) range
  match found with
  | .declared id =>
    if ctx.table.isSubclass id ctx.table.wellKnown.throwable then ctx.checkThrows [id] range
    else illegal
  | .null => .ok ()
  | _ => illegal

mutual

/-- Checks a statement and returns the scope after it. -/
def checkStmt (ctx : BodyContext) (scope : Scope) : Stmt Mark → CheckM Scope
  | .block _ stmts => do
    let _ ← checkStmts ctx scope stmts
    return scope
  | .localVar mark type name initializer => do
    let declared ← ctx.resolveType type
    checkInitializer ctx scope declared initializer
    ctx.declare scope { name, type := declared, span := mark.range, isParam := false }
  | .expression _ value => do
    let _ ← inferExpr ctx scope value
    return scope
  | .branch _ condition thenBranch elseBranch => do
    checkCondition ctx scope condition
    let _ ← checkStmt ctx scope thenBranch
    let _ ← checkStmtOption ctx scope elseBranch
    return scope
  | .whileLoop _ condition body => do
    checkCondition ctx scope condition
    let _ ← checkStmt ctx scope body
    return scope
  | .forLoop _ init condition update body => do
    let inner ← checkStmtOption ctx scope init
    checkConditionOption ctx inner condition
    checkUpdate ctx inner update
    let _ ← checkStmt ctx inner body
    return scope
  | .returnValue mark value => do
    checkReturn ctx scope mark.range value
    return scope
  | .throwValue mark value => do
    let found ← inferExpr ctx scope value
    CheckM.rule (checkThrown ctx found mark.range)
    return scope
  | .breakLoop _ => return scope
  | .empty _ => return scope
  | .constructorCall mark _ _ =>
    CheckM.rule (ctx.broken .misplacedConstructorInvocation mark.range)
termination_by structural s => s

/-- Checks statements in order and returns the scope after the last one. -/
def checkStmts (ctx : BodyContext) (scope : Scope) : List (Stmt Mark) → CheckM Scope
  | [] => return scope
  | s :: ss => do
    let scope ← checkStmt ctx scope s
    checkStmts ctx scope ss
termination_by structural ss => ss

/-- Checks a statement that may be missing. -/
def checkStmtOption (ctx : BodyContext) (scope : Scope) : Option (Stmt Mark) → CheckM Scope
  | none => return scope
  | some s => checkStmt ctx scope s
termination_by structural s => s

end

end JoosStatics
