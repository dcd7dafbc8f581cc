/-
JoosStatics.Bodies.Expressions — the static type of every expression.

* `inferExpr` — an expression in the place of a value.
* `inferTarget` — an expression that is assigned, incremented or
  decremented: a variable or an array element that may be written.
* `BodyContext.inferReceiver` — an expression to the left of a selection,
  which may be the name of a type.

Operands are checked from left to right; every expression records its type,
and names, accesses, calls and creations also record what they refer to.
-/
import JoosStatics.Bodies.Calls

namespace JoosStatics

/-- An expression to the left of a selection. A name may denote a type; any
other expression is a value, computed by `value`. -/
def BodyContext.inferReceiver (ctx : BodyContext) (scope : Scope) (receiver : Expr Mark)
    (value : CheckM Ty) : CheckM Receiver :=
  match receiver with
  | .named mark path => ctx.inferReceiverName scope mark path
  | _ => do return .value (← value)

/-- An array access, given how to check the array and the index. -/
def BodyContext.inferArrayAccess (ctx : BodyContext) (mark : Mark) (indexRange : Span)
    (array index : CheckM Ty) : CheckM Ty := do
  let arrayType ← array
  let indexType ← index
  let element ← CheckM.rule (ctx.elementType arrayType indexType mark.range indexRange)
  CheckM.recordType mark element

mutual

/-- The type of an expression in the place of a value. -/
def inferExpr (ctx : BodyContext) (scope : Scope) : Expr Mark → CheckM Ty
  | .literal mark value => CheckM.recordType mark (ctx.literalType value)
  | .named mark path => do
    let (type, _) ← ctx.inferName scope mark path
    CheckM.recordType mark type
  | .this mark => do
    CheckM.rule (ctx.requireThis mark.range)
    CheckM.recordType mark (.declared ctx.classId)
  | .fieldAccess mark receiver name => do
    let left ← ctx.inferReceiver scope receiver (inferExpr ctx scope receiver)
    let (type, _) ← ctx.inferAccess mark left name
    CheckM.recordType mark type
  | .call mark name args => do
    let argTypes ← inferExprs ctx scope args
    let type ← ctx.inferCall mark ctx.classId .unqualified name argTypes
    CheckM.recordType mark type
  | .callOn mark receiver name args => do
    let left ← ctx.inferReceiver scope receiver (inferExpr ctx scope receiver)
    let (id, kind) ← CheckM.rule (ctx.callee left mark.range)
    let argTypes ← inferExprs ctx scope args
    let type ← ctx.inferCall mark id kind name argTypes
    CheckM.recordType mark type
  | .create mark type args => do
    let id ← ctx.createdClass mark type
    let argTypes ← inferExprs ctx scope args
    let type ← ctx.inferCreation mark id argTypes
    CheckM.recordType mark type
  | .createArray mark element dims => do
    let base ← ctx.resolveType element
    inferDims ctx scope dims
    CheckM.recordType mark (Ty.arrayOf dims.length base)
  | .arrayAccess mark array index =>
    ctx.inferArrayAccess mark index.range (inferExpr ctx scope array) (inferExpr ctx scope index)
  | .cast mark type operand => do
    let target ← ctx.resolveType type
    let found ← inferExpr ctx scope operand
    CheckM.rule (ctx.checkCast found target mark.range)
    CheckM.recordType mark target
  | .instanceOf mark operand type => do
    let found ← inferExpr ctx scope operand
    let target ← ctx.resolveType type
    CheckM.rule (ctx.checkInstanceOf found target mark.range)
    CheckM.recordType mark .boolean
  | .binary mark op lhs rhs => do
    let lhsType ← inferExpr ctx scope lhs
    let rhsType ← inferExpr ctx scope rhs
    let type ← CheckM.rule (ctx.binaryType op lhsType rhsType mark.range)
    CheckM.recordType mark type
  | .unary mark op operand => do
    let found ← inferExpr ctx scope operand
    let type ← CheckM.rule (ctx.unaryType op found mark.range)
    CheckM.recordType mark type
  | .incDec mark _ operand => do
    let found ← inferTarget ctx scope operand
    CheckM.rule (ctx.checkIncDec found mark.range)
    CheckM.recordType mark found
  | .assign mark target value => do
    let expected ← inferTarget ctx scope target
    let found ← inferExpr ctx scope value
    CheckM.rule (ctx.requireAssignable found expected value.range)
    CheckM.recordType mark expected
termination_by structural e => e

/-- The type of an expression that is assigned. -/
def inferTarget (ctx : BodyContext) (scope : Scope) : Expr Mark → CheckM Ty
  | .named mark path => do
    let (type, kind) ← ctx.inferAssignedName scope mark path
    CheckM.rule (ctx.requireWritable kind mark.range)
    CheckM.recordType mark type
  | .fieldAccess mark receiver name => do
    let left ← ctx.inferReceiver scope receiver (inferExpr ctx scope receiver)
    let (type, kind) ← ctx.inferAccess mark left name
    CheckM.rule (ctx.requireWritable kind mark.range)
    CheckM.recordType mark type
  | .arrayAccess mark array index =>
    ctx.inferArrayAccess mark index.range (inferExpr ctx scope array) (inferExpr ctx scope index)
  | other => CheckM.rule (ctx.broken .notLvalue other.range)
termination_by structural e => e

/-- The types of expressions, from left to right. -/
def inferExprs (ctx : BodyContext) (scope : Scope) : List (Expr Mark) → CheckM (List Ty)
  | [] => return []
  | e :: es => do
    let type ← inferExpr ctx scope e
    let types ← inferExprs ctx scope es
    return type :: types
termination_by structural es => es

/-- Checks the dimensions of a new array, from left to right. -/
def inferDims (ctx : BodyContext) (scope : Scope) : List (Expr Mark) → CheckM Unit
  | [] => return ()
  | e :: es => do
    let type ← inferExpr ctx scope e
    CheckM.rule (ctx.requireNumeric type e.range)
    inferDims ctx scope es
termination_by structural es => es

end

end JoosStatics
