/-
JoosStatics.Flow.Constant — constant expressions.

An expression built from literals and operators alone has a constant value:
a 32-bit integer, on which arithmetic wraps around and division truncates
toward zero, or a truth value. A division by zero is not constant, and both
operands of every operator have to be constant.
-/
import JoosStatics.Syntax.Tree

namespace JoosStatics

/-- The value of a constant expression. -/
inductive Constant where
  | int (value : Int32)
  | bool (value : Bool)
  deriving DecidableEq, Repr

namespace Constant

/-- The value of a literal; strings and the null literal are not constant. -/
def ofLiteral? : Literal → Option Constant
  | .int value => some (.int value)
  | .bool value => some (.bool value)
  | .char value => some (.int value.val.toInt32)
  | .string _ | .null => none

/-- The value of a unary operation. -/
def unary? : UnaryOp → Constant → Option Constant
  | .neg, .int value => some (.int (-value))
  | .not, .bool value => some (.bool !value)
  | _, _ => none

/-- The value of an operation on integers. -/
def onInts? (op : BinaryOp) (a b : Int32) : Option Constant :=
  match op with
  | .add => some (.int (a + b))
  | .sub => some (.int (a - b))
  | .mul => some (.int (a * b))
  | .div => if b = 0 then none else some (.int (a / b))
  | .rem => if b = 0 then none else some (.int (a % b))
  | .lt => some (.bool (decide (a < b)))
  | .le => some (.bool (decide (a ≤ b)))
  | .gt => some (.bool (decide (b < a)))
  | .ge => some (.bool (decide (b ≤ a)))
  | .eq => some (.bool (a == b))
  | .ne => some (.bool (a != b))
  | .and | .or | .bitAnd | .bitOr => none

/-- The value of an operation on truth values. -/
def onBools? (op : BinaryOp) (a b : Bool) : Option Constant :=
  match op with
  | .and | .bitAnd => some (.bool (a && b))
  | .or | .bitOr => some (.bool (a || b))
  | .eq => some (.bool (a == b))
  | .ne => some (.bool (a != b))
  | _ => none

/-- The value of a binary operation. -/
def binary? (op : BinaryOp) : Constant → Constant → Option Constant
  | .int a, .int b => onInts? op a b
  | .bool a, .bool b => onBools? op a b
  | _, _ => none

end Constant

/-- The value of an expression, if it is constant. -/
def Expr.fold? {α : Type} : Expr α → Option Constant
  | .literal _ value => Constant.ofLiteral? value
  | .unary _ op operand => do Constant.unary? op (← operand.fold?)
  | .binary _ op lhs rhs => do
    let a ← lhs.fold?
    let b ← rhs.fold?
    Constant.binary? op a b
  | _ => none
termination_by structural e => e

end JoosStatics
