/-
JoosStatics.Flow.Completion — how control leaves a statement.

`Stmt.completion` computes whether a statement can complete normally and
whether a `break` can leave it toward an enclosing loop, and fails with the
first statement that cannot be reached. The condition of a loop counts only
when it is constant; a branch may always go either way.
-/
import JoosStatics.Flow.Constant

namespace JoosStatics

/-- How control can leave a statement: `normal` when it can complete, `breaks`
when a reachable `break` leaves it. -/
structure Completion where
  normal : Bool
  breaks : Bool
  deriving DecidableEq, Repr

namespace Completion

/-- Completes, and does nothing else. -/
def ordinary : Completion := ⟨true, false⟩

/-- Leaves the member by a return or an exception. -/
def abrupt : Completion := ⟨false, false⟩

/-- Either of two ways. -/
def join (a b : Completion) : Completion := ⟨a.normal || b.normal, a.breaks || b.breaks⟩

end Completion

/-- The completion of a statement, or the first statement that cannot be
reached. -/
abbrev Reach := Except (Stmt Mark)

/-- The completion of a loop, given its condition and the completion of its
body. The loop takes up the breaks of its body. -/
def loopCompletion (condition : Option Constant) (body : Stmt Mark)
    (bodyCompletion : Reach Completion) : Reach Completion :=
  match condition with
  | some (.bool false) => .error body
  | some (.bool true) => bodyCompletion.map (fun inner => ⟨inner.breaks, false⟩)
  | _ => bodyCompletion.map (fun _ => .ordinary)

/-- The constant value of a loop condition; a missing one is true. -/
def loopCondition : Option (Expr Mark) → Option Constant
  | none => some (.bool true)
  | some condition => condition.fold?

mutual

/-- How control leaves a statement. -/
def Stmt.completion : Stmt Mark → Reach Completion
  | .block _ stmts => blockCompletion .ordinary stmts
  | .localVar .. | .expression .. | .empty .. | .constructorCall .. => .ok .ordinary
  | .branch _ _ thenBranch elseBranch => do
    let thenCompletion ← thenBranch.completion
    let elseCompletion ← optionalCompletion elseBranch
    return thenCompletion.join elseCompletion
  | .whileLoop _ condition body => loopCompletion condition.fold? body body.completion
  | .forLoop _ init condition _ body => do
    let _ ← optionalCompletion init
    loopCompletion (loopCondition condition) body body.completion
  | .returnValue .. | .throwValue .. => .ok .abrupt
  | .breakLoop _ => .ok ⟨false, true⟩
termination_by structural s => s

/-- How control leaves a sequence of statements, given how it leaves what
stands before them. -/
def blockCompletion (before : Completion) : List (Stmt Mark) → Reach Completion
  | [] => .ok before
  | s :: ss =>
    if before.normal then do
      let c ← s.completion
      blockCompletion ⟨c.normal, before.breaks || c.breaks⟩ ss
    else .error s
termination_by structural ss => ss

/-- A missing statement completes. -/
def optionalCompletion : Option (Stmt Mark) → Reach Completion
  | none => .ok .ordinary
  | some s => s.completion
termination_by structural s => s

end

end JoosStatics
