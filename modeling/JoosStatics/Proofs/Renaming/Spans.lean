/-
JoosStatics.Proofs.Renaming.Spans — trees with other spans.

`mapSpans f` puts `f span` in the place of every span of a tree: those of
its nodes, and those of the types written in it.
-/
import JoosStatics.Proofs.Syntax.Trees
import JoosStatics.Syntax.Unit
import JoosStatics.Violation

namespace JoosStatics

variable (f : Span → Span)

/-- The same type and member at another place. -/
def Location.mapSpan (l : Location) : Location := { l with span? := l.span?.map f }

/-- The same violation at another place. -/
def Violation.mapSpan (v : Violation) : Violation := { v with location := v.location.mapSpan f }

/-- The same node at another place. -/
def Mark.mapSpan (m : Mark) : Mark := { m with range := f m.range }

/-- The same reference at another place. -/
def TypeRef.mapSpan (r : TypeRef) : TypeRef := { r with range := f r.range }

/-- The same written type at another place. -/
def TypeSyntax.mapSpans : TypeSyntax → TypeSyntax
  | .primitive type => .primitive type
  | .named type => .named (type.mapSpan f)
  | .array element => .array element.mapSpans

/-- The same parameter at another place. -/
def Param.mapSpans (p : Param) : Param :=
  { p with type := p.type.mapSpans f, range := f p.range }

mutual

/-- The same expression with other spans. -/
def Expr.mapSpans : Expr Mark → Expr Mark
  | .literal mark value => .literal (mark.mapSpan f) value
  | .named mark path => .named (mark.mapSpan f) path
  | .this mark => .this (mark.mapSpan f)
  | .fieldAccess mark receiver name => .fieldAccess (mark.mapSpan f) receiver.mapSpans name
  | .call mark name args => .call (mark.mapSpan f) name (Expr.listMapSpans args)
  | .callOn mark receiver name args =>
    .callOn (mark.mapSpan f) receiver.mapSpans name (Expr.listMapSpans args)
  | .create mark type args => .create (mark.mapSpan f) (type.mapSpan f) (Expr.listMapSpans args)
  | .createArray mark element dims =>
    .createArray (mark.mapSpan f) (element.mapSpans f) (Expr.listMapSpans dims)
  | .arrayAccess mark array index => .arrayAccess (mark.mapSpan f) array.mapSpans index.mapSpans
  | .cast mark type operand => .cast (mark.mapSpan f) (type.mapSpans f) operand.mapSpans
  | .instanceOf mark operand type => .instanceOf (mark.mapSpan f) operand.mapSpans (type.mapSpans f)
  | .binary mark op lhs rhs => .binary (mark.mapSpan f) op lhs.mapSpans rhs.mapSpans
  | .unary mark op operand => .unary (mark.mapSpan f) op operand.mapSpans
  | .incDec mark op operand => .incDec (mark.mapSpan f) op operand.mapSpans
  | .assign mark target value => .assign (mark.mapSpan f) target.mapSpans value.mapSpans
termination_by structural e => e

/-- The same expressions with other spans. -/
def Expr.listMapSpans : List (Expr Mark) → List (Expr Mark)
  | [] => []
  | e :: es => e.mapSpans :: Expr.listMapSpans es
termination_by structural es => es

end

mutual

/-- The same statement with other spans. -/
def Stmt.mapSpans : Stmt Mark → Stmt Mark
  | .block mark stmts => .block (mark.mapSpan f) (Stmt.listMapSpans stmts)
  | .localVar mark type name initializer =>
    .localVar (mark.mapSpan f) (type.mapSpans f) name (initializer.map (Expr.mapSpans f))
  | .expression mark value => .expression (mark.mapSpan f) (value.mapSpans f)
  | .branch mark condition thenBranch elseBranch =>
    .branch (mark.mapSpan f) (condition.mapSpans f) thenBranch.mapSpans
      (Stmt.optionMapSpans elseBranch)
  | .whileLoop mark condition body =>
    .whileLoop (mark.mapSpan f) (condition.mapSpans f) body.mapSpans
  | .forLoop mark init condition update body =>
    .forLoop (mark.mapSpan f) (Stmt.optionMapSpans init) (condition.map (Expr.mapSpans f))
      (update.map (Expr.mapSpans f)) body.mapSpans
  | .returnValue mark value => .returnValue (mark.mapSpan f) (value.map (Expr.mapSpans f))
  | .throwValue mark value => .throwValue (mark.mapSpan f) (value.mapSpans f)
  | .breakLoop mark => .breakLoop (mark.mapSpan f)
  | .empty mark => .empty (mark.mapSpan f)
  | .constructorCall mark call args =>
    .constructorCall (mark.mapSpan f) call (Expr.listMapSpans f args)
termination_by structural s => s

/-- The same statements with other spans. -/
def Stmt.listMapSpans : List (Stmt Mark) → List (Stmt Mark)
  | [] => []
  | s :: ss => s.mapSpans :: Stmt.listMapSpans ss
termination_by structural ss => ss

/-- The same statement with other spans, if there is one. -/
def Stmt.optionMapSpans : Option (Stmt Mark) → Option (Stmt Mark)
  | none => none
  | some s => some s.mapSpans
termination_by structural s => s

end

/-! ## §1 Lists and roots -/

theorem Expr.listMapSpans_eq (es : List (Expr Mark)) :
    Expr.listMapSpans f es = es.map (Expr.mapSpans f) := by
  induction es with
  | nil => rfl
  | cons e es ih => rw [Expr.listMapSpans, ih, List.map_cons]

theorem Stmt.listMapSpans_eq (ss : List (Stmt Mark)) :
    Stmt.listMapSpans f ss = ss.map (Stmt.mapSpans f) := by
  induction ss with
  | nil => rfl
  | cons s ss ih => rw [Stmt.listMapSpans, ih, List.map_cons]

theorem Expr.note_mapSpans (e : Expr Mark) : (e.mapSpans f).note = e.note.mapSpan f := by
  cases e <;> rfl

theorem Expr.range_mapSpans (e : Expr Mark) : (e.mapSpans f).range = f e.range := by
  unfold Expr.range
  rw [e.note_mapSpans f]
  rfl

theorem Stmt.range_mapSpans (s : Stmt Mark) : (s.mapSpans f).range = f s.range := by
  cases s <;> rfl

/-! ## §2 Spans that stay -/

theorem Violation.mapSpan_id (v : Violation) : v.mapSpan id = v := by
  unfold mapSpan Location.mapSpan
  rw [Option.map_id_apply]

theorem mapSpan_id_mark (m : Mark) : m.mapSpan id = m := rfl

theorem TypeRef.mapSpan_id (r : TypeRef) : r.mapSpan id = r := rfl

theorem TypeSyntax.mapSpans_id (type : TypeSyntax) : type.mapSpans id = type := by
  induction type with
  | array element ih => exact congrArg _ ih
  | _ => rfl

theorem Param.mapSpans_id (p : Param) : p.mapSpans id = p := by
  unfold mapSpans
  rw [p.type.mapSpans_id]
  rfl

theorem Param.map_mapSpans_id (params : List Param) : params.map (Param.mapSpans id) = params := by
  rw [funext Param.mapSpans_id]
  exact List.map_id params

mutual

theorem Expr.mapSpans_id (e : Expr Mark) : e.mapSpans id = e := by
  match e with
  | .literal .. | .named .. | .this _ => rfl
  | .fieldAccess mark receiver name =>
    rw [Expr.mapSpans, receiver.mapSpans_id, mapSpan_id_mark]
  | .call mark name args => rw [Expr.mapSpans, Expr.listMapSpans_id args, mapSpan_id_mark]
  | .callOn mark receiver name args =>
    rw [Expr.mapSpans, receiver.mapSpans_id, Expr.listMapSpans_id args, mapSpan_id_mark]
  | .create mark type args =>
    rw [Expr.mapSpans, type.mapSpan_id, Expr.listMapSpans_id args, mapSpan_id_mark]
  | .createArray mark element dims =>
    rw [Expr.mapSpans, element.mapSpans_id, Expr.listMapSpans_id dims, mapSpan_id_mark]
  | .arrayAccess mark array index =>
    rw [Expr.mapSpans, array.mapSpans_id, index.mapSpans_id, mapSpan_id_mark]
  | .cast mark type operand =>
    rw [Expr.mapSpans, type.mapSpans_id, operand.mapSpans_id, mapSpan_id_mark]
  | .instanceOf mark operand type =>
    rw [Expr.mapSpans, operand.mapSpans_id, type.mapSpans_id, mapSpan_id_mark]
  | .binary mark op lhs rhs =>
    rw [Expr.mapSpans, lhs.mapSpans_id, rhs.mapSpans_id, mapSpan_id_mark]
  | .unary mark op operand => rw [Expr.mapSpans, operand.mapSpans_id, mapSpan_id_mark]
  | .incDec mark op operand => rw [Expr.mapSpans, operand.mapSpans_id, mapSpan_id_mark]
  | .assign mark target value =>
    rw [Expr.mapSpans, target.mapSpans_id, value.mapSpans_id, mapSpan_id_mark]
termination_by structural e

theorem Expr.listMapSpans_id (es : List (Expr Mark)) : Expr.listMapSpans id es = es := by
  match es with
  | [] => rfl
  | e :: es => rw [Expr.listMapSpans, e.mapSpans_id, Expr.listMapSpans_id es]
termination_by structural es

end

theorem Expr.map_mapSpans_id (e : Option (Expr Mark)) : e.map (Expr.mapSpans id) = e := by
  rw [funext Expr.mapSpans_id]
  exact Option.map_id_apply

mutual

theorem Stmt.mapSpans_id (s : Stmt Mark) : s.mapSpans id = s := by
  match s with
  | .block mark stmts => rw [Stmt.mapSpans, Stmt.listMapSpans_id stmts, mapSpan_id_mark]
  | .localVar mark type name initializer =>
    rw [Stmt.mapSpans, type.mapSpans_id, Expr.map_mapSpans_id initializer, mapSpan_id_mark]
  | .expression mark value => rw [Stmt.mapSpans, value.mapSpans_id, mapSpan_id_mark]
  | .branch mark condition thenBranch elseBranch =>
    rw [Stmt.mapSpans, condition.mapSpans_id, thenBranch.mapSpans_id,
      Stmt.optionMapSpans_id elseBranch, mapSpan_id_mark]
  | .whileLoop mark condition body =>
    rw [Stmt.mapSpans, condition.mapSpans_id, body.mapSpans_id, mapSpan_id_mark]
  | .forLoop mark init condition update body =>
    rw [Stmt.mapSpans, Stmt.optionMapSpans_id init, Expr.map_mapSpans_id condition,
      Expr.map_mapSpans_id update, body.mapSpans_id, mapSpan_id_mark]
  | .returnValue mark value => rw [Stmt.mapSpans, Expr.map_mapSpans_id value, mapSpan_id_mark]
  | .throwValue mark value => rw [Stmt.mapSpans, value.mapSpans_id, mapSpan_id_mark]
  | .breakLoop _ | .empty _ => rfl
  | .constructorCall mark call args =>
    rw [Stmt.mapSpans, Expr.listMapSpans_id args, mapSpan_id_mark]
termination_by structural s

theorem Stmt.listMapSpans_id (ss : List (Stmt Mark)) : Stmt.listMapSpans id ss = ss := by
  match ss with
  | [] => rfl
  | s :: ss => rw [Stmt.listMapSpans, s.mapSpans_id, Stmt.listMapSpans_id ss]
termination_by structural ss

theorem Stmt.optionMapSpans_id (s : Option (Stmt Mark)) : Stmt.optionMapSpans id s = s := by
  match s with
  | none => rfl
  | some s => rw [Stmt.optionMapSpans, s.mapSpans_id]
termination_by structural s

end

theorem Stmt.map_mapSpans_id (s : Option (Stmt Mark)) : s.map (Stmt.mapSpans id) = s := by
  rw [funext Stmt.mapSpans_id]
  exact Option.map_id_apply

end JoosStatics
