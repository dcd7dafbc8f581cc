/-
JoosStatics.Proofs.Walks.Expressions — the static type of an expression, by
position.

`inferExprAt`, `inferTargetAt` and `inferReceiverAt` are the walks of
`inferExpr`, `inferTarget` and `BodyContext.inferReceiver` over the arena. A
node that is looked at for its place only, or handed on to another of the
three walks, is not visited by that.

`follows_inferExpr_inferTarget` — on a position that holds a tree the walks do
what the checks of the tree do, and visit each node of the tree at most once.
-/
import JoosStatics.Bodies.Expressions
import JoosStatics.Proofs.Walks.Basic

namespace JoosStatics

/-! ## §1 The walks -/

/-- Walks of the checker. -/
abbrev CheckWalk := Walking CheckState

/-- An expression to the left of a selection, given how to check it as a
value. -/
def inferReceiverAt (a : BodyArena) (ctx : BodyContext) (scope : Scope) (id : ExprId)
    (value : CheckWalk Ty) : CheckWalk Receiver := do
  let node ← Walking.reading (.lookExpr a id)
  match node.form with
  | .named path => do
    let _ ← Walking.reading (.visitExpr a id)
    .step (ctx.inferReceiverName scope ⟨id, node.range⟩ path)
  | _ => do return .value (← value)

/-- An array access, given how to check an operand. -/
def inferArrayAccessAt (a : BodyArena) (ctx : BodyContext) (mark : Mark)
    (infer : ExprId → CheckWalk Ty) (array index : ExprId) : CheckWalk Ty := do
  let arrayType ← infer array
  let indexType ← infer index
  let indexNode ← Walking.reading (.lookExpr a index)
  .step (do
    let element ← CheckM.rule (ctx.elementType arrayType indexType mark.range indexNode.range)
    CheckM.recordType mark element)

/-- The dimensions of a new array, given how to check an operand. -/
def inferDimsAt (a : BodyArena) (ctx : BodyContext) (infer : ExprId → CheckWalk Ty) :
    List ExprId → CheckWalk Unit
  | [] => return ()
  | id :: ids => do
    let type ← infer id
    let node ← Walking.reading (.lookExpr a id)
    let _ ← Walking.step (CheckM.rule (ctx.requireNumeric type node.range))
    inferDimsAt a ctx infer ids

mutual

/-- The type of the expression at a position, at most `depth` levels deep. -/
def inferExprAt (a : BodyArena) (ctx : BodyContext) (scope : Scope) :
    (depth : Nat) → ExprId → CheckWalk Ty
  | 0, _ => .reading .tooDeep
  | depth + 1, id => do
    let node ← Walking.reading (.visitExpr a id)
    let mark : Mark := ⟨id, node.range⟩
    match node.form with
    | .literal value => .step (CheckM.recordType mark (ctx.literalType value))
    | .named path =>
      .step (do
        let (type, _) ← ctx.inferName scope mark path
        CheckM.recordType mark type)
    | .this =>
      .step (do
        CheckM.rule (ctx.requireThis mark.range)
        CheckM.recordType mark (.declared ctx.classId))
    | .fieldAccess receiver name => do
      let left ← inferReceiverAt a ctx scope receiver (inferExprAt a ctx scope depth receiver)
      .step (do
        let (type, _) ← ctx.inferAccess mark left name
        CheckM.recordType mark type)
    | .methodCall none name args => do
      let argTypes ← args.mapM (inferExprAt a ctx scope depth)
      .step (do
        let type ← ctx.inferCall mark ctx.classId .unqualified name argTypes
        CheckM.recordType mark type)
    | .methodCall (some receiver) name args => do
      let left ← inferReceiverAt a ctx scope receiver (inferExprAt a ctx scope depth receiver)
      let (id, kind) ← Walking.step (CheckM.rule (ctx.callee left mark.range))
      let argTypes ← args.mapM (inferExprAt a ctx scope depth)
      .step (do
        let type ← ctx.inferCall mark id kind name argTypes
        CheckM.recordType mark type)
    | .create type args => do
      let id ← Walking.step (ctx.createdClass mark type)
      let argTypes ← args.mapM (inferExprAt a ctx scope depth)
      .step (do
        let type ← ctx.inferCreation mark id argTypes
        CheckM.recordType mark type)
    | .createArray element dims => do
      let base ← Walking.step (ctx.resolveType element)
      inferDimsAt a ctx (inferExprAt a ctx scope depth) dims
      .step (CheckM.recordType mark (Ty.arrayOf dims.length base))
    | .arrayAccess array index =>
      inferArrayAccessAt a ctx mark (inferExprAt a ctx scope depth) array index
    | .cast type operand => do
      let target ← Walking.step (ctx.resolveType type)
      let found ← inferExprAt a ctx scope depth operand
      .step (do
        CheckM.rule (ctx.checkCast found target mark.range)
        CheckM.recordType mark target)
    | .instanceOf operand type => do
      let found ← inferExprAt a ctx scope depth operand
      .step (do
        let target ← ctx.resolveType type
        CheckM.rule (ctx.checkInstanceOf found target mark.range)
        CheckM.recordType mark .boolean)
    | .binary op lhs rhs => do
      let lhsType ← inferExprAt a ctx scope depth lhs
      let rhsType ← inferExprAt a ctx scope depth rhs
      .step (do
        let type ← CheckM.rule (ctx.binaryType op lhsType rhsType mark.range)
        CheckM.recordType mark type)
    | .unary op operand => do
      let found ← inferExprAt a ctx scope depth operand
      .step (do
        let type ← CheckM.rule (ctx.unaryType op found mark.range)
        CheckM.recordType mark type)
    | .incDec _ operand => do
      let found ← inferTargetAt a ctx scope depth operand
      .step (do
        CheckM.rule (ctx.checkIncDec found mark.range)
        CheckM.recordType mark found)
    | .assign target value => do
      let expected ← inferTargetAt a ctx scope depth target
      let found ← inferExprAt a ctx scope depth value
      let valueNode ← Walking.reading (.lookExpr a value)
      .step (do
        CheckM.rule (ctx.requireAssignable found expected valueNode.range)
        CheckM.recordType mark expected)
termination_by structural depth => depth

/-- The type of the expression at a position that is assigned. -/
def inferTargetAt (a : BodyArena) (ctx : BodyContext) (scope : Scope) :
    (depth : Nat) → ExprId → CheckWalk Ty
  | 0, _ => .reading .tooDeep
  | depth + 1, id => do
    let node ← Walking.reading (.visitExpr a id)
    let mark : Mark := ⟨id, node.range⟩
    match node.form with
    | .named path =>
      .step (do
        let (type, kind) ← ctx.inferAssignedName scope mark path
        CheckM.rule (ctx.requireWritable kind mark.range)
        CheckM.recordType mark type)
    | .fieldAccess receiver name => do
      let left ← inferReceiverAt a ctx scope receiver (inferExprAt a ctx scope depth receiver)
      .step (do
        let (type, kind) ← ctx.inferAccess mark left name
        CheckM.rule (ctx.requireWritable kind mark.range)
        CheckM.recordType mark type)
    | .arrayAccess array index =>
      inferArrayAccessAt a ctx mark (inferExprAt a ctx scope depth) array index
    | _ => .step (CheckM.rule (ctx.broken .notLvalue node.range))
termination_by structural depth => depth

end

/-! ## §2 The walks follow the checks -/

section Follows

variable {a : BodyArena} {ctx : BodyContext} {scope : Scope}

/-- The place of a tree is that of the node at its position. -/
theorem exists_node {depth : Nat} {id : ExprId} {e : Expr Mark}
    (h : a.readExpr? depth id = some e) : ∃ node, a.exprs[id]? = some node ∧ e.range = node.range := by
  cases depth with
  | zero => cases h
  | succ depth =>
    obtain ⟨node, hnode, hreads⟩ := BodyArena.readExpr?_succ.mp h
    exact ⟨node, hnode, congrArg Mark.range hreads.note⟩

theorem follows_inferReceiver {depth : Nat} {id : ExprId} {e : Expr Mark}
    (h : a.readExpr? depth id = some e) {value : CheckWalk Ty}
    (hvalue : value.Follows (inferExpr ctx scope e) e.nodes) :
    (inferReceiverAt a ctx scope id value).Follows
      (ctx.inferReceiver scope e (inferExpr ctx scope e)) e.nodes := by
  cases depth with
  | zero => cases h
  | succ depth =>
    obtain ⟨⟨form, range⟩, hnode, hreads⟩ := BodyArena.readExpr?_succ.mp h
    refine .looking (.lookExpr hnode) ?_
    cases hreads with
    | named path => exact .visiting (.visitExpr hnode) (.step _)
    | _ => exact .bind_last hvalue (fun type => .pure (Receiver.value type))

theorem follows_inferExprs {infer : ExprId → CheckWalk Ty} {ids : List ExprId}
    {es : List (Expr Mark)}
    (h : List.Forall₂ (fun id e => (infer id).Follows (inferExpr ctx scope e) e.nodes) ids es) :
    (ids.mapM infer : CheckWalk _).Follows (inferExprs ctx scope es) (es.flatMap Expr.nodes) := by
  induction h with
  | nil => exact .pure []
  | cons hid _ ih =>
    rw [List.mapM_cons]
    exact .bind hid (fun type => .bind_last ih (fun types => .pure (type :: types)))

theorem follows_inferDims {infer : ExprId → CheckWalk Ty} {depth : Nat} {ids : List ExprId}
    {es : List (Expr Mark)}
    (h : List.Forall₂ (fun id e => a.readExpr? depth id = some e) ids es)
    (hinfer : ∀ {id e}, a.readExpr? depth id = some e →
      (infer id).Follows (inferExpr ctx scope e) e.nodes) :
    (inferDimsAt a ctx infer ids).Follows (inferDims ctx scope es) (es.flatMap Expr.nodes) := by
  induction h with
  | nil => exact .pure ()
  | cons hread _ ih =>
    obtain ⟨node, hnode, hrange⟩ := exists_node hread
    refine .operand (hinfer hread) (fun type => .looking (.lookExpr hnode) ?_)
    rw [← hrange]
    exact .stepping (fun _ => ih)

theorem follows_inferArrayAccess {infer : ExprId → CheckWalk Ty} {depth : Nat} {mark : Mark}
    {array index : ExprId} {left right : Expr Mark}
    (hread : a.readExpr? depth index = some right)
    (hleft : (infer array).Follows (inferExpr ctx scope left) left.nodes)
    (hright : (infer index).Follows (inferExpr ctx scope right) right.nodes) :
    (inferArrayAccessAt a ctx mark infer array index).Follows
      (ctx.inferArrayAccess mark right.range (inferExpr ctx scope left) (inferExpr ctx scope right))
      ([left, right].flatMap Expr.nodes) := by
  obtain ⟨node, hnode, hrange⟩ := exists_node hread
  refine .operand hleft (fun _ => .operand hright (fun _ => .looking (.lookExpr hnode) ?_))
  rw [hrange]
  exact .step _

/-- On a position that holds a tree, the walks do what the checks of the tree do
and stay inside it. -/
theorem follows_inferExpr_inferTarget {depth : Nat} {id : ExprId} {e : Expr Mark}
    (h : a.readExpr? depth id = some e) :
    (inferExprAt a ctx scope depth id).Follows (inferExpr ctx scope e) e.nodes ∧
    (inferTargetAt a ctx scope depth id).Follows (inferTarget ctx scope e) e.nodes := by
  induction depth generalizing id e with
  | zero => cases h
  | succ depth ih =>
    have hinfer {id : ExprId} {e : Expr Mark} (h : a.readExpr? depth id = some e) :
        (inferExprAt a ctx scope depth id).Follows (inferExpr ctx scope e) e.nodes := (ih h).1
    have hinfers {ids : List ExprId} {es : List (Expr Mark)}
        (h : List.Forall₂ (fun id e => a.readExpr? depth id = some e) ids es) :
        (ids.mapM (inferExprAt a ctx scope depth) : CheckWalk _).Follows (inferExprs ctx scope es)
          (es.flatMap Expr.nodes) := follows_inferExprs (h.imp (fun _ _ => hinfer))
    have hreceiver {id : ExprId} {e : Expr Mark} (h : a.readExpr? depth id = some e) :
        (inferReceiverAt a ctx scope id (inferExprAt a ctx scope depth id)).Follows
          (ctx.inferReceiver scope e (inferExpr ctx scope e)) e.nodes :=
      follows_inferReceiver h (hinfer h)
    obtain ⟨⟨form, range⟩, hnode, hreads⟩ := BodyArena.readExpr?_succ.mp h
    have hnodes : e.nodes = .expr id :: e.children.flatMap Expr.nodes := by
      rw [Expr.nodes_eq, hreads.note]
    rw [hnodes]
    refine ⟨.visiting (.visitExpr hnode) ?_, .visiting (.visitExpr hnode) ?_⟩
    · cases hreads with
      | literal value => exact .step _
      | named path => exact .step _
      | this => exact .step _
      | fieldAccess hleft name => exact .operand (hreceiver hleft) (fun _ => .step _)
      | call name hargs => exact .bind_last (hinfers hargs) (fun _ => .step _)
      | callOn hleft name hargs =>
        exact .operand (hreceiver hleft) (fun _ => .stepping (fun _ =>
          .bind_last (hinfers hargs) (fun _ => .step _)))
      | create type hargs =>
        exact .stepping (fun _ => .bind_last (hinfers hargs) (fun _ => .step _))
      | createArray element hdims =>
        refine .stepping (fun _ => .bind_last (follows_inferDims hdims hinfer) (fun _ => ?_))
        rw [hdims.length_eq]
        exact .step _
      | arrayAccess harray hindex =>
        exact follows_inferArrayAccess hindex (hinfer harray) (hinfer hindex)
      | cast type hoperand => exact .stepping (fun _ => .operand (hinfer hoperand) (fun _ => .step _))
      | instanceOf hoperand type => exact .operand (hinfer hoperand) (fun _ => .step _)
      | binary op hlhs hrhs =>
        exact .operand (hinfer hlhs) (fun _ => .operand (hinfer hrhs) (fun _ => .step _))
      | unary op hoperand => exact .operand (hinfer hoperand) (fun _ => .step _)
      | incDec op hoperand => exact .operand (ih hoperand).2 (fun _ => .step _)
      | assign htarget hvalue =>
        obtain ⟨node, hnode, hrange⟩ := exists_node hvalue
        refine .operand (ih htarget).2 (fun _ => .operand (hinfer hvalue) (fun _ => ?_))
        refine .looking (.lookExpr hnode) ?_
        rw [← hrange]
        exact .step _
    · cases hreads with
      | named path => exact .step _
      | fieldAccess hleft name => exact .operand (hreceiver hleft) (fun _ => .step _)
      | arrayAccess harray hindex =>
        exact follows_inferArrayAccess hindex (hinfer harray) (hinfer hindex)
      | _ => exact (Walking.Follows.step _).within List.nil_subperm

theorem follows_inferExpr {id : ExprId} {e : Expr Mark} (h : a.expr? id = some e) :
    (inferExprAt a ctx scope a.exprs.size id).Follows (inferExpr ctx scope e) e.nodes :=
  (follows_inferExpr_inferTarget h).1

end Follows

end JoosStatics
