/-
JoosStatics.Proofs.Walks.Statements — the rules on statements and bodies, by
position.

`checkStmtAt` is the walk of `checkStmt`, `checkConstructorBodyAt` that of
`checkConstructorBody`. Both follow the checks of the tree
(`follows_checkStmt`, `follows_checkConstructorBody`).
-/
import JoosStatics.Bodies.Members
import JoosStatics.Proofs.Walks.Expressions

namespace JoosStatics

/-! ## §1 The walks -/

/-- A part that may be missing. -/
def Walking.optional {σ β : Type} (walk : β → Walking σ Unit) : Option β → Walking σ Unit
  | none => return ()
  | some item => walk item

/-- The value at a position is used where a type is expected. -/
def requireValueAt (a : BodyArena) (ctx : BodyContext) (scope : Scope) (expected : Ty)
    (id : ExprId) : CheckWalk Unit := do
  let found ← inferExprAt a ctx scope a.exprs.size id
  let node ← Walking.reading (.lookExpr a id)
  .step (CheckM.rule (ctx.requireAssignable found expected node.range))

/-- A return statement. -/
def checkReturnAt (a : BodyArena) (ctx : BodyContext) (scope : Scope) (range : Span) :
    Option ExprId → CheckWalk Unit
  | none => .step (checkReturn ctx scope range none)
  | some value => do
    let found ← inferExprAt a ctx scope a.exprs.size value
    let node ← Walking.reading (.lookExpr a value)
    .step (
      if ctx.expectedReturn = .void then
        CheckM.rule (ctx.broken (.typeMismatch "void" (ctx.table.display found)) range)
      else CheckM.rule (ctx.requireAssignable found ctx.expectedReturn node.range))

/-- A statement that may be missing, given how to check one. -/
def checkStmtOptionAt (check : Scope → StmtId → CheckWalk Scope) (scope : Scope) :
    Option StmtId → CheckWalk Scope
  | none => return scope
  | some id => check scope id

/-- The rules on the statement at a position, at most `depth` statements deep. -/
def checkStmtAt (a : BodyArena) (ctx : BodyContext) :
    (depth : Nat) → Scope → StmtId → CheckWalk Scope
  | 0, _, _ => .reading .tooDeep
  | depth + 1, scope, id => do
    let node ← Walking.reading (.visitStmt a id)
    match node.form with
    | .block stmts => do
      let _ ← stmts.foldlM (checkStmtAt a ctx depth) scope
      return scope
    | .localVar type name initializer => do
      let declared ← Walking.step (ctx.resolveType type)
      let _ ← Walking.optional (requireValueAt a ctx scope declared) initializer
      .step (ctx.declare scope { name, type := declared, span := node.range, isParam := false })
    | .expression value => do
      let _ ← inferExprAt a ctx scope a.exprs.size value
      return scope
    | .branch condition thenBranch elseBranch => do
      let _ ← requireValueAt a ctx scope .boolean condition
      let _ ← checkStmtAt a ctx depth scope thenBranch
      let _ ← checkStmtOptionAt (checkStmtAt a ctx depth) scope elseBranch
      return scope
    | .whileLoop condition body => do
      let _ ← requireValueAt a ctx scope .boolean condition
      let _ ← checkStmtAt a ctx depth scope body
      return scope
    | .forLoop init condition update body => do
      let inner ← checkStmtOptionAt (checkStmtAt a ctx depth) scope init
      let _ ← Walking.optional (requireValueAt a ctx inner .boolean) condition
      let _ ← Walking.optional (fun id => do let _ ← inferExprAt a ctx inner a.exprs.size id) update
      let _ ← checkStmtAt a ctx depth inner body
      return scope
    | .returnValue value => do
      let _ ← checkReturnAt a ctx scope node.range value
      return scope
    | .throwValue value => do
      let found ← inferExprAt a ctx scope a.exprs.size value
      let _ ← Walking.step (CheckM.rule (checkThrown ctx found node.range))
      return scope
    | .breakLoop => return scope
    | .empty => return scope
    | .constructorCall _ _ =>
      .step (CheckM.rule (ctx.broken .misplacedConstructorInvocation node.range))
termination_by structural depth => depth

/-- The types of the arguments of `this(...)` or `super(...)`. -/
def inferConstructorArgsAt (a : BodyArena) (ctx : BodyContext) (scope : Scope)
    (args : List ExprId) : CheckWalk (List Ty) :=
  args.mapM (inferExprAt a { ctx with thisForbidden := true } scope a.exprs.size)

/-- An explicit or implied `super(...)`. -/
def checkSuperInvocationAt (a : BodyArena) (ctx : BodyContext) (scope : Scope)
    (args : List ExprId) (range : Span) : CheckWalk Unit := do
  let argTypes ← inferConstructorArgsAt a ctx scope args
  .step (
    match (ctx.table.classAt ctx.classId).superclass with
    | none =>
      if args.isEmpty then return ()
      else CheckM.rule (ctx.broken (.noMatchingMethod "super" (ctx.table.displayList argTypes)) range)
    | some superclass => do
      let _ ← CheckM.rule (ctx.invokedConstructor superclass argTypes range))

/-- An explicit `this(...)`. -/
def checkThisInvocationAt (a : BodyArena) (ctx : BodyContext) (scope : Scope)
    (constructor : ConstructorRef) (args : List ExprId) (range : Span) : CheckWalk Unit := do
  let argTypes ← inferConstructorArgsAt a ctx scope args
  .step (do
    let target ← CheckM.rule (ctx.invokedConstructor ctx.classId argTypes range)
    CheckM.recordTarget constructor target)

/-- The statements of a constructor body, which is visited when it is a block. -/
def constructorStmtsAt (a : BodyArena) (body : StmtId) : Walk (List StmtId) := do
  let node ← Walk.lookStmt a body
  match node.form with
  | .block stmts => do
    let _ ← Walk.visitStmt a body
    return stmts
  | _ => return [body]

/-- The explicit constructor invocation that comes first among some statements,
which is visited if there is one. -/
def explicitInvocationAt (a : BodyArena) :
    List StmtId → Walk (Option (ConstructorCallKind × List ExprId × Span))
  | [] => return none
  | first :: _ => do
    let node ← Walk.lookStmt a first
    match node.form with
    | .constructorCall call args => do
      let _ ← Walk.visitStmt a first
      return some (call, args, node.range)
    | _ => return none

/-- The body of a written constructor. -/
def checkConstructorBodyAt (a : BodyArena) (ctx : BodyContext) (scope : Scope)
    (constructor : ConstructorRef) (body : StmtId) : CheckWalk Unit := do
  let node ← Walking.reading (.lookStmt a body)
  let stmts ← Walking.reading (constructorStmtsAt a body)
  match ← Walking.reading (explicitInvocationAt a stmts) with
  | some (.this, args, range) => do
    let _ ← checkThisInvocationAt a ctx scope constructor args range
    let _ ← stmts.tail.foldlM (checkStmtAt a ctx a.stmts.size) scope
  | some (.super, args, range) => do
    let _ ← checkSuperInvocationAt a ctx scope args range
    let _ ← stmts.tail.foldlM (checkStmtAt a ctx a.stmts.size) scope
  | none => do
    let _ ← checkSuperInvocationAt a ctx scope [] node.range
    let _ ← stmts.foldlM (checkStmtAt a ctx a.stmts.size) scope

/-! ## §2 The walks follow the checks -/

section Follows

variable {a : BodyArena} {ctx : BodyContext} {scope : Scope}

theorem follows_requireValue {expected : Ty} {id : ExprId} {e : Expr Mark}
    (h : a.expr? id = some e) :
    (requireValueAt a ctx scope expected id).Follows
      (do
        let found ← inferExpr ctx scope e
        CheckM.rule (ctx.requireAssignable found expected e.range)) e.nodes := by
  obtain ⟨node, hnode, hrange⟩ := exists_node h
  refine .bind_last (follows_inferExpr h) (fun _ => .looking (.lookExpr hnode) ?_)
  rw [hrange]
  exact .step _

theorem follows_conditionOption {id : Option ExprId} {e : Option (Expr Mark)}
    (h : Option.Rel (fun id e => a.expr? id = some e) id e) :
    (Walking.optional (requireValueAt a ctx scope .boolean) id).Follows
      (checkConditionOption ctx scope e) (e.toList.flatMap Expr.nodes) := by
  cases h with
  | none => exact .pure ()
  | some h => exact (follows_requireValue h).of_perm (by simp)

theorem follows_update {id : Option ExprId} {e : Option (Expr Mark)}
    (h : Option.Rel (fun id e => a.expr? id = some e) id e) :
    (Walking.optional (fun id => do let _ ← inferExprAt a ctx scope a.exprs.size id) id).Follows
      (checkUpdate ctx scope e) (e.toList.flatMap Expr.nodes) := by
  cases h with
  | none => exact .pure ()
  | some h => exact .operand (follows_inferExpr h) (fun _ => .pure ())

theorem follows_initializer {expected : Ty} {id : Option ExprId} {e : Option (Expr Mark)}
    (h : Option.Rel (fun id e => a.expr? id = some e) id e) :
    (Walking.optional (requireValueAt a ctx scope expected) id).Follows
      (checkInitializer ctx scope expected e) (e.toList.flatMap Expr.nodes) := by
  cases h with
  | none => exact .pure ()
  | some h => exact (follows_requireValue h).of_perm (by simp)

theorem follows_checkReturn {range : Span} {id : Option ExprId} {e : Option (Expr Mark)}
    (h : Option.Rel (fun id e => a.expr? id = some e) id e) :
    (checkReturnAt a ctx scope range id).Follows (checkReturn ctx scope range e)
      (e.toList.flatMap Expr.nodes) := by
  cases h with
  | none => exact .step _
  | some h =>
    obtain ⟨node, hnode, hrange⟩ := exists_node h
    refine .operand (follows_inferExpr h) (fun _ => .looking (.lookExpr hnode) ?_)
    rw [← hrange]
    exact .step _

section Parts

variable {holds : StmtId → Stmt Mark → Prop} {check : Scope → StmtId → CheckWalk Scope}
  (hcheck : ∀ id s, holds id s → ∀ scope,
    (check scope id).Follows (checkStmt ctx scope s) s.nodes)

include hcheck

theorem follows_stmts {ids : List StmtId} {ss : List (Stmt Mark)} (h : List.Forall₂ holds ids ss)
    (scope : Scope) :
    (ids.foldlM check scope).Follows (checkStmts ctx scope ss) (ss.flatMap Stmt.nodes) := by
  induction h generalizing scope with
  | nil => exact .pure scope
  | cons hid _ ih =>
    rw [List.foldlM_cons]
    exact .bind (hcheck _ _ hid scope) (fun scope => ih scope)

theorem follows_stmtOption {id : Option StmtId} {s : Option (Stmt Mark)}
    (h : Option.Rel holds id s) (scope : Scope) :
    (checkStmtOptionAt check scope id).Follows (checkStmtOption ctx scope s)
      (s.toList.flatMap Stmt.nodes) := by
  cases h with
  | none => exact .pure scope
  | some h => exact (hcheck _ _ h scope).of_perm (by simp)

end Parts

theorem follows_checkStmt {depth : Nat} {id : StmtId} {s : Stmt Mark}
    (h : a.readStmt? depth id = some s) (scope : Scope) :
    (checkStmtAt a ctx depth scope id).Follows (checkStmt ctx scope s) s.nodes := by
  induction depth generalizing id s scope with
  | zero => cases h
  | succ depth ih =>
    have hcheck (id : StmtId) (s : Stmt Mark) (h : a.readStmt? depth id = some s)
        (scope : Scope) :
        (checkStmtAt a ctx depth scope id).Follows (checkStmt ctx scope s) s.nodes := ih h scope
    obtain ⟨⟨form, range⟩, hnode, hreads⟩ := BodyArena.readStmt?_succ.mp h
    have hnodes : s.nodes = .stmt id :: (s.exprChildren.flatMap Expr.nodes ++
        s.stmtChildren.flatMap Stmt.nodes) := by
      rw [Stmt.nodes_eq, hreads.note]
    rw [hnodes]
    refine .visiting (.visitStmt hnode) ?_
    cases hreads with
    | block hstmts => exact .bind_last (follows_stmts hcheck hstmts scope) (fun _ => .pure scope)
    | localVar type name hinit =>
      exact .of_perm (.stepping (fun _ => .bind_last (follows_initializer hinit)
        (fun _ => .step _))) (by simp [Stmt.exprChildren, Stmt.stmtChildren])
    | expression hvalue =>
      exact .of_perm (.bind_last (follows_inferExpr hvalue) (fun _ => .pure scope))
        (by simp [Stmt.exprChildren, Stmt.stmtChildren])
    | branch hcondition hthen helse =>
      exact .of_perm (.bind (follows_requireValue hcondition) (fun _ => .bind (ih hthen scope)
        (fun _ => .bind_last (follows_stmtOption hcheck helse scope) (fun _ => .pure scope))))
        (by simp [Stmt.exprChildren, Stmt.stmtChildren])
    | whileLoop hcondition hbody =>
      exact .of_perm (.bind (follows_requireValue hcondition) (fun _ =>
        .bind_last (ih hbody scope) (fun _ => .pure scope)))
        (by simp [Stmt.exprChildren, Stmt.stmtChildren])
    | forLoop hinit hcondition hupdate hbody =>
      refine .of_perm (.bind (follows_stmtOption hcheck hinit scope) (fun inner =>
        .bind (follows_conditionOption hcondition) (fun _ =>
        .bind (follows_update hupdate) (fun _ =>
        .bind_last (ih hbody inner) (fun _ => .pure scope))))) ?_
      -- The initializer is checked first, but listed behind the two expressions.
      refine List.perm_iff_count.mpr (fun n => ?_)
      simp only [Stmt.exprChildren, Stmt.stmtChildren, List.flatMap_append, List.flatMap_cons,
        List.flatMap_nil, List.append_nil, List.count_append]
      omega
    | returnValue hvalue =>
      exact .of_perm (.bind_last (follows_checkReturn hvalue) (fun _ => .pure scope))
        (by simp [Stmt.exprChildren, Stmt.stmtChildren])
    | throwValue hvalue =>
      exact .of_perm (.bind_last (follows_inferExpr hvalue) (fun _ =>
        .stepping (fun _ => .pure scope))) (by simp [Stmt.exprChildren, Stmt.stmtChildren])
    | breakLoop => exact .pure scope
    | empty => exact .pure scope
    | constructorCall call hargs => exact (Walking.Follows.step _).within List.nil_subperm

theorem follows_constructorArgs {ids : List ExprId} {es : List (Expr Mark)}
    (h : List.Forall₂ (fun id e => a.expr? id = some e) ids es) :
    (inferConstructorArgsAt a ctx scope ids).Follows (inferConstructorArgs ctx scope es)
      (es.flatMap Expr.nodes) :=
  follows_inferExprs (h.imp (fun _ _ => follows_inferExpr))

theorem follows_superInvocation {ids : List ExprId} {es : List (Expr Mark)} {range : Span}
    (h : List.Forall₂ (fun id e => a.expr? id = some e) ids es) :
    (checkSuperInvocationAt a ctx scope ids range).Follows (checkSuperInvocation ctx scope es range)
      (es.flatMap Expr.nodes) := by
  have hempty : ids.isEmpty = es.isEmpty := by cases h <;> rfl
  refine .bind_last (follows_constructorArgs h) (fun _ => ?_)
  rw [hempty]
  exact .step _

theorem follows_thisInvocation {constructor : ConstructorRef} {ids : List ExprId}
    {es : List (Expr Mark)} {range : Span}
    (h : List.Forall₂ (fun id e => a.expr? id = some e) ids es) :
    (checkThisInvocationAt a ctx scope constructor ids range).Follows
      (checkThisInvocation ctx scope constructor es range) (es.flatMap Expr.nodes) :=
  .bind_last (follows_constructorArgs h) (fun _ => .step _)

/-- The statements of a constructor body and the nodes around them. -/
theorem yields_constructorStmts {body : StmtId} {s : Stmt Mark} (h : a.stmt? body = some s) :
    ∃ ids nodes, (constructorStmtsAt a body).Yields ids nodes ∧
      List.Forall₂ (fun id s => a.stmt? id = some s) ids s.statements ∧
      nodes ++ s.statements.flatMap Stmt.nodes = s.nodes := by
  obtain ⟨⟨form, range⟩, hnode, hreads⟩ := BodyArena.exists_of_stmt? h
  have hlook : (Walk.lookStmt a body).Yields ⟨form, range⟩ [] := .lookStmt hnode
  cases hreads with
  | block hstmts =>
    refine ⟨_, [.stmt body], hlook.bind (.bind (.visitStmt hnode) (.pure _)), hstmts, ?_⟩
    rw [Stmt.nodes_eq]
    rfl
  | _ => exact ⟨[body], [], hlook.bind (.pure _), .cons h .nil, by simp [Stmt.statements]⟩

theorem yields_explicitInvocation {ids : List StmtId} {mark : Mark} {call : ConstructorCallKind}
    {args : List (Expr Mark)} {rest : List (Stmt Mark)}
    (h : List.Forall₂ (fun id s => a.stmt? id = some s) ids
      (.constructorCall mark call args :: rest)) :
    ∃ argIds, (explicitInvocationAt a ids).Yields (some (call, argIds, mark.range))
        [.stmt mark.id] ∧ List.Forall₂ (fun id e => a.expr? id = some e) argIds args ∧
      List.Forall₂ (fun id s => a.stmt? id = some s) ids.tail rest := by
  obtain _ | ⟨hfirst, hrest⟩ := h
  obtain ⟨⟨form, range⟩, hnode, hreads⟩ := BodyArena.exists_of_stmt? hfirst
  cases hreads with
  | constructorCall _ hargs =>
    exact ⟨_, (Walk.Yields.lookStmt hnode).bind (.bind (.visitStmt hnode) (.pure _)), hargs, hrest⟩

theorem yields_noInvocation {ids : List StmtId} {ss : List (Stmt Mark)}
    (h : List.Forall₂ (fun id s => a.stmt? id = some s) ids ss)
    (hnone : ∀ mark call args rest, ss ≠ .constructorCall mark call args :: rest) :
    (explicitInvocationAt a ids).Yields none [] := by
  cases h with
  | nil => exact .pure none
  | cons hfirst hrest =>
    obtain ⟨⟨form, range⟩, hnode, hreads⟩ := BodyArena.exists_of_stmt? hfirst
    refine (Walk.Yields.lookStmt hnode).bind ?_
    cases hreads with
    | constructorCall => exact absurd rfl (hnone _ _ _ _)
    | _ => exact .pure none

theorem follows_checkConstructorBody {constructor : ConstructorRef} {body : StmtId} {s : Stmt Mark}
    (h : a.stmt? body = some s) :
    (checkConstructorBodyAt a ctx scope constructor body).Follows
      (checkConstructorBody ctx scope constructor s) s.nodes := by
  have hcheck (id : StmtId) (s : Stmt Mark) (h : a.stmt? id = some s) (scope : Scope) :
      (checkStmtAt a ctx a.stmts.size scope id).Follows (checkStmt ctx scope s) s.nodes :=
    follows_checkStmt h scope
  obtain ⟨node, hnode, hreads⟩ := BodyArena.exists_of_stmt? h
  obtain ⟨ids, nodes, hstmts, hids, hnodes⟩ := yields_constructorStmts h
  have hrange : s.range = node.range := congrArg Mark.range hreads.note
  rw [← hnodes]
  refine .looking (.lookStmt hnode) (.reading hstmts ?_)
  rw [← hrange]
  unfold checkConstructorBody
  split
  · rename_i mark call args rest heq
    rw [heq] at hids ⊢
    obtain ⟨argIds, hcall, hargs, hrest⟩ := yields_explicitInvocation hids
    have hlisted : [.stmt mark.id] ++ (args.flatMap Expr.nodes ++ rest.flatMap Stmt.nodes) =
        (.constructorCall mark call args :: rest).flatMap Stmt.nodes := by
      rw [List.flatMap_cons, Stmt.nodes_eq]
      simp [Stmt.note, Stmt.exprChildren, Stmt.stmtChildren]
    rw [← hlisted]
    refine .reading hcall ?_
    cases call with
    | this =>
      exact .bind (follows_thisInvocation hargs) (fun _ =>
        .bind_last (follows_stmts hcheck hrest scope) (fun _ => .pure ()))
    | super =>
      exact .bind (follows_superInvocation hargs) (fun _ =>
        .bind_last (follows_stmts hcheck hrest scope) (fun _ => .pure ()))
  · rename_i hnone
    refine .looking (yields_noInvocation hids (fun mark call args rest heq => ?_)) ?_
    · exact hnone mark call args rest heq
    · exact .bind (follows_superInvocation .nil) (fun _ =>
        .bind_last (follows_stmts hcheck hids scope) (fun _ => .pure ()))

end Follows

end JoosStatics
