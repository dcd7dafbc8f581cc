/-
JoosStatics.Proofs.Walks.Flow — constant values and completions, by position.

`foldAt` is the walk of `Expr.fold?` over the arena and `completionAt` that of
`Stmt.completion`; a statement that cannot be reached is named by its mark.
Both agree with the computations on trees (`yields_fold?`,
`follows_completion`).
-/
import JoosStatics.Flow.Completion
import JoosStatics.Proofs.Walks.Basic

namespace JoosStatics

/-! ## §1 Constant values -/

/-- The constant value of the expression at a position, at most `depth` levels
deep. -/
def foldAt (a : BodyArena) : (depth : Nat) → ExprId → Walk (Option Constant)
  | 0, _ => .tooDeep
  | depth + 1, id => do
    let node ← Walk.visitExpr a id
    match node.form with
    | .literal value => return Constant.ofLiteral? value
    | .unary op operand => do
      match ← foldAt a depth operand with
      | none => return none
      | some value => return Constant.unary? op value
    | .binary op lhs rhs => do
      match ← foldAt a depth lhs with
      | none => return none
      | some left =>
        match ← foldAt a depth rhs with
        | none => return none
        | some right => return Constant.binary? op left right
    | _ => return none
termination_by structural depth => depth

theorem yields_fold? {a : BodyArena} {depth : Nat} {id : ExprId} {e : Expr Mark}
    (h : a.readExpr? depth id = some e) : (foldAt a depth id).Yields e.fold? e.nodes := by
  induction depth generalizing id e with
  | zero => cases h
  | succ depth ih =>
    obtain ⟨⟨form, range⟩, hnode, hreads⟩ := BodyArena.readExpr?_succ.mp h
    have hnodes : e.nodes = [.expr id] ++ e.children.flatMap Expr.nodes := by
      rw [Expr.nodes_eq, hreads.note, List.singleton_append]
    rw [hnodes]
    refine .bind (.visitExpr hnode) ?_
    cases hreads with
    | literal value => exact .pure _
    | unary op hoperand =>
      rename_i e
      refine .bind (ih hoperand) ?_
      show Walk.Yields _ (e.fold? >>= Constant.unary? op) _
      cases e.fold? <;> exact .pure _
    | binary op hlhs hrhs =>
      rename_i left right
      refine .bind (ih hlhs) ?_
      show Walk.Yields _
        (left.fold? >>= fun x => right.fold? >>= fun y => Constant.binary? op x y) _
      cases left.fold? with
      | none => exact (Walk.Yields.pure _).within List.nil_subperm
      | some x =>
        refine .bind (ih hrhs) ?_
        cases right.fold? <;> exact .pure _
    | _ => exact (Walk.Yields.pure _).within List.nil_subperm

/-! ## §2 Completions -/

/-- A walk that may come upon a statement that cannot be reached. -/
abbrev ReachWalk := ExceptT Mark Walk

/-- The statement at a position cannot be reached. -/
def unreachedAt {β : Type} (a : BodyArena) (id : StmtId) : ReachWalk β := do
  let node ← ExceptT.lift (Walk.lookStmt a id)
  throw ⟨id, node.range⟩

/-- The completion of a loop around the statement at a position, given how to
compute that of the statement. -/
def loopCompletionAt (a : BodyArena) (condition : Option Constant) (body : StmtId)
    (complete : StmtId → ReachWalk Completion) : ReachWalk Completion :=
  match condition with
  | some (.bool false) => unreachedAt a body
  | some (.bool true) => do
    let inner ← complete body
    return ⟨inner.breaks, false⟩
  | _ => do
    let _ ← complete body
    return .ordinary

/-- The completion of a sequence, given how to compute that of a statement. -/
def blockCompletionAt (a : BodyArena) (complete : StmtId → ReachWalk Completion)
    (before : Completion) : List StmtId → ReachWalk Completion
  | [] => return before
  | id :: ids =>
    if before.normal then do
      let c ← complete id
      blockCompletionAt a complete ⟨c.normal, before.breaks || c.breaks⟩ ids
    else unreachedAt a id

/-- The completion of a statement that may be missing, given how to compute that
of a statement. -/
def optionalCompletionAt (complete : StmtId → ReachWalk Completion) :
    Option StmtId → ReachWalk Completion
  | none => return .ordinary
  | some id => complete id

/-- The constant value of a loop condition. -/
def loopConditionAt (a : BodyArena) : Option ExprId → Walk (Option Constant)
  | none => return some (.bool true)
  | some condition => foldAt a a.exprs.size condition

/-- How control leaves the statement at a position, at most `depth` statements
deep. -/
def completionAt (a : BodyArena) : (depth : Nat) → StmtId → ReachWalk Completion
  | 0, _ => ExceptT.lift .tooDeep
  | depth + 1, id => do
    let node ← ExceptT.lift (Walk.visitStmt a id)
    match node.form with
    | .block stmts => blockCompletionAt a (completionAt a depth) .ordinary stmts
    | .localVar .. | .expression .. | .empty | .constructorCall .. => return .ordinary
    | .branch _ thenBranch elseBranch => do
      let thenCompletion ← completionAt a depth thenBranch
      let elseCompletion ← optionalCompletionAt (completionAt a depth) elseBranch
      return thenCompletion.join elseCompletion
    | .whileLoop condition body => do
      let value ← ExceptT.lift (foldAt a a.exprs.size condition)
      loopCompletionAt a value body (completionAt a depth)
    | .forLoop init condition _ body => do
      let _ ← optionalCompletionAt (completionAt a depth) init
      let value ← ExceptT.lift (loopConditionAt a condition)
      loopCompletionAt a value body (completionAt a depth)
    | .returnValue _ | .throwValue _ => return .abrupt
    | .breakLoop => return ⟨false, true⟩
termination_by structural depth => depth

namespace ReachWalk

variable {α β : Type}

/-- A walk ends as a computation does, and visits some of the listed nodes, none
more often than it is listed. -/
def Follows (w : ReachWalk α) (x : Reach α) (nodes : List NodeId) : Prop :=
  Walk.Yields w.run (x.mapError Stmt.note) nodes

namespace Follows

variable {w : ReachWalk α} {f : α → ReachWalk β} {x : Reach α} {g : α → Reach β}
  {m n : List NodeId}

theorem pure (b : α) : Follows (Pure.pure b : ReachWalk α) (.ok b) [] := Walk.Yields.pure _

theorem within (hw : Follows w x m) (h : m.Subperm n) : Follows w x n := Walk.Yields.within hw h

theorem bind (hw : Follows w x m) (hf : ∀ b, Follows (f b) (g b) n) :
    Follows (w >>= f) (x >>= g) (m ++ n) := by
  show Walk.Yields (w.run >>= ExceptT.bindCont f) _ _
  cases x with
  | error s =>
    have hrest : Walk.Yields (ExceptT.bindCont f (.error s.note)) (.error s.note) [] := .pure _
    exact (Walk.Yields.bind hw hrest).within ((List.Subperm.refl m).append List.nil_subperm)
  | ok b => exact Walk.Yields.bind hw (hf b)

theorem reading {r : Walk α} {b : α} {y : Reach β} (hr : r.Yields b m) (hf : Follows (f b) y n) :
    Follows (ExceptT.lift r >>= f) y (m ++ n) := by
  have hlift : Follows (ExceptT.lift r) (.ok b) m := by
    show Walk.Yields (Except.ok <$> r) (Except.ok b : Except Mark α) m
    rw [map_eq_pure_bind]
    exact hr.bind_last (.pure _)
  exact Walk.Yields.bind hlift hf

end Follows

end ReachWalk

section Follows

variable {a : BodyArena}

theorem follows_unreached {β : Type} {id : StmtId} {s : Stmt Mark} (h : a.stmt? id = some s) :
    (unreachedAt a id : ReachWalk β).Follows (.error s) [] := by
  obtain ⟨node, hnode, hreads⟩ := BodyArena.exists_of_stmt? h
  refine .reading (.lookStmt hnode) ?_
  show Walk.Yields _ (Except.error s.note) []
  rw [hreads.note]
  exact .pure _

theorem yields_loopCondition {condition : Option ExprId} {e : Option (Expr Mark)}
    (h : Option.Rel (fun id e => a.expr? id = some e) condition e) :
    (loopConditionAt a condition).Yields (loopCondition e) (e.toList.flatMap Expr.nodes) := by
  cases h with
  | none => exact .pure _
  | some h => exact (yields_fold? h).within (List.Perm.subperm (by simp))

section Parts

variable {holds : StmtId → Stmt Mark → Prop} {complete : StmtId → ReachWalk Completion}
  (hholds : ∀ id s, holds id s → a.stmt? id = some s)
  (hcomplete : ∀ id s, holds id s → (complete id).Follows s.completion s.nodes)

include hcomplete

theorem follows_optionalCompletion {id : Option StmtId} {s : Option (Stmt Mark)}
    (h : Option.Rel holds id s) :
    (optionalCompletionAt complete id).Follows (optionalCompletion s)
      (s.toList.flatMap Stmt.nodes) := by
  cases h with
  | none => exact .pure _
  | some h => exact (hcomplete _ _ h).within (List.Perm.subperm (by simp))

include hholds

theorem follows_loopCompletion {condition : Option Constant} {body : StmtId} {s : Stmt Mark}
    (h : holds body s) :
    (loopCompletionAt a condition body complete).Follows
      (loopCompletion condition s s.completion) s.nodes := by
  have hbody (f : Completion → Completion) :
      ReachWalk.Follows (do return f (← complete body)) (s.completion.map f) s.nodes := by
    have hmap : s.completion.map f = s.completion >>= fun inner => .ok (f inner) := by
      cases s.completion <;> rfl
    rw [hmap]
    exact List.append_nil s.nodes ▸ (hcomplete _ _ h).bind (fun inner => .pure (f inner))
  match condition with
  | some (.bool false) => exact (follows_unreached (hholds _ _ h)).within List.nil_subperm
  | some (.bool true) => exact hbody _
  | none => exact hbody _
  | some (.int value) => exact hbody _

theorem follows_blockCompletion {ids : List StmtId} {ss : List (Stmt Mark)}
    (h : List.Forall₂ holds ids ss) (before : Completion) :
    (blockCompletionAt a complete before ids).Follows (blockCompletion before ss)
      (ss.flatMap Stmt.nodes) := by
  induction h generalizing before with
  | nil => exact .pure _
  | cons hid _ ih =>
    unfold blockCompletionAt blockCompletion
    split
    · exact .bind (hcomplete _ _ hid) (fun c => ih _)
    · exact (follows_unreached (hholds _ _ hid)).within List.nil_subperm

end Parts

theorem follows_completion {depth : Nat} {id : StmtId} {s : Stmt Mark}
    (h : a.readStmt? depth id = some s) (hdepth : depth ≤ a.stmts.size) :
    (completionAt a depth id).Follows s.completion s.nodes := by
  induction depth generalizing id s with
  | zero => cases h
  | succ depth ih =>
    obtain ⟨⟨form, range⟩, hnode, hreads⟩ := BodyArena.readStmt?_succ.mp h
    have hholds (id : StmtId) (s : Stmt Mark) (h : a.readStmt? depth id = some s) :
        a.stmt? id = some s :=
      (BodyArena.Grows.refl a).readStmt? h (Nat.le_of_succ_le hdepth)
    have hcomplete (id : StmtId) (s : Stmt Mark) (h : a.readStmt? depth id = some s) :
        (completionAt a depth id).Follows s.completion s.nodes := ih h (Nat.le_of_succ_le hdepth)
    have hnodes : s.nodes = [.stmt id] ++ (s.exprChildren.flatMap Expr.nodes ++
        s.stmtChildren.flatMap Stmt.nodes) := by
      rw [Stmt.nodes_eq, hreads.note, List.singleton_append]
    rw [hnodes]
    refine .reading (.visitStmt hnode) ?_
    cases hreads with
    | block hstmts => exact follows_blockCompletion hholds hcomplete hstmts .ordinary
    | branch hcondition hthen helse =>
      refine .within (.bind (hcomplete _ _ hthen) (fun _ =>
        .bind (follows_optionalCompletion hcomplete helse) (fun _ => .pure _)))
        (List.Sublist.subperm ?_)
      simp [Stmt.exprChildren, Stmt.stmtChildren]
    | whileLoop hcondition hbody =>
      refine .within (.reading (yields_fold? hcondition)
        (follows_loopCompletion hholds hcomplete hbody)) (List.Perm.subperm ?_)
      simp [Stmt.exprChildren, Stmt.stmtChildren]
    | forLoop hinit hcondition hupdate hbody =>
      refine .within (.bind (follows_optionalCompletion hcomplete hinit) (fun _ =>
        .reading (yields_loopCondition hcondition)
          (follows_loopCompletion hholds hcomplete hbody))) ?_
      -- The update is not part of the walk, and the condition stands behind the initializer.
      refine List.subperm_iff_count.mpr (fun n => ?_)
      simp only [Stmt.exprChildren, Stmt.stmtChildren, List.flatMap_append, List.flatMap_cons,
        List.flatMap_nil, List.append_nil, List.count_append]
      omega
    | _ => exact (ReachWalk.Follows.pure _).within List.nil_subperm

end Follows

end JoosStatics
