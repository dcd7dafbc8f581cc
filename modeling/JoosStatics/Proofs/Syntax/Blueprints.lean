/-
JoosStatics.Proofs.Syntax.Blueprints — the declaration of a blueprint.

The bodies of a blueprint are trees, and those of its declaration are nodes of
one arena. Nothing is lost on the way: the tree that is read at the position of
a body is the one that was put there (`erase` forgets the positions that it has
got). §2 says what it is to add nodes to an arena and why trees that are there
already do not change; §3 follows the allocation of a tree, one case for each
form; §4 goes on to the members of a declaration.

* `allocate_stores` — an expression or statement can be read where it was put,
  and its nodes are the new ones.
* `toDecl_lossless` — the declaration of a blueprint is well-formed, has the
  bodies of the blueprint, and its arena holds their nodes only.
-/
import JoosStatics.Proofs.Syntax.Reaching
import JoosStatics.Syntax.Blueprint

namespace JoosStatics

/-! ## §1 Trees without notes -/

section Erase

variable {α : Type}

mutual

/-- The expression without its notes. -/
def Expr.erase : Expr α → Expr Unit
  | .literal _ value => .literal () value
  | .named _ path => .named () path
  | .this _ => .this ()
  | .fieldAccess _ receiver name => .fieldAccess () receiver.erase name
  | .call _ name args => .call () name (Expr.eraseAll args)
  | .callOn _ receiver name args => .callOn () receiver.erase name (Expr.eraseAll args)
  | .create _ type args => .create () type (Expr.eraseAll args)
  | .createArray _ element dims => .createArray () element (Expr.eraseAll dims)
  | .arrayAccess _ array index => .arrayAccess () array.erase index.erase
  | .cast _ type operand => .cast () type operand.erase
  | .instanceOf _ operand type => .instanceOf () operand.erase type
  | .binary _ op lhs rhs => .binary () op lhs.erase rhs.erase
  | .unary _ op operand => .unary () op operand.erase
  | .incDec _ op operand => .incDec () op operand.erase
  | .assign _ target value => .assign () target.erase value.erase
termination_by structural e => e

/-- Expressions without their notes. -/
def Expr.eraseAll : List (Expr α) → List (Expr Unit)
  | [] => []
  | e :: es => e.erase :: Expr.eraseAll es
termination_by structural es => es

end

mutual

/-- The statement without its notes. -/
def Stmt.erase : Stmt α → Stmt Unit
  | .block _ stmts => .block () (Stmt.eraseAll stmts)
  | .localVar _ type name initializer => .localVar () type name (initializer.map Expr.erase)
  | .expression _ value => .expression () value.erase
  | .branch _ condition thenBranch elseBranch =>
    .branch () condition.erase thenBranch.erase (Stmt.eraseOption elseBranch)
  | .whileLoop _ condition body => .whileLoop () condition.erase body.erase
  | .forLoop _ init condition update body =>
    .forLoop () (Stmt.eraseOption init) (condition.map Expr.erase) (update.map Expr.erase)
      body.erase
  | .returnValue _ value => .returnValue () (value.map Expr.erase)
  | .throwValue _ value => .throwValue () value.erase
  | .breakLoop _ => .breakLoop ()
  | .empty _ => .empty ()
  | .constructorCall _ call args => .constructorCall () call (Expr.eraseAll args)
termination_by structural s => s

/-- Statements without their notes. -/
def Stmt.eraseAll : List (Stmt α) → List (Stmt Unit)
  | [] => []
  | s :: ss => s.erase :: Stmt.eraseAll ss
termination_by structural ss => ss

/-- A statement that may be missing, without its notes. -/
def Stmt.eraseOption : Option (Stmt α) → Option (Stmt Unit)
  | none => none
  | some s => some s.erase
termination_by structural s => s

end

theorem Stmt.eraseOption_eq (s : Option (Stmt α)) : Stmt.eraseOption s = s.map Stmt.erase := by
  cases s <;> rfl

end Erase

/-! ## §2 Adding nodes -/

namespace BodyArena

variable {a a₁ a₂ : BodyArena} {nodes more : List NodeId}

/-- What is inside a node comes before it, and the operands of a statement are in bounds. -/
structure IsOrdered (a : BodyArena) : Prop where
  expr : ∀ id, ∀ child ∈ a.operandsOf id, child < id
  stmt : ∀ id, ∀ child ∈ a.stmtChildrenOf id, child < id
  operand : ∀ id, ∀ child ∈ a.stmtOperandsOf id, a.hasExpr child = true

theorem IsOrdered.empty : IsOrdered {} := ⟨nofun, nofun, nofun⟩

/-- An ordered arena has every position that its nodes hold. -/
theorem IsOrdered.isWellFormed (h : a.IsOrdered) : a.isWellFormed = true := by
  have hstmts : a.stmts.toList.all (fun node =>
      node.form.stmtChildren.all a.hasStmt && node.form.exprChildren.all a.hasExpr) = true := by
    refine List.all_eq_true.mpr (fun node hnode => ?_)
    obtain ⟨id, hid⟩ := List.mem_iff_getElem?.mp hnode
    rw [Array.getElem?_toList] at hid
    have hlt := (Array.getElem?_eq_some_iff.mp hid).1
    have hchildren := h.stmt id
    have hoperands := h.operand id
    rw [stmtChildrenOf, hid] at hchildren
    rw [stmtOperandsOf, hid] at hoperands
    rw [Bool.and_eq_true]
    exact ⟨List.all_eq_true.mpr (fun child hchild =>
      decide_eq_true (Nat.lt_trans (hchildren child hchild) hlt)), List.all_eq_true.mpr hoperands⟩
  have hexprs : a.exprs.toList.all (fun node => node.form.children.all a.hasExpr) = true := by
    refine List.all_eq_true.mpr (fun node hnode => List.all_eq_true.mpr (fun child hchild => ?_))
    obtain ⟨id, hid⟩ := List.mem_iff_getElem?.mp hnode
    rw [Array.getElem?_toList] at hid
    have hoperands := h.expr id
    rw [operandsOf, hid] at hoperands
    exact decide_eq_true
      (Nat.lt_trans (hoperands child hchild) (Array.getElem?_eq_some_iff.mp hid).1)
  rw [BodyArena.isWellFormed, hstmts, hexprs]
  rfl

/-- A later arena has some more nodes than an earlier one, and is ordered if that one is. -/
structure Adds (a a' : BodyArena) (nodes : List NodeId) : Prop where
  grows : a.Grows a'
  ordered : a.IsOrdered → a'.IsOrdered
  nodup : nodes.Nodup
  new : ∀ n ∈ nodes, a.hasNode n = false
  hasNode_iff : ∀ n, a'.hasNode n = true ↔ a.hasNode n = true ∨ n ∈ nodes

namespace Adds

theorem refl (a : BodyArena) : a.Adds a [] := ⟨.refl a, id, List.nodup_nil, nofun, by simp⟩

theorem trans (h : a.Adds a₁ nodes) (h' : a₁.Adds a₂ more) : a.Adds a₂ (nodes ++ more) where
  grows := h.grows.trans h'.grows
  ordered := fun ha => h'.ordered (h.ordered ha)
  nodup := by
    refine List.nodup_append.mpr ⟨h.nodup, h'.nodup, ?_⟩
    rintro n hn m hm rfl
    have hbound := (h.hasNode_iff n).mpr (.inr hn)
    rw [h'.new n hm] at hbound
    cases hbound
  new := by
    intro n hn
    rcases List.mem_append.mp hn with hn | hn
    · exact h.new n hn
    · have hnew := h'.new n hn
      rw [← Bool.not_eq_true, h.hasNode_iff, not_or, Bool.not_eq_true] at hnew
      exact hnew.1
  hasNode_iff n := by rw [h'.hasNode_iff, h.hasNode_iff, List.mem_append, or_assoc]

theorem perm (h : a.Adds a₁ nodes) (hperm : nodes.Perm more) : a.Adds a₁ more where
  grows := h.grows
  ordered := h.ordered
  nodup := hperm.nodup_iff.mp h.nodup
  new := fun n hn => h.new n (hperm.mem_iff.mpr hn)
  hasNode_iff n := by rw [h.hasNode_iff, hperm.mem_iff]

end Adds

theorem hasNode_stmt_iff {id : StmtId} : a.hasNode (.stmt id) = true ↔ id < a.stmts.size :=
  decide_eq_true_iff

theorem hasNode_expr_iff {id : ExprId} : a.hasNode (.expr id) = true ↔ id < a.exprs.size :=
  decide_eq_true_iff

/-- An expression whose operands are in bounds is one more node. -/
theorem adds_allocateExpr {form : ExprForm}
    (hform : ∀ child ∈ form.children, a.hasExpr child = true) :
    a.Adds (allocateExpr form a).2 [.expr a.exprs.size] where
  grows := by
    refine ⟨id, fun {id node} hnode => ?_⟩
    have hlt : id < a.exprs.size := (Array.getElem?_eq_some_iff.mp hnode).1
    simpa [allocateExpr, Array.getElem?_push, Nat.ne_of_lt hlt] using hnode
  ordered ha := by
    refine ⟨fun id child hchild => ?_, ha.stmt, fun id child hchild => ?_⟩
    · by_cases hid : id = a.exprs.size
      · subst hid
        exact of_decide_eq_true (hform child (by simpa [allocateExpr, operandsOf] using hchild))
      · refine ha.expr id child ?_
        simpa [allocateExpr, operandsOf, Array.getElem?_push, hid] using hchild
    · have hlt : child < a.exprs.size := of_decide_eq_true (ha.operand id child hchild)
      simp [allocateExpr, hasExpr, Nat.lt_succ_of_lt hlt]
  nodup := List.nodup_singleton _
  new := by simp [hasNode, hasExpr]
  hasNode_iff n := by
    cases n with
    | stmt id => simp [allocateExpr, hasNode_stmt_iff]
    | expr id =>
      simp only [allocateExpr, hasNode_expr_iff, Array.size_push, List.mem_singleton,
        NodeId.expr.injEq]
      exact Nat.lt_succ_iff_lt_or_eq

/-- A statement with what is inside it in bounds is one more node. -/
theorem adds_allocateStmt {form : StmtForm}
    (hstmts : ∀ child ∈ form.stmtChildren, a.hasStmt child = true)
    (hexprs : ∀ child ∈ form.exprChildren, a.hasExpr child = true) :
    a.Adds (allocateStmt form a).2 [.stmt a.stmts.size] where
  grows := by
    refine ⟨fun {id node} hnode => ?_, id⟩
    have hlt : id < a.stmts.size := (Array.getElem?_eq_some_iff.mp hnode).1
    simpa [allocateStmt, Array.getElem?_push, Nat.ne_of_lt hlt] using hnode
  ordered ha := by
    refine ⟨ha.expr, fun id child hchild => ?_, fun id child hchild => ?_⟩
    · by_cases hid : id = a.stmts.size
      · subst hid
        exact of_decide_eq_true (hstmts child (by simpa [allocateStmt, stmtChildrenOf] using hchild))
      · refine ha.stmt id child ?_
        simpa [allocateStmt, stmtChildrenOf, Array.getElem?_push, hid] using hchild
    · by_cases hid : id = a.stmts.size
      · subst hid
        exact hexprs child (by simpa [allocateStmt, stmtOperandsOf] using hchild)
      · refine ha.operand id child ?_
        simpa [allocateStmt, stmtOperandsOf, Array.getElem?_push, hid] using hchild
  nodup := List.nodup_singleton _
  new := by simp [hasNode, hasStmt]
  hasNode_iff n := by
    cases n with
    | stmt id =>
      simp only [allocateStmt, hasNode_stmt_iff, Array.size_push, List.mem_singleton,
        NodeId.stmt.injEq]
      exact Nat.lt_succ_iff_lt_or_eq
    | expr id => simp [allocateStmt, hasNode_expr_iff]

/-! ## §3 Allocating trees -/

/-- An expression has been added to an arena: it can be read at the returned position. -/
def StoresExpr (a : BodyArena) (run : ExprId × BodyArena) (e : Expr Unit) : Prop :=
  ∃ t : Expr Mark, t.erase = e ∧ run.2.expr? run.1 = some t ∧ a.Adds run.2 t.nodes

/-- Expressions have been added to an arena. -/
def StoresExprs (a : BodyArena) (run : List ExprId × BodyArena) (es : List (Expr Unit)) : Prop :=
  ∃ ts : List (Expr Mark), Expr.eraseAll ts = es ∧
    List.Forall₂ (fun id t => run.2.expr? id = some t) run.1 ts ∧
    a.Adds run.2 (ts.flatMap Expr.nodes)

/-- An expression that may be missing has been added to an arena. -/
def StoresExprOption (a : BodyArena) (run : Option ExprId × BodyArena) (e : Option (Expr Unit)) :
    Prop :=
  ∃ t : Option (Expr Mark), t.map Expr.erase = e ∧
    Option.Rel (fun id t => run.2.expr? id = some t) run.1 t ∧
    a.Adds run.2 (t.toList.flatMap Expr.nodes)

/-- A statement has been added to an arena: it can be read at the returned position. -/
def StoresStmt (a : BodyArena) (run : StmtId × BodyArena) (s : Stmt Unit) : Prop :=
  ∃ t : Stmt Mark, t.erase = s ∧ run.2.stmt? run.1 = some t ∧ a.Adds run.2 t.nodes

/-- Statements have been added to an arena. -/
def StoresStmts (a : BodyArena) (run : List StmtId × BodyArena) (ss : List (Stmt Unit)) : Prop :=
  ∃ ts : List (Stmt Mark), Stmt.eraseAll ts = ss ∧
    List.Forall₂ (fun id t => run.2.stmt? id = some t) run.1 ts ∧
    a.Adds run.2 (ts.flatMap Stmt.nodes)

/-- A statement that may be missing has been added to an arena. -/
def StoresStmtOption (a : BodyArena) (run : Option StmtId × BodyArena) (s : Option (Stmt Unit)) :
    Prop :=
  ∃ t : Option (Stmt Mark), Stmt.eraseOption t = s ∧
    Option.Rel (fun id t => run.2.stmt? id = some t) run.1 t ∧
    a.Adds run.2 (t.toList.flatMap Stmt.nodes)

/-- A form whose positions hold expressions is stored as the expression that they make up. -/
theorem StoresExpr.node {form : ExprForm} {t : Expr Mark}
    (hform : form.ReadsAs (fun id e => a₁.expr? id = some e) ⟨a₁.exprs.size, {}⟩ t)
    (hadds : a.Adds a₁ (t.children.flatMap Expr.nodes)) :
    a.StoresExpr (allocateExpr form a₁) t.erase := by
  have hbounds : ∀ child ∈ form.children, a₁.hasExpr child = true := by
    intro child hchild
    obtain ⟨e, -, he⟩ := exists_of_mem_forall₂ hform.children hchild
    exact (of_expr? he).2.1
  have hadd := adds_allocateExpr hbounds
  refine ⟨t, rfl, ?_, (hadds.trans hadd).perm ?_⟩
  · have hsize : (allocateExpr form a₁).2.exprs.size = a₁.exprs.size + 1 := Array.size_push ..
    rw [expr?, hsize, readExpr?_succ]
    refine ⟨⟨form, {}⟩, Array.getElem?_push_size, hform.imp (fun _ _ he => ?_)⟩
    exact hadd.grows.readExpr? he (Nat.le_refl _)
  · rw [Expr.nodes_eq, hform.note]
    exact List.perm_append_singleton ..

/-- A form whose positions hold trees is stored as the statement that they make up. -/
theorem StoresStmt.node {form : StmtForm} {t : Stmt Mark}
    (hform : form.ReadsAs (fun id e => a₁.expr? id = some e) (fun id s => a₁.stmt? id = some s)
      ⟨a₁.stmts.size, {}⟩ t)
    (hadds : a.Adds a₁ (t.exprChildren.flatMap Expr.nodes ++ t.stmtChildren.flatMap Stmt.nodes)) :
    a.StoresStmt (allocateStmt form a₁) t.erase := by
  have hexprs : ∀ child ∈ form.exprChildren, a₁.hasExpr child = true := by
    intro child hchild
    obtain ⟨e, -, he⟩ := exists_of_mem_forall₂ hform.exprChildren hchild
    exact (of_expr? he).2.1
  have hstmts : ∀ child ∈ form.stmtChildren, a₁.hasStmt child = true := by
    intro child hchild
    obtain ⟨s, -, hs⟩ := exists_of_mem_forall₂ hform.stmtChildren hchild
    exact (of_stmt? hs).2.1
  have hadd := adds_allocateStmt hstmts hexprs
  refine ⟨t, rfl, ?_, (hadds.trans hadd).perm ?_⟩
  · have hsize : (allocateStmt form a₁).2.stmts.size = a₁.stmts.size + 1 := Array.size_push ..
    rw [stmt?, hsize, readStmt?_succ]
    refine ⟨⟨form, {}⟩, Array.getElem?_push_size,
      hform.imp (fun _ _ => hadd.grows.expr?) (fun _ _ hs => ?_)⟩
    exact hadd.grows.readStmt? hs (Nat.le_refl _)
  · rw [Stmt.nodes_eq, hform.note]
    exact List.perm_append_singleton ..

end BodyArena

open BodyArena

theorem option_rel_imp {α β : Type} {r r' : α → β → Prop} {x : Option α} {y : Option β}
    (h : Option.Rel r x y) (himp : ∀ a b, r a b → r' a b) : Option.Rel r' x y := by
  cases h with
  | none => exact .none
  | some h => exact .some (himp _ _ h)

theorem option_rel_map_right {α β γ : Type} {r : α → γ → Prop} {f : β → γ} {x : Option α}
    {y : Option β} : Option.Rel r x (y.map f) ↔ Option.Rel (fun a b => r a (f b)) x y := by
  cases x <;> cases y <;> simp

mutual

/-- The operands of an expression are stored one after the other, and the expression behind
them. What has been stored stays readable as the arena grows. -/
theorem Expr.allocate_stores (a : BodyArena) : ∀ e : Expr Unit, a.StoresExpr (e.allocate a) e
  | .literal _ value => .node (.literal value) (.refl a)
  | .named _ path => .node (.named path) (.refl a)
  | .this _ => .node .this (.refl a)
  | .fieldAccess _ receiver name => by
    obtain ⟨t, rfl, ht, hadds⟩ := Expr.allocate_stores a receiver
    exact .node (.fieldAccess ht name) (by simpa [Expr.children] using hadds)
  | .call _ name args => by
    obtain ⟨ts, rfl, hts, hadds⟩ := Expr.allocateAll_stores a args
    exact .node (.call name hts) hadds
  | .callOn _ receiver name args => by
    obtain ⟨t, rfl, ht, hadds⟩ := Expr.allocate_stores a receiver
    obtain ⟨ts, rfl, hts, hmore⟩ := Expr.allocateAll_stores _ args
    exact .node (.callOn (hmore.grows.expr? ht) name hts) (hadds.trans hmore)
  | .create _ type args => by
    obtain ⟨ts, rfl, hts, hadds⟩ := Expr.allocateAll_stores a args
    exact .node (.create type hts) hadds
  | .createArray _ element dims => by
    obtain ⟨ts, rfl, hts, hadds⟩ := Expr.allocateAll_stores a dims
    exact .node (.createArray element hts) hadds
  | .arrayAccess _ array index => by
    obtain ⟨t, rfl, ht, hadds⟩ := Expr.allocate_stores a array
    obtain ⟨u, rfl, hu, hmore⟩ := Expr.allocate_stores _ index
    exact .node (.arrayAccess (hmore.grows.expr? ht) hu)
      (by simpa [Expr.children] using hadds.trans hmore)
  | .cast _ type operand => by
    obtain ⟨t, rfl, ht, hadds⟩ := Expr.allocate_stores a operand
    exact .node (.cast type ht) (by simpa [Expr.children] using hadds)
  | .instanceOf _ operand type => by
    obtain ⟨t, rfl, ht, hadds⟩ := Expr.allocate_stores a operand
    exact .node (.instanceOf ht type) (by simpa [Expr.children] using hadds)
  | .binary _ op lhs rhs => by
    obtain ⟨t, rfl, ht, hadds⟩ := Expr.allocate_stores a lhs
    obtain ⟨u, rfl, hu, hmore⟩ := Expr.allocate_stores _ rhs
    exact .node (.binary op (hmore.grows.expr? ht) hu)
      (by simpa [Expr.children] using hadds.trans hmore)
  | .unary _ op operand => by
    obtain ⟨t, rfl, ht, hadds⟩ := Expr.allocate_stores a operand
    exact .node (.unary op ht) (by simpa [Expr.children] using hadds)
  | .incDec _ op operand => by
    obtain ⟨t, rfl, ht, hadds⟩ := Expr.allocate_stores a operand
    exact .node (.incDec op ht) (by simpa [Expr.children] using hadds)
  | .assign _ target value => by
    obtain ⟨t, rfl, ht, hadds⟩ := Expr.allocate_stores a target
    obtain ⟨u, rfl, hu, hmore⟩ := Expr.allocate_stores _ value
    exact .node (.assign (hmore.grows.expr? ht) hu)
      (by simpa [Expr.children] using hadds.trans hmore)
termination_by structural e => e

theorem Expr.allocateAll_stores (a : BodyArena) :
    ∀ es : List (Expr Unit), a.StoresExprs (allocateExprs es a) es
  | [] => ⟨[], rfl, .nil, .refl a⟩
  | e :: es => by
    obtain ⟨t, rfl, ht, hadds⟩ := Expr.allocate_stores a e
    obtain ⟨ts, rfl, hts, hmore⟩ := Expr.allocateAll_stores _ es
    exact ⟨t :: ts, rfl, .cons (hmore.grows.expr? ht) hts, hadds.trans hmore⟩
termination_by structural es => es

end

theorem Expr.allocateOption_stores (a : BodyArena) :
    ∀ e : Option (Expr Unit), a.StoresExprOption (allocateExprOption e a) e
  | none => ⟨none, rfl, .none, .refl a⟩
  | some e => by
    obtain ⟨t, rfl, ht, hadds⟩ := Expr.allocate_stores a e
    exact ⟨some t, rfl, .some ht, hadds.perm (by simp)⟩

mutual

/-- What is inside a statement is stored in the order of its parts, and the statement behind
it. -/
theorem Stmt.allocate_stores (a : BodyArena) : ∀ s : Stmt Unit, a.StoresStmt (s.allocate a) s
  | .block _ stmts => by
    obtain ⟨ts, rfl, hts, hadds⟩ := Stmt.allocateAll_stores a stmts
    exact .node (.block hts) hadds
  | .localVar _ type name initializer => by
    obtain ⟨t, rfl, ht, hadds⟩ := Expr.allocateOption_stores a initializer
    exact .node (.localVar type name ht)
      (by simpa [Stmt.exprChildren, Stmt.stmtChildren] using hadds)
  | .expression _ value => by
    obtain ⟨t, rfl, ht, hadds⟩ := Expr.allocate_stores a value
    exact .node (.expression ht) (by simpa [Stmt.exprChildren, Stmt.stmtChildren] using hadds)
  | .branch _ condition thenBranch elseBranch => by
    obtain ⟨e, rfl, he, hcondition⟩ := Expr.allocate_stores a condition
    obtain ⟨t, rfl, ht, hthen⟩ := Stmt.allocate_stores (e.erase.allocate a).2 thenBranch
    obtain ⟨u, rfl, hu, helse⟩ := Stmt.allocateOption_stores (t.erase.allocate _).2 elseBranch
    have hgrows := hthen.grows.trans helse.grows
    exact .node (.branch (hgrows.expr? he) (helse.grows.stmt? ht) hu)
      (by simpa [Stmt.exprChildren, Stmt.stmtChildren] using hcondition.trans (hthen.trans helse))
  | .whileLoop _ condition body => by
    obtain ⟨e, rfl, he, hcondition⟩ := Expr.allocate_stores a condition
    obtain ⟨t, rfl, ht, hbody⟩ := Stmt.allocate_stores _ body
    exact .node (.whileLoop (hbody.grows.expr? he) ht)
      (by simpa [Stmt.exprChildren, Stmt.stmtChildren] using hcondition.trans hbody)
  | .forLoop _ init condition update body => by
    let a₁ := (allocateStmtOption init a).2
    let a₂ := (allocateExprOption condition a₁).2
    let a₃ := (allocateExprOption update a₂).2
    obtain ⟨t, rfl, ht, hinit⟩ := Stmt.allocateOption_stores a init
    obtain ⟨e, rfl, he, hcondition⟩ := Expr.allocateOption_stores a₁ condition
    obtain ⟨f, rfl, hf, hupdate⟩ := Expr.allocateOption_stores a₂ update
    obtain ⟨u, rfl, hu, hbody⟩ := Stmt.allocate_stores a₃ body
    have hlater := hupdate.grows.trans hbody.grows
    have hadds := hinit.trans (hcondition.trans (hupdate.trans hbody))
    refine .node (.forLoop (option_rel_imp ht (fun _ _ => (hcondition.grows.trans hlater).stmt?))
      (option_rel_imp he (fun _ _ => hlater.expr?))
      (option_rel_imp hf (fun _ _ => hbody.grows.expr?)) hu) ?_
    -- The initializer is allocated before the operands, and listed after them.
    refine hadds.perm (List.perm_iff_count.mpr (fun n => ?_))
    simp only [Stmt.exprChildren, Stmt.stmtChildren, List.flatMap_append, List.flatMap_singleton,
      List.count_append]
    omega
  | .returnValue _ value => by
    obtain ⟨t, rfl, ht, hadds⟩ := Expr.allocateOption_stores a value
    exact .node (.returnValue ht) (by simpa [Stmt.exprChildren, Stmt.stmtChildren] using hadds)
  | .throwValue _ value => by
    obtain ⟨t, rfl, ht, hadds⟩ := Expr.allocate_stores a value
    exact .node (.throwValue ht) (by simpa [Stmt.exprChildren, Stmt.stmtChildren] using hadds)
  | .breakLoop _ => .node .breakLoop (.refl a)
  | .empty _ => .node .empty (.refl a)
  | .constructorCall _ call args => by
    obtain ⟨ts, rfl, hts, hadds⟩ := Expr.allocateAll_stores a args
    exact .node (.constructorCall call hts)
      (by simpa [Stmt.exprChildren, Stmt.stmtChildren] using hadds)
termination_by structural s => s

theorem Stmt.allocateAll_stores (a : BodyArena) :
    ∀ ss : List (Stmt Unit), a.StoresStmts (allocateStmts ss a) ss
  | [] => ⟨[], rfl, .nil, .refl a⟩
  | s :: ss => by
    obtain ⟨t, rfl, ht, hadds⟩ := Stmt.allocate_stores a s
    obtain ⟨ts, rfl, hts, hmore⟩ := Stmt.allocateAll_stores _ ss
    exact ⟨t :: ts, rfl, .cons (hmore.grows.stmt? ht) hts, hadds.trans hmore⟩
termination_by structural ss => ss

theorem Stmt.allocateOption_stores (a : BodyArena) :
    ∀ s : Option (Stmt Unit), a.StoresStmtOption (allocateStmtOption s a) s
  | none => ⟨none, rfl, .none, .refl a⟩
  | some s => by
    obtain ⟨t, rfl, ht, hadds⟩ := Stmt.allocate_stores a s
    exact ⟨some t, rfl, .some ht, hadds.perm (by simp)⟩
termination_by structural s => s

end

/-! ## §4 Members -/

namespace BodyArena

variable {a a₁ a₂ : BodyArena}

/-- The expression at a position, without the positions in it. -/
def ReadsExpr (a : BodyArena) (id : ExprId) (e : Expr Unit) : Prop :=
  (a.expr? id).map Expr.erase = some e

/-- The statement at a position, without the positions in it. -/
def ReadsStmt (a : BodyArena) (id : StmtId) (s : Stmt Unit) : Prop :=
  (a.stmt? id).map Stmt.erase = some s

theorem Grows.readsExpr (h : a.Grows a₁) {id : ExprId} {e : Expr Unit} (he : a.ReadsExpr id e) :
    a₁.ReadsExpr id e := by
  obtain ⟨t, ht, rfl⟩ := Option.map_eq_some_iff.mp he
  exact Option.map_eq_some_iff.mpr ⟨t, h.expr? ht, rfl⟩

theorem Grows.readsStmt (h : a.Grows a₁) {id : StmtId} {s : Stmt Unit} (hs : a.ReadsStmt id s) :
    a₁.ReadsStmt id s := by
  obtain ⟨t, ht, rfl⟩ := Option.map_eq_some_iff.mp hs
  exact Option.map_eq_some_iff.mpr ⟨t, h.stmt? ht, rfl⟩

/-- A later arena has the trees at some roots on top of an earlier one. -/
def AddsTrees (a a' : BodyArena) (stmtRoots : List StmtId) (exprRoots : List ExprId) : Prop :=
  ∃ ss es, List.Forall₂ (fun id s => a'.stmt? id = some s) stmtRoots ss ∧
    List.Forall₂ (fun id e => a'.expr? id = some e) exprRoots es ∧
    a.Adds a' (ss.flatMap Stmt.nodes ++ es.flatMap Expr.nodes)

namespace AddsTrees

theorem refl (a : BodyArena) : a.AddsTrees a [] [] := ⟨[], [], .nil, .nil, .refl a⟩

theorem trans {stmtRoots moreStmts : List StmtId} {exprRoots moreExprs : List ExprId}
    (h : a.AddsTrees a₁ stmtRoots exprRoots) (h' : a₁.AddsTrees a₂ moreStmts moreExprs) :
    a.AddsTrees a₂ (stmtRoots ++ moreStmts) (exprRoots ++ moreExprs) := by
  obtain ⟨ss, es, hss, hes, hadds⟩ := h
  obtain ⟨ss', es', hss', hes', hmore⟩ := h'
  refine ⟨ss ++ ss', es ++ es', List.rel_append (hss.imp (fun _ _ => hmore.grows.stmt?)) hss',
    List.rel_append (hes.imp (fun _ _ => hmore.grows.expr?)) hes', (hadds.trans hmore).perm ?_⟩
  refine List.perm_iff_count.mpr (fun n => ?_)
  simp only [List.flatMap_append, List.count_append]
  omega

theorem grows {stmtRoots : List StmtId} {exprRoots : List ExprId}
    (h : a.AddsTrees a₁ stmtRoots exprRoots) : a.Grows a₁ := by
  obtain ⟨ss, es, -, -, hadds⟩ := h
  exact hadds.grows

end AddsTrees

theorem StoresExprOption.addsTrees {run : Option ExprId × BodyArena} {e : Option (Expr Unit)}
    (h : a.StoresExprOption run e) :
    Option.Rel run.2.ReadsExpr run.1 e ∧ a.AddsTrees run.2 [] run.1.toList := by
  obtain ⟨t, rfl, hread, hadds⟩ := h
  refine ⟨?_, [], t.toList, .nil, forall₂_toList.mpr hread, hadds⟩
  exact option_rel_map_right.mpr
    (option_rel_imp hread (fun _ _ ht => Option.map_eq_some_iff.mpr ⟨_, ht, rfl⟩))

theorem StoresStmt.addsTrees {run : StmtId × BodyArena} {s : Stmt Unit} (h : a.StoresStmt run s) :
    run.2.ReadsStmt run.1 s ∧ a.AddsTrees run.2 [run.1] [] := by
  obtain ⟨t, rfl, hread, hadds⟩ := h
  refine ⟨Option.map_eq_some_iff.mpr ⟨t, hread, rfl⟩, [t], [], .cons hread .nil, .nil, ?_⟩
  simpa using hadds

theorem StoresStmtOption.addsTrees {run : Option StmtId × BodyArena} {s : Option (Stmt Unit)}
    (h : a.StoresStmtOption run s) :
    Option.Rel run.2.ReadsStmt run.1 s ∧ a.AddsTrees run.2 run.1.toList [] := by
  obtain ⟨t, rfl, hread, hadds⟩ := h
  rw [Stmt.eraseOption_eq]
  refine ⟨?_, t.toList, [], forall₂_toList.mpr hread, .nil, by simpa using hadds⟩
  exact option_rel_map_right.mpr
    (option_rel_imp hread (fun _ _ ht => Option.map_eq_some_iff.mpr ⟨_, ht, rfl⟩))

/-- Members are allocated one after the other. What holds of each of them when it has been
allocated, and still holds of it in larger arenas, holds of all of them in the end. -/
theorem mapM_addsTrees {β γ : Type} {allocate : β → Allocation γ} {R : BodyArena → β → γ → Prop}
    (stmtRoot : γ → Option StmtId) (exprRoot : γ → Option ExprId)
    (hR : ∀ {a a' : BodyArena} {b : β} {c : γ}, R a b c → a.Grows a' → R a' b c)
    (h : ∀ b a, R (allocate b a).2 b (allocate b a).1 ∧ a.AddsTrees (allocate b a).2
      (stmtRoot (allocate b a).1).toList (exprRoot (allocate b a).1).toList)
    (bs : List β) (a : BodyArena) :
    List.Forall₂ (R (bs.mapM allocate a).2) bs (bs.mapM allocate a).1 ∧
      a.AddsTrees (bs.mapM allocate a).2 ((bs.mapM allocate a).1.filterMap stmtRoot)
        ((bs.mapM allocate a).1.filterMap exprRoot) := by
  simp only [List.filterMap_eq_flatMap_toList]
  induction bs generalizing a with
  | nil => exact ⟨.nil, .refl a⟩
  | cons b bs ih =>
    obtain ⟨hfirst, hadds⟩ := h b a
    obtain ⟨hothers, hmore⟩ := ih (allocate b a).2
    rw [List.mapM_cons]
    exact ⟨.cons (hR hfirst hmore.grows) hothers, hadds.trans hmore⟩

end BodyArena

/-- The field of a blueprint, with its initializer in an arena. -/
structure FieldBlueprint.LowersTo (a : BodyArena) (b : FieldBlueprint) (d : FieldDecl) : Prop where
  decl_eq : d = {
    modifiers := b.modifiers, type := b.type, name := b.name, initializer := d.initializer }
  initializer : Option.Rel a.ReadsExpr d.initializer b.initializer

/-- The constructor of a blueprint, with a block of its statements in an arena. -/
structure ConstructorBlueprint.LowersTo (a : BodyArena) (b : ConstructorBlueprint)
    (d : ConstructorDecl) : Prop where
  decl_eq : d = {
    modifiers := b.modifiers, params := toParams b.params, throws := b.throws, body := d.body }
  body : a.ReadsStmt d.body (.block () b.body)

/-- The method of a blueprint, with a block of its statements in an arena. -/
structure MethodBlueprint.LowersTo (a : BodyArena) (b : MethodBlueprint) (d : MethodDecl) :
    Prop where
  decl_eq : d = {
    modifiers := b.modifiers, returnType := b.returnType, name := b.name
    params := toParams b.params, throws := b.throws, body := d.body }
  body : Option.Rel (fun id stmts => a.ReadsStmt id (.block () stmts)) d.body b.body

/-- The declaration of a blueprint, with its members in the same order. -/
structure TypeBlueprint.LowersTo (b : TypeBlueprint) (d : TypeDecl) : Prop where
  decl_eq : d = {
    kind := b.kind, name := b.name, modifiers := b.modifiers, superclass := b.superclass
    interfaces := b.interfaces, fields := d.fields, constructors := d.constructors
    methods := d.methods, bodies := d.bodies }
  fields : List.Forall₂ (FieldBlueprint.LowersTo d.bodies) b.fields d.fields
  constructors : List.Forall₂ (ConstructorBlueprint.LowersTo d.bodies) b.constructors
    d.constructors
  methods : List.Forall₂ (MethodBlueprint.LowersTo d.bodies) b.methods d.methods

section Members

variable {a a' : BodyArena}

theorem FieldBlueprint.LowersTo.grow {b : FieldBlueprint} {d : FieldDecl} (h : b.LowersTo a d)
    (hgrows : a.Grows a') : b.LowersTo a' d :=
  ⟨h.decl_eq, option_rel_imp h.initializer (fun _ _ => hgrows.readsExpr)⟩

theorem ConstructorBlueprint.LowersTo.grow {b : ConstructorBlueprint} {d : ConstructorDecl}
    (h : b.LowersTo a d) (hgrows : a.Grows a') : b.LowersTo a' d :=
  ⟨h.decl_eq, hgrows.readsStmt h.body⟩

theorem MethodBlueprint.LowersTo.grow {b : MethodBlueprint} {d : MethodDecl} (h : b.LowersTo a d)
    (hgrows : a.Grows a') : b.LowersTo a' d :=
  ⟨h.decl_eq, option_rel_imp h.body (fun _ _ => hgrows.readsStmt)⟩

theorem FieldBlueprint.allocate_lowersTo (b : FieldBlueprint) (a : BodyArena) :
    b.LowersTo (b.allocate a).2 (b.allocate a).1 ∧
      a.AddsTrees (b.allocate a).2 [] (b.allocate a).1.initializer.toList := by
  obtain ⟨hread, hadds⟩ := (Expr.allocateOption_stores a b.initializer).addsTrees
  exact ⟨⟨rfl, hread⟩, hadds⟩

theorem ConstructorBlueprint.allocate_lowersTo (b : ConstructorBlueprint) (a : BodyArena) :
    b.LowersTo (b.allocate a).2 (b.allocate a).1 ∧
      a.AddsTrees (b.allocate a).2 [(b.allocate a).1.body] [] := by
  obtain ⟨hread, hadds⟩ := (Stmt.allocate_stores a (.block () b.body)).addsTrees
  exact ⟨⟨rfl, hread⟩, hadds⟩

theorem MethodBlueprint.allocate_lowersTo (b : MethodBlueprint) (a : BodyArena) :
    b.LowersTo (b.allocate a).2 (b.allocate a).1 ∧
      a.AddsTrees (b.allocate a).2 (b.allocate a).1.body.toList [] := by
  obtain ⟨hread, hadds⟩ := (Stmt.allocateOption_stores a (b.body.map (Stmt.block ()))).addsTrees
  exact ⟨⟨rfl, option_rel_map_right.mp hread⟩, hadds⟩

end Members

namespace TypeBlueprint

/-- The members of a blueprint are lowered one after the other: fields, constructors, methods. -/
theorem toDecl_lowersTo (b : TypeBlueprint) :
    b.LowersTo b.toDecl ∧
      BodyArena.AddsTrees {} b.toDecl.bodies b.toDecl.stmtRoots b.toDecl.exprRoots := by
  obtain ⟨hfields, hinitializers⟩ := mapM_addsTrees (R := FieldBlueprint.LowersTo) (fun _ => none)
    FieldDecl.initializer FieldBlueprint.LowersTo.grow FieldBlueprint.allocate_lowersTo b.fields {}
  obtain ⟨hconstructors, hbodies⟩ := mapM_addsTrees (R := ConstructorBlueprint.LowersTo)
    (fun d => some d.body) (fun _ => none) ConstructorBlueprint.LowersTo.grow
    ConstructorBlueprint.allocate_lowersTo b.constructors
    (b.fields.mapM FieldBlueprint.allocate {}).2
  obtain ⟨hmethods, hmore⟩ := mapM_addsTrees (R := MethodBlueprint.LowersTo) MethodDecl.body
    (fun _ => none) MethodBlueprint.LowersTo.grow MethodBlueprint.allocate_lowersTo b.methods
    (b.constructors.mapM ConstructorBlueprint.allocate
      (b.fields.mapM FieldBlueprint.allocate {}).2).2
  refine ⟨⟨rfl, ?_, ?_, hmethods⟩, ?_⟩
  · exact hfields.imp (fun _ _ h => h.grow (hbodies.grows.trans hmore.grows))
  · exact hconstructors.imp (fun _ _ h => h.grow hmore.grows)
  · have hadds := hinitializers.trans (hbodies.trans hmore)
    simp only [List.filterMap_none, List.filterMap_eq_map', List.nil_append,
      List.append_nil] at hadds
    exact hadds

/-- The declaration of a blueprint is well-formed. Its bodies and initializers, read back from
their positions, are those of the blueprint, and its arena holds nothing else: what is inside a
node stands before it, and every node is reached from the root of exactly one member. -/
theorem toDecl_lossless (b : TypeBlueprint) :
    b.toDecl.isWellFormed = true ∧ b.LowersTo b.toDecl ∧ b.toDecl.bodies.IsOrdered ∧
      b.toDecl.memberRoots.Nodup ∧ ∀ n, b.toDecl.bodies.hasNode n = true →
        ∃! root, root ∈ b.toDecl.memberRoots ∧ b.toDecl.bodies.Reaches root n := by
  obtain ⟨hlowers, ss, es, hss, hes, hadds⟩ := b.toDecl_lowersTo
  have hordered := hadds.ordered .empty
  have hmem (n : NodeId) : b.toDecl.bodies.hasNode n = true ↔
      n ∈ ss.flatMap Stmt.nodes ++ es.flatMap Expr.nodes := by
    have hempty : hasNode {} n = false := by cases n <;> rfl
    simp [hadds.hasNode_iff, hempty]
  have hdistinct : b.toDecl.bodies.AreDistinct (ss.flatMap Stmt.nodes ++ es.flatMap Expr.nodes) :=
    ⟨hadds.nodup, fun n hn => (hmem n).mpr hn, fun _ _ => List.not_mem_nil⟩
  have hwf := TypeDecl.isWellFormed_of_trees hordered.isWellFormed hss hes hdistinct
  obtain ⟨hnodup, hapart⟩ := TypeDecl.memberRoots_apart hwf
  refine ⟨hwf, hlowers, hordered, hnodup, fun n hn => ?_⟩
  obtain ⟨root, hroot, hreach⟩ := TypeDecl.exists_memberRoot hss hes ((hmem n).mp hn)
  exact ⟨root, ⟨hroot, hreach⟩,
    fun other hother => hapart other hother.1 root hroot n hother.2 hreach⟩

end TypeBlueprint

end JoosStatics
