/-
JoosStatics.Proofs.Syntax.Reading — validated bodies can be read.

§1 says what it is for a form to be read as a tree, given the trees of the
positions in it. §2 follows the walk of `visitsOnce`: when no node comes up
twice, every pending position holds a tree and the trees share no node. A
tree without repeated nodes is no deeper than its arena has nodes, so that
`expr?` and `stmt?` find it.

* `BodyArena.exists_trees` — the roots of an arena that form disjoint trees.
* `TypeDecl.exists_trees` — the roots of a well-formed declaration (§3).
-/
import JoosStatics.Proofs.Syntax.Trees
import Mathlib.Data.List.Forall2
import Mathlib.Data.List.Perm.Subperm

namespace JoosStatics

/-! ## §1 Forms and trees -/

/-- An expression form is read as a tree when the positions in it are read as
the subtrees. -/
inductive ExprForm.ReadsAs (child : ExprId → Expr Mark → Prop) (mark : Mark) :
    ExprForm → Expr Mark → Prop
  | literal (value : Literal) : ReadsAs child mark (.literal value) (.literal mark value)
  | named (path : QualifiedName) : ReadsAs child mark (.named path) (.named mark path)
  | this : ReadsAs child mark .this (.this mark)
  | fieldAccess {receiver : ExprId} {left : Expr Mark} (h : child receiver left) (name : Name) :
      ReadsAs child mark (.fieldAccess receiver name) (.fieldAccess mark left name)
  | call (name : Name) {args : List ExprId} {es : List (Expr Mark)}
      (hargs : List.Forall₂ child args es) :
      ReadsAs child mark (.methodCall none name args) (.call mark name es)
  | callOn {receiver : ExprId} {left : Expr Mark} (h : child receiver left) (name : Name)
      {args : List ExprId} {es : List (Expr Mark)} (hargs : List.Forall₂ child args es) :
      ReadsAs child mark (.methodCall (some receiver) name args) (.callOn mark left name es)
  | create (type : TypeRef) {args : List ExprId} {es : List (Expr Mark)}
      (hargs : List.Forall₂ child args es) :
      ReadsAs child mark (.create type args) (.create mark type es)
  | createArray (element : TypeSyntax) {dims : List ExprId} {es : List (Expr Mark)}
      (hdims : List.Forall₂ child dims es) :
      ReadsAs child mark (.createArray element dims) (.createArray mark element es)
  | arrayAccess {array index : ExprId} {left right : Expr Mark} (harray : child array left)
      (hindex : child index right) :
      ReadsAs child mark (.arrayAccess array index) (.arrayAccess mark left right)
  | cast (type : TypeSyntax) {operand : ExprId} {e : Expr Mark} (h : child operand e) :
      ReadsAs child mark (.cast type operand) (.cast mark type e)
  | instanceOf {operand : ExprId} {e : Expr Mark} (h : child operand e) (type : TypeSyntax) :
      ReadsAs child mark (.instanceOf operand type) (.instanceOf mark e type)
  | binary (op : BinaryOp) {lhs rhs : ExprId} {left right : Expr Mark} (hlhs : child lhs left)
      (hrhs : child rhs right) :
      ReadsAs child mark (.binary op lhs rhs) (.binary mark op left right)
  | unary (op : UnaryOp) {operand : ExprId} {e : Expr Mark} (h : child operand e) :
      ReadsAs child mark (.unary op operand) (.unary mark op e)
  | incDec (op : IncDecOp) {operand : ExprId} {e : Expr Mark} (h : child operand e) :
      ReadsAs child mark (.incDec op operand) (.incDec mark op e)
  | assign {target value : ExprId} {left right : Expr Mark} (htarget : child target left)
      (hvalue : child value right) :
      ReadsAs child mark (.assign target value) (.assign mark left right)

/-- A statement form is read as a tree when the positions in it are read as the
subtrees. -/
inductive StmtForm.ReadsAs (expr : ExprId → Expr Mark → Prop) (stmt : StmtId → Stmt Mark → Prop)
    (mark : Mark) : StmtForm → Stmt Mark → Prop
  | block {stmts : List StmtId} {ss : List (Stmt Mark)} (h : List.Forall₂ stmt stmts ss) :
      ReadsAs expr stmt mark (.block stmts) (.block mark ss)
  | localVar (type : TypeSyntax) (name : Name) {initializer : Option ExprId}
      {e : Option (Expr Mark)} (h : Option.Rel expr initializer e) :
      ReadsAs expr stmt mark (.localVar type name initializer) (.localVar mark type name e)
  | expression {value : ExprId} {e : Expr Mark} (h : expr value e) :
      ReadsAs expr stmt mark (.expression value) (.expression mark e)
  | branch {condition : ExprId} {e : Expr Mark} (hcondition : expr condition e)
      {thenBranch : StmtId} {s : Stmt Mark} (hthen : stmt thenBranch s)
      {elseBranch : Option StmtId} {t : Option (Stmt Mark)} (helse : Option.Rel stmt elseBranch t) :
      ReadsAs expr stmt mark (.branch condition thenBranch elseBranch) (.branch mark e s t)
  | whileLoop {condition : ExprId} {e : Expr Mark} (hcondition : expr condition e) {body : StmtId}
      {s : Stmt Mark} (hbody : stmt body s) :
      ReadsAs expr stmt mark (.whileLoop condition body) (.whileLoop mark e s)
  | forLoop {init : Option StmtId} {t : Option (Stmt Mark)} (hinit : Option.Rel stmt init t)
      {condition update : Option ExprId} {e f : Option (Expr Mark)}
      (hcondition : Option.Rel expr condition e) (hupdate : Option.Rel expr update f)
      {body : StmtId} {s : Stmt Mark} (hbody : stmt body s) :
      ReadsAs expr stmt mark (.forLoop init condition update body) (.forLoop mark t e f s)
  | returnValue {value : Option ExprId} {e : Option (Expr Mark)} (h : Option.Rel expr value e) :
      ReadsAs expr stmt mark (.returnValue value) (.returnValue mark e)
  | throwValue {value : ExprId} {e : Expr Mark} (h : expr value e) :
      ReadsAs expr stmt mark (.throwValue value) (.throwValue mark e)
  | breakLoop : ReadsAs expr stmt mark .breakLoop (.breakLoop mark)
  | empty : ReadsAs expr stmt mark .empty (.empty mark)
  | constructorCall (call : ConstructorCallKind) {args : List ExprId} {es : List (Expr Mark)}
      (hargs : List.Forall₂ expr args es) :
      ReadsAs expr stmt mark (.constructorCall call args) (.constructorCall mark call es)

section Forall₂

variable {α β : Type} {r r' : α → β → Prop}

theorem forall₂_toList {x : Option α} {y : Option β} :
    List.Forall₂ r x.toList y.toList ↔ Option.Rel r x y := by
  cases x <;> cases y <;> simp

theorem exists_of_forall₂_toList {x : Option α} {ys : List β} (h : List.Forall₂ r x.toList ys) :
    ∃ y : Option β, y.toList = ys ∧ Option.Rel r x y := by
  cases x with
  | none =>
    cases h
    exact ⟨none, rfl, .none⟩
  | some x =>
    obtain _ | ⟨hy, ⟨⟩⟩ := h
    exact ⟨some _, rfl, .some hy⟩

theorem exists_of_forall₂_append {xs xs' : List α} {ys : List β}
    (h : List.Forall₂ r (xs ++ xs') ys) :
    ∃ zs zs', zs ++ zs' = ys ∧ List.Forall₂ r xs zs ∧ List.Forall₂ r xs' zs' :=
  ⟨ys.take xs.length, ys.drop xs.length, List.take_append_drop ..,
    (List.forall₂_take_append _ _ _ h.flip).flip, (List.forall₂_drop_append _ _ _ h.flip).flip⟩

theorem forall₂_of_mem {xs : List α} {ys : List β} (h : List.Forall₂ r xs ys)
    (himp : ∀ x, ∀ y ∈ ys, r x y → r' x y) : List.Forall₂ r' xs ys := by
  induction h with
  | nil => exact .nil
  | cons hxy _ ih =>
    exact .cons (himp _ _ (List.mem_cons_self ..) hxy)
      (ih (fun x y hy => himp x y (List.mem_cons_of_mem _ hy)))

theorem exists_of_mem_forall₂ {xs : List α} {ys : List β} (h : List.Forall₂ r xs ys) {x : α}
    (hx : x ∈ xs) : ∃ y ∈ ys, r x y := by
  induction h with
  | nil => cases hx
  | cons hxy _ ih =>
    obtain rfl | hx := List.mem_cons.mp hx
    · exact ⟨_, List.mem_cons_self .., hxy⟩
    · obtain ⟨y, hy, hrel⟩ := ih hx
      exact ⟨y, List.mem_cons_of_mem _ hy, hrel⟩

end Forall₂

namespace ExprForm

variable {child : ExprId → Expr Mark → Prop} {mark : Mark} {form : ExprForm} {e : Expr Mark}
  {es : List (Expr Mark)}

theorem ReadsAs.note (h : form.ReadsAs child mark e) : e.note = mark := by
  cases h <;> rfl

theorem ReadsAs.children (h : form.ReadsAs child mark e) :
    List.Forall₂ child form.children e.children := by
  cases h with
  | literal => exact .nil
  | named => exact .nil
  | this => exact .nil
  | fieldAccess h => exact .cons h .nil
  | call _ hargs => exact hargs
  | callOn h _ hargs => exact .cons h hargs
  | create _ hargs => exact hargs
  | createArray _ hdims => exact hdims
  | arrayAccess harray hindex => exact .cons harray (.cons hindex .nil)
  | cast _ h => exact .cons h .nil
  | instanceOf h => exact .cons h .nil
  | binary _ hlhs hrhs => exact .cons hlhs (.cons hrhs .nil)
  | unary _ h => exact .cons h .nil
  | incDec _ h => exact .cons h .nil
  | assign htarget hvalue => exact .cons htarget (.cons hvalue .nil)

/-- Subtrees for the positions of a form make up a tree. -/
theorem exists_readsAs (mark : Mark) (h : List.Forall₂ child form.children es) :
    ∃ e, form.ReadsAs child mark e ∧ e.children = es := by
  cases form with
  | literal value =>
    cases h
    exact ⟨_, .literal value, rfl⟩
  | named path =>
    cases h
    exact ⟨_, .named path, rfl⟩
  | this =>
    cases h
    exact ⟨_, .this, rfl⟩
  | fieldAccess receiver name =>
    obtain _ | ⟨hreceiver, ⟨⟩⟩ := h
    exact ⟨_, .fieldAccess hreceiver name, rfl⟩
  | methodCall receiver name args =>
    cases receiver with
    | none => exact ⟨_, .call name h, rfl⟩
    | some receiver =>
      obtain _ | ⟨hreceiver, hargs⟩ := h
      exact ⟨_, .callOn hreceiver name hargs, rfl⟩
  | create type args => exact ⟨_, .create type h, rfl⟩
  | createArray element dims => exact ⟨_, .createArray element h, rfl⟩
  | arrayAccess array index =>
    obtain _ | ⟨harray, _ | ⟨hindex, ⟨⟩⟩⟩ := h
    exact ⟨_, .arrayAccess harray hindex, rfl⟩
  | cast type operand =>
    obtain _ | ⟨hoperand, ⟨⟩⟩ := h
    exact ⟨_, .cast type hoperand, rfl⟩
  | instanceOf operand type =>
    obtain _ | ⟨hoperand, ⟨⟩⟩ := h
    exact ⟨_, .instanceOf hoperand type, rfl⟩
  | binary op lhs rhs =>
    obtain _ | ⟨hlhs, _ | ⟨hrhs, ⟨⟩⟩⟩ := h
    exact ⟨_, .binary op hlhs hrhs, rfl⟩
  | unary op operand =>
    obtain _ | ⟨hoperand, ⟨⟩⟩ := h
    exact ⟨_, .unary op hoperand, rfl⟩
  | incDec op operand =>
    obtain _ | ⟨hoperand, ⟨⟩⟩ := h
    exact ⟨_, .incDec op hoperand, rfl⟩
  | assign target value =>
    obtain _ | ⟨htarget, _ | ⟨hvalue, ⟨⟩⟩⟩ := h
    exact ⟨_, .assign htarget hvalue, rfl⟩

/-- A form and the subtrees determine the tree. -/
theorem ReadsAs.eq_of_children {child' : ExprId → Expr Mark → Prop} {e' : Expr Mark}
    (h : form.ReadsAs child mark e) (h' : form.ReadsAs child' mark e')
    (heq : e.children = e'.children) : e = e' := by
  cases h <;> cases h' <;> simp_all [Expr.children]

end ExprForm

namespace StmtForm

variable {expr : ExprId → Expr Mark → Prop} {stmt : StmtId → Stmt Mark → Prop} {mark : Mark}
  {form : StmtForm} {s : Stmt Mark}

theorem ReadsAs.note (h : form.ReadsAs expr stmt mark s) : s.note = mark := by
  cases h <;> rfl

theorem ReadsAs.exprChildren (h : form.ReadsAs expr stmt mark s) :
    List.Forall₂ expr form.exprChildren s.exprChildren := by
  cases h with
  | block => exact .nil
  | localVar _ _ h => exact forall₂_toList.mpr h
  | expression h => exact .cons h .nil
  | branch hcondition => exact .cons hcondition .nil
  | whileLoop hcondition => exact .cons hcondition .nil
  | forLoop _ hcondition hupdate =>
    exact List.rel_append (forall₂_toList.mpr hcondition) (forall₂_toList.mpr hupdate)
  | returnValue h => exact forall₂_toList.mpr h
  | throwValue h => exact .cons h .nil
  | breakLoop => exact .nil
  | empty => exact .nil
  | constructorCall _ hargs => exact hargs

theorem ReadsAs.stmtChildren (h : form.ReadsAs expr stmt mark s) :
    List.Forall₂ stmt form.stmtChildren s.stmtChildren := by
  cases h with
  | block h => exact h
  | branch _ hthen helse => exact .cons hthen (forall₂_toList.mpr helse)
  | whileLoop _ hbody => exact .cons hbody .nil
  | forLoop hinit _ _ hbody =>
    exact List.rel_append (forall₂_toList.mpr hinit) (.cons hbody .nil)
  | _ => exact .nil

/-- Subtrees for the positions of a form make up a tree. -/
theorem exists_readsAs {es : List (Expr Mark)} {ss : List (Stmt Mark)} (mark : Mark)
    (hes : List.Forall₂ expr form.exprChildren es) (hss : List.Forall₂ stmt form.stmtChildren ss) :
    ∃ s, form.ReadsAs expr stmt mark s ∧ s.exprChildren = es ∧ s.stmtChildren = ss := by
  cases form with
  | block stmts =>
    cases hes
    exact ⟨_, .block hss, rfl, rfl⟩
  | localVar type name initializer =>
    obtain ⟨e, rfl, he⟩ := exists_of_forall₂_toList hes
    cases hss
    exact ⟨_, .localVar type name he, rfl, rfl⟩
  | expression value =>
    obtain _ | ⟨hvalue, ⟨⟩⟩ := hes
    cases hss
    exact ⟨_, .expression hvalue, rfl, rfl⟩
  | branch condition thenBranch elseBranch =>
    obtain _ | ⟨hcondition, ⟨⟩⟩ := hes
    obtain _ | ⟨hthen, hss⟩ := hss
    obtain ⟨t, rfl, helse⟩ := exists_of_forall₂_toList hss
    exact ⟨_, .branch hcondition hthen helse, rfl, rfl⟩
  | whileLoop condition body =>
    obtain _ | ⟨hcondition, ⟨⟩⟩ := hes
    obtain _ | ⟨hbody, ⟨⟩⟩ := hss
    exact ⟨_, .whileLoop hcondition hbody, rfl, rfl⟩
  | forLoop init condition update body =>
    obtain ⟨conditions, updates, rfl, hconditions, hupdates⟩ := exists_of_forall₂_append hes
    obtain ⟨inits, bodies, rfl, hinits, hbodies⟩ := exists_of_forall₂_append hss
    obtain ⟨e, rfl, hcondition⟩ := exists_of_forall₂_toList hconditions
    obtain ⟨f, rfl, hupdate⟩ := exists_of_forall₂_toList hupdates
    obtain ⟨t, rfl, hinit⟩ := exists_of_forall₂_toList hinits
    obtain _ | ⟨hbody, ⟨⟩⟩ := hbodies
    exact ⟨_, .forLoop hinit hcondition hupdate hbody, rfl, rfl⟩
  | returnValue value =>
    obtain ⟨e, rfl, he⟩ := exists_of_forall₂_toList hes
    cases hss
    exact ⟨_, .returnValue he, rfl, rfl⟩
  | throwValue value =>
    obtain _ | ⟨hvalue, ⟨⟩⟩ := hes
    cases hss
    exact ⟨_, .throwValue hvalue, rfl, rfl⟩
  | breakLoop =>
    cases hes
    cases hss
    exact ⟨_, .breakLoop, rfl, rfl⟩
  | empty =>
    cases hes
    cases hss
    exact ⟨_, .empty, rfl, rfl⟩
  | constructorCall call args =>
    cases hss
    exact ⟨_, .constructorCall call hes, rfl, rfl⟩

/-- A form and the subtrees determine the tree. -/
theorem ReadsAs.eq_of_children {expr' : ExprId → Expr Mark → Prop}
    {stmt' : StmtId → Stmt Mark → Prop} {s' : Stmt Mark} (h : form.ReadsAs expr stmt mark s)
    (h' : form.ReadsAs expr' stmt' mark s') (hes : s.exprChildren = s'.exprChildren)
    (hss : s.stmtChildren = s'.stmtChildren) : s = s' := by
  cases h with
  | localVar _ _ h =>
    cases h' with
    | localVar _ _ h' => cases h <;> cases h' <;> simp_all [Stmt.exprChildren]
  | branch hcondition hthen helse =>
    cases h' with
    | branch hcondition' hthen' helse' =>
      cases helse <;> cases helse' <;> simp_all [Stmt.exprChildren, Stmt.stmtChildren]
  | forLoop hinit hcondition hupdate hbody =>
    cases h' with
    | forLoop hinit' hcondition' hupdate' hbody' =>
      cases hinit <;> cases hinit' <;> cases hcondition <;> cases hcondition' <;>
        cases hupdate <;> cases hupdate' <;> simp_all [Stmt.exprChildren, Stmt.stmtChildren]
  | returnValue h =>
    cases h' with
    | returnValue h' => cases h <;> cases h' <;> simp_all [Stmt.exprChildren]
  | _ =>
    cases h'
    simp_all [Stmt.exprChildren, Stmt.stmtChildren]

end StmtForm

namespace BodyArena

variable {a : BodyArena}

theorem mapM_eq_some_iff {β γ : Type} {f : β → Option γ} {xs : List β} {ys : List γ} :
    xs.mapM f = some ys ↔ List.Forall₂ (fun x y => f x = some y) xs ys := by
  induction xs generalizing ys with
  | nil => simp [eq_comm]
  | cons x xs ih =>
    rw [List.forall₂_cons_left_iff]
    simp [Option.bind_eq_some_iff, ih, @eq_comm _ _ ys]

theorem exprOption?_eq_some_iff {id : Option ExprId} {e : Option (Expr Mark)} :
    a.exprOption? id = some e ↔ Option.Rel (fun id e => a.expr? id = some e) id e := by
  cases id <;> cases e <;> simp [exprOption?]

/-- A position is read as a tree when it holds a form that is. -/
theorem readExpr?_succ {depth : Nat} {id : ExprId} {e : Expr Mark} :
    a.readExpr? (depth + 1) id = some e ↔ ∃ node, a.exprs[id]? = some node ∧
      node.form.ReadsAs (fun id e => a.readExpr? depth id = some e) ⟨id, node.range⟩ e := by
  constructor
  · intro h
    unfold readExpr? at h
    split at h
    · cases h
    · rename_i node hnode
      refine ⟨node, hnode, ?_⟩
      split at h <;> rename_i hform <;> rw [hform] <;>
        simp only [Option.pure_def, Option.bind_eq_bind, Option.bind_eq_some_iff,
          Option.some.injEq, mapM_eq_some_iff] at h
      · obtain rfl := h
        exact .literal _
      · obtain rfl := h
        exact .named _
      · obtain rfl := h
        exact .this
      · obtain ⟨left, hleft, rfl⟩ := h
        exact .fieldAccess hleft _
      · obtain ⟨args, hargs, rfl⟩ := h
        exact .call _ hargs
      · obtain ⟨left, hleft, args, hargs, rfl⟩ := h
        exact .callOn hleft _ hargs
      · obtain ⟨args, hargs, rfl⟩ := h
        exact .create _ hargs
      · obtain ⟨dims, hdims, rfl⟩ := h
        exact .createArray _ hdims
      · obtain ⟨left, hleft, right, hright, rfl⟩ := h
        exact .arrayAccess hleft hright
      · obtain ⟨operand, hoperand, rfl⟩ := h
        exact .cast _ hoperand
      · obtain ⟨operand, hoperand, rfl⟩ := h
        exact .instanceOf hoperand _
      · obtain ⟨left, hleft, right, hright, rfl⟩ := h
        exact .binary _ hleft hright
      · obtain ⟨operand, hoperand, rfl⟩ := h
        exact .unary _ hoperand
      · obtain ⟨operand, hoperand, rfl⟩ := h
        exact .incDec _ hoperand
      · obtain ⟨left, hleft, right, hright, rfl⟩ := h
        exact .assign hleft hright
  · rintro ⟨⟨form, range⟩, hnode, h⟩
    unfold readExpr?
    rw [hnode]
    cases h <;> simp_all [mapM_eq_some_iff, Option.bind_eq_some_iff]

theorem readStmt?_succ {depth : Nat} {id : StmtId} {s : Stmt Mark} :
    a.readStmt? (depth + 1) id = some s ↔ ∃ node, a.stmts[id]? = some node ∧
      node.form.ReadsAs (fun id e => a.expr? id = some e)
        (fun id s => a.readStmt? depth id = some s) ⟨id, node.range⟩ s := by
  constructor
  · intro h
    unfold readStmt? at h
    split at h
    · cases h
    · rename_i node hnode
      refine ⟨node, hnode, ?_⟩
      split at h <;> rename_i hform <;> rw [hform] <;>
        simp only [Option.pure_def, Option.bind_eq_bind, Option.bind_eq_some_iff,
          Option.some.injEq, mapM_eq_some_iff, exprOption?_eq_some_iff] at h
      · obtain ⟨stmts, hstmts, rfl⟩ := h
        exact .block hstmts
      · obtain ⟨initializer, hinitializer, rfl⟩ := h
        exact .localVar _ _ hinitializer
      · obtain ⟨value, hvalue, rfl⟩ := h
        exact .expression hvalue
      · obtain ⟨condition, hcondition, thenBranch, hthen, rfl⟩ := h
        exact .branch hcondition hthen .none
      · obtain ⟨condition, hcondition, thenBranch, hthen, elseBranch, helse, rfl⟩ := h
        exact .branch hcondition hthen (.some helse)
      · obtain ⟨condition, hcondition, body, hbody, rfl⟩ := h
        exact .whileLoop hcondition hbody
      · obtain ⟨condition, hcondition, update, hupdate, body, hbody, rfl⟩ := h
        exact .forLoop .none hcondition hupdate hbody
      · obtain ⟨init, hinit, condition, hcondition, update, hupdate, body, hbody, rfl⟩ := h
        exact .forLoop (.some hinit) hcondition hupdate hbody
      · obtain ⟨value, hvalue, rfl⟩ := h
        exact .returnValue hvalue
      · obtain ⟨value, hvalue, rfl⟩ := h
        exact .throwValue hvalue
      · obtain rfl := h
        exact .breakLoop
      · obtain rfl := h
        exact .empty
      · obtain ⟨args, hargs, rfl⟩ := h
        exact .constructorCall _ hargs
  · rintro ⟨⟨form, range⟩, hnode, h⟩
    unfold readStmt?
    rw [hnode]
    cases h with
    | branch hcondition hthen helse =>
      cases helse <;> simp_all
    | forLoop hinit hcondition hupdate hbody =>
      rw [← exprOption?_eq_some_iff] at hcondition hupdate
      cases hinit <;> simp_all
    | localVar _ _ h => simp [exprOption?_eq_some_iff.mpr h]
    | returnValue h => simp [exprOption?_eq_some_iff.mpr h]
    | block h => simp [mapM_eq_some_iff.mpr h]
    | constructorCall call hargs => simp [mapM_eq_some_iff.mpr hargs]
    | _ => simp_all

end BodyArena

/-! ## §2 The walk over the pending nodes -/

/-- Of pending trees, the first statement gives way to what is directly inside it. -/
theorem Stmt.pendingNodes_perm (s : Stmt Mark) (ss : List (Stmt Mark)) (es : List (Expr Mark)) :
    ((s :: ss).flatMap Stmt.nodes ++ es.flatMap Expr.nodes).Perm
      (.stmt s.note.id :: ((s.stmtChildren ++ ss).flatMap Stmt.nodes ++
        (s.exprChildren ++ es).flatMap Expr.nodes)) := by
  rw [List.flatMap_cons, Stmt.nodes_eq, List.flatMap_append, List.flatMap_append,
    List.cons_append, List.cons_append]
  refine .cons _ (List.perm_iff_count.mpr (fun n => ?_))
  simp only [List.count_append]
  omega

/-- Of pending expressions, the first one gives way to its operands. -/
theorem Expr.pendingNodes_eq (e : Expr Mark) (es : List (Expr Mark)) :
    (e :: es).flatMap Expr.nodes = .expr e.note.id :: (e.children ++ es).flatMap Expr.nodes := by
  rw [List.flatMap_cons, Expr.nodes_eq, List.flatMap_append, List.cons_append]

namespace BodyArena

variable {a : BodyArena}

/-- A position holds a tree, as deep as the tree has nodes. -/
def HoldsExpr (a : BodyArena) (id : ExprId) (e : Expr Mark) : Prop :=
  ∀ depth, e.parts.length ≤ depth → a.readExpr? depth id = some e

/-- A position holds a tree, as deep as the tree has statements. -/
def HoldsStmt (a : BodyArena) (id : StmtId) (s : Stmt Mark) : Prop :=
  ∀ depth, s.parts.length ≤ depth → a.readStmt? depth id = some s

/-- Nodes that are in bounds, distinct, and not among those seen. -/
structure AreNew (a : BodyArena) (seen nodes : List NodeId) : Prop where
  nodup : nodes.Nodup
  inBounds : ∀ n ∈ nodes, a.hasNode n = true
  notSeen : ∀ n ∈ nodes, n ∉ seen

theorem AreNew.nil {seen : List NodeId} : a.AreNew seen [] := ⟨List.nodup_nil, nofun, nofun⟩

theorem AreNew.perm {seen nodes nodes' : List NodeId} (h : a.AreNew seen nodes)
    (hperm : nodes'.Perm nodes) : a.AreNew seen nodes' where
  nodup := hperm.nodup_iff.mpr h.nodup
  inBounds := fun n hn => h.inBounds n (hperm.mem_iff.mp hn)
  notSeen := fun n hn => h.notSeen n (hperm.mem_iff.mp hn)

theorem AreNew.sublist {seen nodes nodes' : List NodeId} (h : a.AreNew seen nodes)
    (hsub : nodes'.Sublist nodes) : a.AreNew seen nodes' where
  nodup := h.nodup.sublist hsub
  inBounds := fun n hn => h.inBounds n (hsub.subset hn)
  notSeen := fun n hn => h.notSeen n (hsub.subset hn)

theorem AreNew.of_subset {seen seen' nodes : List NodeId} (h : a.AreNew seen nodes)
    (hsub : seen' ⊆ seen) : a.AreNew seen' nodes where
  nodup := h.nodup
  inBounds := h.inBounds
  notSeen := fun n hn hmem => h.notSeen n hn (hsub hmem)

theorem AreNew.of_mem {α : Type} {seen : List NodeId} {f : α → List NodeId} {x : α} {xs : List α}
    (h : a.AreNew seen (xs.flatMap f)) (hx : x ∈ xs) : a.AreNew seen (f x) := by
  obtain ⟨before, after, rfl⟩ := List.append_of_mem hx
  rw [List.flatMap_append, List.flatMap_cons] at h
  exact h.sublist ((List.sublist_append_left ..).trans (List.sublist_append_right ..))

/-- A node that is in bounds and not seen is new along with nodes that are new
once it has been seen. -/
theorem AreNew.cons {seen nodes : List NodeId} {n : NodeId} (h : a.AreNew (n :: seen) nodes)
    (hbound : a.hasNode n = true) (hseen : n ∉ seen) : a.AreNew seen (n :: nodes) where
  nodup := List.nodup_cons.mpr ⟨fun hn => h.notSeen n hn (List.mem_cons_self ..), h.nodup⟩
  inBounds := List.forall_mem_cons.mpr ⟨hbound, h.inBounds⟩
  notSeen := List.forall_mem_cons.mpr
    ⟨hseen, fun m hm hmem => h.notSeen m hm (List.mem_cons_of_mem _ hmem)⟩

/-- Distinct positions below a bound are at most that many. -/
theorem length_le_of_nodup {ids : List Nat} {size : Nat} (hnodup : ids.Nodup)
    (hlt : ∀ id ∈ ids, id < size) : ids.length ≤ size := by
  have hsub : ids ⊆ List.range size := fun id hid => List.mem_range.mpr (hlt id hid)
  simpa using (hnodup.subperm hsub).length_le

/-- A tree whose nodes are distinct is not deeper than its arena. -/
theorem HoldsExpr.expr? {seen : List NodeId} {id : ExprId} {e : Expr Mark}
    (h : a.HoldsExpr id e) (hnew : a.AreNew seen e.nodes) : a.expr? id = some e := by
  have hlt : ∀ id ∈ e.ids, id < a.exprs.size := fun id hid =>
    of_decide_eq_true (hnew.inBounds (.expr id) (List.mem_map_of_mem hid))
  have hlength := length_le_of_nodup hnew.nodup.of_map hlt
  exact h _ (by simpa [Expr.ids] using hlength)

theorem HoldsStmt.stmt? {seen : List NodeId} {id : StmtId} {s : Stmt Mark}
    (h : a.HoldsStmt id s) (hnew : a.AreNew seen s.nodes) : a.stmt? id = some s := by
  have hnew := hnew.sublist s.stmtNodes_sublist
  have hlt : ∀ id ∈ s.parts.map (fun part => part.note.id), id < a.stmts.size := by
    intro id hid
    obtain ⟨part, hpart, rfl⟩ := List.mem_map.mp hid
    exact of_decide_eq_true (hnew.inBounds _ (List.mem_map_of_mem hpart))
  have hnodup : (s.parts.map (fun part => part.note.id)).Nodup := by
    refine List.Nodup.of_map NodeId.stmt ?_
    rw [List.map_map]
    exact hnew.nodup
  exact h _ (by simpa using length_le_of_nodup hnodup hlt)

theorem length_le_flatMap {β γ : Type} (f : β → List γ) {x : β} {xs : List β} (h : x ∈ xs) :
    (f x).length ≤ (xs.flatMap f).length := by
  obtain ⟨before, after, rfl⟩ := List.append_of_mem h
  simp only [List.flatMap_append, List.flatMap_cons, List.length_append]
  omega

theorem exists_holdsExpr {id : ExprId} {node : ExprNode} (hnode : a.exprs[id]? = some node)
    {es : List (Expr Mark)} (h : List.Forall₂ a.HoldsExpr node.form.children es) :
    ∃ e, a.HoldsExpr id e ∧ e.note.id = id ∧ e.children = es := by
  obtain ⟨e, hreads, hchildren⟩ := ExprForm.exists_readsAs ⟨id, node.range⟩ h
  refine ⟨e, ?_, by rw [hreads.note], hchildren⟩
  intro depth hdepth
  rw [Expr.parts_eq, hchildren, List.length_cons] at hdepth
  cases depth with
  | zero => cases hdepth
  | succ depth =>
    have hbelow : List.Forall₂ (fun id e => a.readExpr? depth id = some e) node.form.children es :=
      forall₂_of_mem h (fun _ child hchild hholds => hholds depth
        (Nat.le_trans (length_le_flatMap Expr.parts hchild) (Nat.le_of_succ_le_succ hdepth)))
    obtain ⟨e', hreads', hchildren'⟩ := ExprForm.exists_readsAs ⟨id, node.range⟩ hbelow
    rw [hreads.eq_of_children hreads' (hchildren.trans hchildren'.symm), readExpr?_succ]
    exact ⟨node, hnode, hreads'⟩

theorem exists_holdsStmt {id : StmtId} {node : StmtNode} (hnode : a.stmts[id]? = some node)
    {es : List (Expr Mark)} {ss : List (Stmt Mark)}
    (hes : List.Forall₂ (fun id e => a.expr? id = some e) node.form.exprChildren es)
    (hss : List.Forall₂ a.HoldsStmt node.form.stmtChildren ss) :
    ∃ s, a.HoldsStmt id s ∧ s.note.id = id ∧ s.exprChildren = es ∧ s.stmtChildren = ss := by
  obtain ⟨s, hreads, hexprs, hstmts⟩ := StmtForm.exists_readsAs ⟨id, node.range⟩ hes hss
  refine ⟨s, ?_, by rw [hreads.note], hexprs, hstmts⟩
  intro depth hdepth
  rw [Stmt.parts_eq, hstmts, List.length_cons] at hdepth
  cases depth with
  | zero => cases hdepth
  | succ depth =>
    have hbelow : List.Forall₂ (fun id s => a.readStmt? depth id = some s)
        node.form.stmtChildren ss :=
      forall₂_of_mem hss (fun _ child hchild hholds => hholds depth
        (Nat.le_trans (length_le_flatMap Stmt.parts hchild) (Nat.le_of_succ_le_succ hdepth)))
    obtain ⟨s', hreads', hexprs', hstmts'⟩ := StmtForm.exists_readsAs ⟨id, node.range⟩ hes hbelow
    rw [hreads.eq_of_children hreads' (hexprs.trans hexprs'.symm) (hstmts.trans hstmts'.symm),
      readStmt?_succ]
    exact ⟨node, hnode, hreads'⟩

theorem inBounds_of_expr (hwf : a.isWellFormed = true) {id : ExprId} {node : ExprNode}
    (hnode : a.exprs[id]? = some node) : ∀ child ∈ node.form.children, a.hasExpr child = true := by
  rw [isWellFormed, Bool.and_eq_true] at hwf
  exact List.all_eq_true.mp (List.all_eq_true.mp hwf.2 node (Array.mem_of_getElem? hnode).val)

theorem inBounds_of_stmt (hwf : a.isWellFormed = true) {id : StmtId} {node : StmtNode}
    (hnode : a.stmts[id]? = some node) :
    (∀ child ∈ node.form.stmtChildren, a.hasStmt child = true) ∧
    (∀ child ∈ node.form.exprChildren, a.hasExpr child = true) := by
  rw [isWellFormed, Bool.and_eq_true] at hwf
  have h := List.all_eq_true.mp hwf.1 node (Array.mem_of_getElem? hnode).val
  rw [Bool.and_eq_true] at h
  exact ⟨List.all_eq_true.mp h.1, List.all_eq_true.mp h.2⟩

/-- Pending positions hold trees, whose nodes are new. -/
def HoldNewTrees (a : BodyArena) (seen : List NodeId) (stmts : List StmtId) (exprs : List ExprId) :
    Prop :=
  ∃ ss es, List.Forall₂ a.HoldsStmt stmts ss ∧ List.Forall₂ a.HoldsExpr exprs es ∧
    a.AreNew seen (ss.flatMap Stmt.nodes ++ es.flatMap Expr.nodes)

/-- One more statement is pending when what is inside it is. -/
theorem HoldNewTrees.cons_stmt {seen : List NodeId} {stmts : List StmtId} {exprs : List ExprId}
    {id : StmtId} {node : StmtNode} (hnode : a.stmts[id]? = some node) (hnew : .stmt id ∉ seen)
    (h : a.HoldNewTrees (.stmt id :: seen) (node.form.stmtChildren ++ stmts)
      (node.form.exprChildren ++ exprs)) : a.HoldNewTrees seen (id :: stmts) exprs := by
  obtain ⟨ss, es, hss, hes, hfresh⟩ := h
  obtain ⟨children, ss, rfl, hchildren, hss⟩ := exists_of_forall₂_append hss
  obtain ⟨operands, es, rfl, hoperands, hes⟩ := exists_of_forall₂_append hes
  have hread : List.Forall₂ (fun id e => a.expr? id = some e) node.form.exprChildren operands := by
    have hnodes := hfresh.sublist (List.sublist_append_right ..)
    exact forall₂_of_mem hoperands (fun _ e he hholds =>
      hholds.expr? (hnodes.of_mem (List.mem_append_left _ he)))
  obtain ⟨s, hs, hid, hsexprs, hsstmts⟩ := exists_holdsStmt hnode hread hchildren
  have hbound : a.hasNode (.stmt id) = true :=
    decide_eq_true (Array.getElem?_eq_some_iff.mp hnode).1
  refine ⟨s :: ss, es, .cons hs hss, hes, (hfresh.cons hbound hnew).perm ?_⟩
  rw [← hid, ← hsexprs, ← hsstmts]
  exact Stmt.pendingNodes_perm s ss es

/-- One more expression is pending when what is inside it is. -/
theorem HoldNewTrees.cons_expr {seen : List NodeId} {exprs : List ExprId} {id : ExprId}
    {node : ExprNode} (hnode : a.exprs[id]? = some node) (hnew : .expr id ∉ seen)
    (h : a.HoldNewTrees (.expr id :: seen) [] (node.form.children ++ exprs)) :
    a.HoldNewTrees seen [] (id :: exprs) := by
  obtain ⟨ss, es, hss, hes, hfresh⟩ := h
  cases hss
  obtain ⟨operands, es, rfl, hoperands, hes⟩ := exists_of_forall₂_append hes
  obtain ⟨e, he, hid, hchildren⟩ := exists_holdsExpr hnode hoperands
  have hbound : a.hasNode (.expr id) = true :=
    decide_eq_true (Array.getElem?_eq_some_iff.mp hnode).1
  refine ⟨[], e :: es, .nil, .cons he hes, ?_⟩
  rw [Expr.pendingNodes_eq, hid, hchildren]
  exact hfresh.cons hbound hnew

/-- When no node comes up twice, every pending position holds a tree, and the
nodes of the trees are new. -/
theorem holdNewTrees_of_visitsOnce (hwf : a.isWellFormed = true) {fuel : Nat} {stmts : List StmtId}
    {exprs : List ExprId} {seenStmts : List StmtId} {seenExprs : List ExprId}
    (hstmts : ∀ id ∈ stmts, a.hasStmt id = true) (hexprs : ∀ id ∈ exprs, a.hasExpr id = true)
    (h : a.visitsOnce fuel stmts exprs seenStmts seenExprs = true) :
    a.HoldNewTrees (seenStmts.map .stmt ++ seenExprs.map .expr) stmts exprs := by
  induction fuel generalizing stmts exprs seenStmts seenExprs with
  | zero => cases h
  | succ fuel ih =>
    cases stmts with
    | cons id stmts =>
      obtain ⟨hid, hstmts⟩ := List.forall_mem_cons.mp hstmts
      obtain ⟨node, hnode⟩ : ∃ node, a.stmts[id]? = some node :=
        ⟨_, Array.getElem?_eq_getElem (of_decide_eq_true hid)⟩
      obtain ⟨hinside, hbelow⟩ := inBounds_of_stmt hwf hnode
      unfold visitsOnce at h
      split at h
      · cases h
      · rename_i hnew
        rw [stmtChildrenOf, stmtOperandsOf, hnode, Option.elim, Option.elim] at h
        refine .cons_stmt hnode (by simpa using hnew) ?_
        exact ih (List.forall_mem_append.mpr ⟨hinside, hstmts⟩)
          (List.forall_mem_append.mpr ⟨hbelow, hexprs⟩) h
    | nil =>
      cases exprs with
      | nil => exact ⟨[], [], .nil, .nil, .nil⟩
      | cons id exprs =>
        obtain ⟨hid, hexprs⟩ := List.forall_mem_cons.mp hexprs
        obtain ⟨node, hnode⟩ : ∃ node, a.exprs[id]? = some node :=
          ⟨_, Array.getElem?_eq_getElem (of_decide_eq_true hid)⟩
        unfold visitsOnce at h
        split at h
        · cases h
        · rename_i hnew
          rw [operandsOf, hnode, Option.elim] at h
          obtain ⟨ss, es, hss, hes, hfresh⟩ := ih hstmts
            (List.forall_mem_append.mpr ⟨inBounds_of_expr hwf hnode, hexprs⟩) h
          exact .cons_expr hnode (by simpa using hnew)
            ⟨ss, es, hss, hes, hfresh.of_subset List.perm_middle.symm.subset⟩

/-! ## §3 The roots of a declaration -/

/-- Nodes of an arena that are in bounds and distinct. -/
abbrev AreDistinct (a : BodyArena) (nodes : List NodeId) : Prop := a.AreNew [] nodes

/-- Roots that form disjoint trees can all be read. -/
theorem exists_trees (hwf : a.isWellFormed = true) {stmtRoots : List StmtId}
    {exprRoots : List ExprId} (hstmts : ∀ id ∈ stmtRoots, a.hasStmt id = true)
    (hexprs : ∀ id ∈ exprRoots, a.hasExpr id = true)
    (h : a.formsTrees stmtRoots exprRoots = true) :
    ∃ ss es, List.Forall₂ (fun id s => a.stmt? id = some s) stmtRoots ss ∧
      List.Forall₂ (fun id e => a.expr? id = some e) exprRoots es ∧
      a.AreDistinct (ss.flatMap Stmt.nodes ++ es.flatMap Expr.nodes) := by
  obtain ⟨ss, es, hss, hes, hnew⟩ := holdNewTrees_of_visitsOnce hwf hstmts hexprs h
  refine ⟨ss, es, ?_, ?_, hnew⟩
  · exact forall₂_of_mem hss (fun _ s hs hholds =>
      hholds.stmt? ((hnew.sublist (List.sublist_append_left ..)).of_mem hs))
  · exact forall₂_of_mem hes (fun _ e he hholds =>
      hholds.expr? ((hnew.sublist (List.sublist_append_right ..)).of_mem he))

end BodyArena

namespace TypeDecl

variable {d : TypeDecl}

theorem exists_trees (h : d.isWellFormed = true) :
    ∃ ss es, List.Forall₂ (fun id s => d.bodies.stmt? id = some s) d.stmtRoots ss ∧
      List.Forall₂ (fun id e => d.bodies.expr? id = some e) d.exprRoots es ∧
      d.bodies.AreDistinct (ss.flatMap Stmt.nodes ++ es.flatMap Expr.nodes) := by
  rw [isWellFormed] at h
  simp only [Bool.and_eq_true] at h
  obtain ⟨⟨⟨hwf, hexprs⟩, hstmts⟩, htrees⟩ := h
  exact BodyArena.exists_trees hwf (List.all_eq_true.mp hstmts) (List.all_eq_true.mp hexprs) htrees

/-- The body of a member of a well-formed declaration can be read. -/
theorem exists_stmt (h : d.isWellFormed = true) {root : StmtId} (hroot : root ∈ d.stmtRoots) :
    ∃ s, d.bodies.stmt? root = some s ∧ d.bodies.AreDistinct s.nodes := by
  obtain ⟨ss, es, hss, -, hnew⟩ := exists_trees h
  obtain ⟨s, hs, hread⟩ := exists_of_mem_forall₂ hss hroot
  exact ⟨s, hread, (hnew.sublist (List.sublist_append_left ..)).of_mem hs⟩

/-- The initializer of a field of a well-formed declaration can be read. -/
theorem exists_expr (h : d.isWellFormed = true) {root : ExprId} (hroot : root ∈ d.exprRoots) :
    ∃ e, d.bodies.expr? root = some e ∧ d.bodies.AreDistinct e.nodes := by
  obtain ⟨ss, es, -, hes, hnew⟩ := exists_trees h
  obtain ⟨e, he, hread⟩ := exists_of_mem_forall₂ hes hroot
  exact ⟨e, hread, (hnew.sublist (List.sublist_append_right ..)).of_mem he⟩

end TypeDecl

end JoosStatics
