/-
JoosStatics.Proofs.Syntax.Reaching — the nodes of a tree are those that are
reached from its root.

§1 reads trees from arenas that grow: a tree that is found once is found again
when more nodes have been added, and its parts are found at their own
positions. §2 goes from a node to the nodes directly inside it. The nodes that are reached from the root of a tree in this way are
the nodes of the tree (`reaches_iff_of_expr?`, `reaches_iff_of_stmt?`), so two
roots reach no node in common when their trees have none.

§3 is the converse of `exists_trees`: roots with trees that share no node pass
the check of `formsTrees`.
-/
import Mathlib.Logic.Relation
import JoosStatics.Proofs.Syntax.Reading

namespace JoosStatics

/-! ## §1 Arenas that grow -/

theorem ExprForm.ReadsAs.imp {child child' : ExprId → Expr Mark → Prop} {mark : Mark}
    {form : ExprForm} {e : Expr Mark} (h : form.ReadsAs child mark e)
    (himp : ∀ id e, child id e → child' id e) : form.ReadsAs child' mark e := by
  obtain ⟨e', he', hes⟩ := ExprForm.exists_readsAs mark (h.children.imp himp)
  rwa [← h.eq_of_children he' hes.symm] at he'

theorem StmtForm.ReadsAs.imp {expr expr' : ExprId → Expr Mark → Prop}
    {stmt stmt' : StmtId → Stmt Mark → Prop} {mark : Mark} {form : StmtForm} {s : Stmt Mark}
    (h : form.ReadsAs expr stmt mark s) (hexpr : ∀ id e, expr id e → expr' id e)
    (hstmt : ∀ id s, stmt id s → stmt' id s) : form.ReadsAs expr' stmt' mark s := by
  obtain ⟨s', hs', hes, hss⟩ :=
    StmtForm.exists_readsAs mark (h.exprChildren.imp hexpr) (h.stmtChildren.imp hstmt)
  rwa [← h.eq_of_children hs' hes.symm hss.symm] at hs'

namespace BodyArena

variable {a a' a'' : BodyArena}

/-- A later arena still has all nodes of an earlier one. -/
structure Grows (a a' : BodyArena) : Prop where
  stmt : ∀ {id : StmtId} {node : StmtNode}, a.stmts[id]? = some node → a'.stmts[id]? = some node
  expr : ∀ {id : ExprId} {node : ExprNode}, a.exprs[id]? = some node → a'.exprs[id]? = some node

namespace Grows

theorem refl (a : BodyArena) : a.Grows a := ⟨id, id⟩

theorem trans (h : a.Grows a') (h' : a'.Grows a'') : a.Grows a'' :=
  ⟨fun hnode => h'.stmt (h.stmt hnode), fun hnode => h'.expr (h.expr hnode)⟩

theorem stmts_size_le (h : a.Grows a') : a.stmts.size ≤ a'.stmts.size := by
  by_contra hlt
  have hnode := h.stmt (Array.getElem?_eq_getElem (Nat.lt_of_not_le hlt))
  exact Nat.lt_irrefl _ (Array.getElem?_eq_some_iff.mp hnode).1

theorem exprs_size_le (h : a.Grows a') : a.exprs.size ≤ a'.exprs.size := by
  by_contra hlt
  have hnode := h.expr (Array.getElem?_eq_getElem (Nat.lt_of_not_le hlt))
  exact Nat.lt_irrefl _ (Array.getElem?_eq_some_iff.mp hnode).1

theorem readExpr? (h : a.Grows a') {depth depth' : Nat} {id : ExprId} {e : Expr Mark}
    (hread : a.readExpr? depth id = some e) (hle : depth ≤ depth') :
    a'.readExpr? depth' id = some e := by
  induction depth generalizing depth' id e with
  | zero => cases hread
  | succ depth ih =>
    cases depth' with
    | zero => cases hle
    | succ depth' =>
      obtain ⟨node, hnode, hreads⟩ := readExpr?_succ.mp hread
      exact readExpr?_succ.mpr
        ⟨node, h.expr hnode, hreads.imp (fun _ _ h => ih h (Nat.le_of_succ_le_succ hle))⟩

/-- An expression that is found stays where it is. -/
theorem expr? (h : a.Grows a') {id : ExprId} {e : Expr Mark} (hread : a.expr? id = some e) :
    a'.expr? id = some e :=
  h.readExpr? hread h.exprs_size_le

theorem readStmt? (h : a.Grows a') {depth depth' : Nat} {id : StmtId} {s : Stmt Mark}
    (hread : a.readStmt? depth id = some s) (hle : depth ≤ depth') :
    a'.readStmt? depth' id = some s := by
  induction depth generalizing depth' id s with
  | zero => cases hread
  | succ depth ih =>
    cases depth' with
    | zero => cases hle
    | succ depth' =>
      obtain ⟨node, hnode, hreads⟩ := readStmt?_succ.mp hread
      exact readStmt?_succ.mpr ⟨node, h.stmt hnode,
        hreads.imp (fun _ _ => h.expr?) (fun _ _ h => ih h (Nat.le_of_succ_le_succ hle))⟩

/-- A statement that is found stays where it is. -/
theorem stmt? (h : a.Grows a') {id : StmtId} {s : Stmt Mark} (hread : a.stmt? id = some s) :
    a'.stmt? id = some s :=
  h.readStmt? hread h.stmts_size_le

end Grows

/-- The node of an expression that can be read, and how its operands are read. -/
theorem exists_of_expr? {id : ExprId} {e : Expr Mark} (h : a.expr? id = some e) :
    ∃ node, a.exprs[id]? = some node ∧
      node.form.ReadsAs (fun id e => a.expr? id = some e) ⟨id, node.range⟩ e :=
  readExpr?_succ.mp ((Grows.refl a).readExpr? h (Nat.le_succ _))

/-- The node of a statement that can be read, and how what is inside it is read. -/
theorem exists_of_stmt? {id : StmtId} {s : Stmt Mark} (h : a.stmt? id = some s) :
    ∃ node, a.stmts[id]? = some node ∧ node.form.ReadsAs (fun id e => a.expr? id = some e)
      (fun id s => a.stmt? id = some s) ⟨id, node.range⟩ s :=
  readStmt?_succ.mp ((Grows.refl a).readStmt? h (Nat.le_succ _))

/-- Where an expression is found, its root stands, and its operands are found at those of its
node. -/
theorem of_expr? {id : ExprId} {e : Expr Mark} (h : a.expr? id = some e) :
    e.note.id = id ∧ a.hasExpr id = true ∧
      List.Forall₂ (fun id e => a.expr? id = some e) (a.operandsOf id) e.children := by
  obtain ⟨node, hnode, hreads⟩ := exists_of_expr? h
  refine ⟨by rw [hreads.note], decide_eq_true (Array.getElem?_eq_some_iff.mp hnode).1, ?_⟩
  rw [operandsOf, hnode]
  exact hreads.children

/-- Where a statement is found, its root stands, and what is inside it is found at the
positions in its node. -/
theorem of_stmt? {id : StmtId} {s : Stmt Mark} (h : a.stmt? id = some s) :
    s.note.id = id ∧ a.hasStmt id = true ∧
      List.Forall₂ (fun id e => a.expr? id = some e) (a.stmtOperandsOf id) s.exprChildren ∧
      List.Forall₂ (fun id s => a.stmt? id = some s) (a.stmtChildrenOf id) s.stmtChildren := by
  obtain ⟨node, hnode, hreads⟩ := exists_of_stmt? h
  refine ⟨by rw [hreads.note], decide_eq_true (Array.getElem?_eq_some_iff.mp hnode).1, ?_⟩
  rw [stmtOperandsOf, stmtChildrenOf, hnode]
  exact ⟨hreads.exprChildren, hreads.stmtChildren⟩

/-- What stands inside an expression that is found is found at its own position. -/
theorem expr?_of_part {id : ExprId} {e part : Expr Mark} (h : a.expr? id = some e)
    (hpart : part ∈ e.parts) : a.expr? part.note.id = some part := by
  induction e using Expr.induction generalizing id with
  | _ e ih =>
    obtain ⟨hid, -, hchildren⟩ := of_expr? h
    rw [Expr.parts_eq] at hpart
    rcases List.mem_cons.mp hpart with rfl | hpart
    · rw [hid]
      exact h
    · obtain ⟨child, hchild, hpart⟩ := List.mem_flatMap.mp hpart
      obtain ⟨childId, -, hread⟩ := exists_of_mem_forall₂ hchildren.flip hchild
      exact ih child hchild hread hpart

/-- What stands inside a statement that is found is found at its own position. -/
theorem stmt?_of_part {id : StmtId} {s part : Stmt Mark} (h : a.stmt? id = some s)
    (hpart : part ∈ s.parts) : a.stmt? part.note.id = some part := by
  induction s using Stmt.induction generalizing id with
  | _ s ih =>
    obtain ⟨hid, -, -, hchildren⟩ := of_stmt? h
    rw [Stmt.parts_eq] at hpart
    rcases List.mem_cons.mp hpart with rfl | hpart
    · rw [hid]
      exact h
    · obtain ⟨child, hchild, hpart⟩ := List.mem_flatMap.mp hpart
      obtain ⟨childId, -, hread⟩ := exists_of_mem_forall₂ hchildren.flip hchild
      exact ih child hchild hread hpart

/-- The expressions of a statement that is found are found at their own positions. -/
theorem expr?_of_exprs {id : StmtId} {s : Stmt Mark} {e : Expr Mark} (h : a.stmt? id = some s)
    (he : e ∈ s.exprs) : a.expr? e.note.id = some e := by
  obtain ⟨part, hpart, he⟩ := List.mem_flatMap.mp he
  obtain ⟨child, hchild, he⟩ := List.mem_flatMap.mp he
  obtain ⟨-, -, hoperands, -⟩ := of_stmt? (stmt?_of_part h hpart)
  obtain ⟨childId, -, hread⟩ := exists_of_mem_forall₂ hoperands.flip hchild
  exact expr?_of_part hread he

/-- No expression that is found stands inside one of its operands. -/
theorem note_id_notMem_of_expr? {id : ExprId} {e : Expr Mark} (h : a.expr? id = some e) :
    ∀ child ∈ e.children, e.note.id ∉ child.ids := by
  intro child hchild hmem
  obtain ⟨part, hpart, hid⟩ := List.mem_map.mp hmem
  have hinside : part ∈ e.parts := by
    rw [Expr.parts_eq]
    exact List.mem_cons_of_mem _ (List.mem_flatMap.mpr ⟨child, hchild, hpart⟩)
  have hself := expr?_of_part h e.self_mem_parts
  have heq : part = e := by
    rw [← hid, expr?_of_part h hinside] at hself
    exact Option.some.inj hself
  have hsmaller := Expr.sizeOf_lt_of_mem_children hchild
  have hle := Expr.sizeOf_le_of_mem_parts hpart
  rw [heq] at hle
  omega

/-! ## §2 What is reached -/

/-- The nodes directly inside a node. -/
def childNodes (a : BodyArena) : NodeId → List NodeId
  | .stmt id => (a.stmtOperandsOf id).map .expr ++ (a.stmtChildrenOf id).map .stmt
  | .expr id => (a.operandsOf id).map .expr

/-- A node is reached from another one when it is that node, or is inside a node that is
reached. -/
def Reaches (a : BodyArena) : NodeId → NodeId → Prop :=
  Relation.ReflTransGen (fun n child => child ∈ a.childNodes n)

/-- From a node, one reaches the node itself and what is reached from the nodes inside it. -/
theorem reaches_iff {n m : NodeId} :
    a.Reaches n m ↔ m = n ∨ ∃ child ∈ a.childNodes n, a.Reaches child m :=
  Relation.ReflTransGen.cases_head_iff.trans (or_congr_left eq_comm)

end BodyArena

/-- What holds of related items holds of some item of the one list when it holds of some item
of the other. -/
theorem exists_mem_iff_of_forall₂ {α β : Type} {r : α → β → Prop} {p : α → Prop} {q : β → Prop}
    {xs : List α} {ys : List β} (h : List.Forall₂ r xs ys)
    (hpq : ∀ x, ∀ y ∈ ys, r x y → (p x ↔ q y)) : (∃ x ∈ xs, p x) ↔ ∃ y ∈ ys, q y := by
  induction h with
  | nil => simp
  | cons hxy _ ih =>
    have hothers := ih (fun x y hy => hpq x y (List.mem_cons_of_mem _ hy))
    simp [hpq _ _ (List.mem_cons_self ..) hxy, hothers]

namespace BodyArena

variable {a : BodyArena}

/-- The nodes that are reached from the root of an expression are its nodes. -/
theorem reaches_iff_of_expr? {id : ExprId} {e : Expr Mark} (h : a.expr? id = some e)
    {n : NodeId} : a.Reaches (.expr id) n ↔ n ∈ e.nodes := by
  induction e using Expr.induction generalizing id with
  | _ e ih =>
    obtain ⟨rfl, -, hchildren⟩ := of_expr? h
    have hbelow := exists_mem_iff_of_forall₂ hchildren
      (fun id child hchild hread => ih child hchild hread)
    rw [reaches_iff, Expr.nodes_eq, List.mem_cons, List.mem_flatMap, ← hbelow]
    simp [childNodes]

/-- The nodes that are reached from the root of a statement are its nodes. -/
theorem reaches_iff_of_stmt? {id : StmtId} {s : Stmt Mark} (h : a.stmt? id = some s)
    {n : NodeId} : a.Reaches (.stmt id) n ↔ n ∈ s.nodes := by
  induction s using Stmt.induction generalizing id with
  | _ s ih =>
    obtain ⟨rfl, -, hexprs, hstmts⟩ := of_stmt? h
    have hbelow := exists_mem_iff_of_forall₂ hstmts
      (fun id child hchild hread => ih child hchild hread)
    have hoperands := exists_mem_iff_of_forall₂ hexprs
      (fun id e _ hread => reaches_iff_of_expr? (n := n) hread)
    rw [reaches_iff, Stmt.nodes_eq, List.mem_cons, List.mem_append, List.mem_flatMap,
      List.mem_flatMap, ← hbelow, ← hoperands]
    simp [childNodes, or_and_right, exists_or]

/-! ## §3 Trees pass the check -/

theorem AreNew.tail {seen nodes : List NodeId} {n : NodeId} (h : a.AreNew seen (n :: nodes)) :
    a.AreNew (n :: seen) nodes where
  nodup := h.nodup.of_cons
  inBounds m hm := h.inBounds m (List.mem_cons_of_mem _ hm)
  notSeen m hm := by
    rw [List.mem_cons, not_or]
    exact ⟨fun heq => (List.nodup_cons.mp h.nodup).1 (heq ▸ hm),
      h.notSeen m (List.mem_cons_of_mem _ hm)⟩

/-- Nodes that are distinct are at most as many as the arena has. -/
theorem AreNew.length_le {seen nodes : List NodeId} (h : a.AreNew seen nodes) :
    nodes.length ≤ a.stmts.size + a.exprs.size := by
  have hsub : nodes ⊆
      (List.range a.stmts.size).map NodeId.stmt ++ (List.range a.exprs.size).map NodeId.expr := by
    intro n hn
    have hbound := h.inBounds n hn
    cases n <;> simpa [hasNode, hasStmt, hasExpr] using hbound
  simpa using (h.nodup.subperm hsub).length_le

/-- No node comes up twice on the walk over trees whose nodes are new. The fuel lasts for all
of them. -/
theorem visitsOnce_of_trees {fuel : Nat} {stmts : List StmtId} {exprs : List ExprId}
    {seenStmts : List StmtId} {seenExprs : List ExprId} {ss : List (Stmt Mark)}
    {es : List (Expr Mark)} (hss : List.Forall₂ (fun id s => a.stmt? id = some s) stmts ss)
    (hes : List.Forall₂ (fun id e => a.expr? id = some e) exprs es)
    (hnew : a.AreNew (seenStmts.map .stmt ++ seenExprs.map .expr)
      (ss.flatMap Stmt.nodes ++ es.flatMap Expr.nodes))
    (hfuel : (ss.flatMap Stmt.nodes ++ es.flatMap Expr.nodes).length < fuel) :
    a.visitsOnce fuel stmts exprs seenStmts seenExprs = true := by
  induction fuel generalizing stmts exprs seenStmts seenExprs ss es with
  | zero => cases hfuel
  | succ fuel ih =>
    cases hss with
    | @cons id s stmts ss hs hss =>
      obtain ⟨rfl, -, hoperands, hchildren⟩ := of_stmt? hs
      have hperm := s.pendingNodes_perm ss es
      have hpending := hnew.perm hperm.symm
      have hunseen : .stmt s.note.id ∉ seenStmts.map NodeId.stmt ++ seenExprs.map .expr :=
        hpending.notSeen _ (List.mem_cons_self ..)
      have hnotSeen : seenStmts.contains s.note.id = false := by simpa using hunseen
      rw [hperm.length_eq, List.length_cons] at hfuel
      rw [visitsOnce, hnotSeen]
      exact ih (List.rel_append hchildren hss) (List.rel_append hoperands hes) hpending.tail
        (Nat.lt_of_succ_lt_succ hfuel)
    | nil =>
      cases hes with
      | nil => rfl
      | @cons id e exprs es he hes =>
        obtain ⟨rfl, -, hchildren⟩ := of_expr? he
        rw [List.flatMap_nil, List.nil_append, e.pendingNodes_eq] at hnew hfuel
        have hunseen : .expr e.note.id ∉ seenStmts.map NodeId.stmt ++ seenExprs.map .expr :=
          hnew.notSeen _ (List.mem_cons_self ..)
        have hnotSeen : seenExprs.contains e.note.id = false := by simpa using hunseen
        rw [visitsOnce, hnotSeen]
        refine ih .nil (List.rel_append hchildren hes) ?_ (Nat.lt_of_succ_lt_succ hfuel)
        exact hnew.tail.of_subset List.perm_middle.subset

/-- Roots with trees that share no node form disjoint trees. -/
theorem formsTrees_of_trees {stmtRoots : List StmtId} {exprRoots : List ExprId}
    {ss : List (Stmt Mark)} {es : List (Expr Mark)}
    (hss : List.Forall₂ (fun id s => a.stmt? id = some s) stmtRoots ss)
    (hes : List.Forall₂ (fun id e => a.expr? id = some e) exprRoots es)
    (hnodes : a.AreDistinct (ss.flatMap Stmt.nodes ++ es.flatMap Expr.nodes)) :
    a.formsTrees stmtRoots exprRoots = true :=
  visitsOnce_of_trees hss hes hnodes (Nat.lt_succ_of_le hnodes.length_le)

end BodyArena

/-! ## §4 The members of a declaration -/

namespace BodyArena

section Roots

variable {a : BodyArena} {roots : List NodeId} {nodes : List (List NodeId)}
  (h : List.Forall₂ (fun root below => ∀ n, a.Reaches root n ↔ n ∈ below) roots nodes)

include h

/-- The roots are among the nodes below them. -/
theorem roots_sublist : roots.Sublist nodes.flatten := by
  induction h with
  | nil => exact .slnil
  | cons hreach _ ih =>
    exact (List.singleton_sublist.mpr ((hreach _).mp .refl)).append ih

/-- Roots with distinct nodes below them reach no node in common. -/
theorem eq_of_reaches (hnodup : nodes.flatten.Nodup) {root other n : NodeId} (hroot : root ∈ roots)
    (hother : other ∈ roots) (hn : a.Reaches root n) (hn' : a.Reaches other n) : root = other := by
  induction h with
  | nil => cases hroot
  | @cons first below roots nodes hfirst hrest ih =>
    rw [List.flatten_cons, List.nodup_append] at hnodup
    obtain ⟨-, hothers, hdisjoint⟩ := hnodup
    -- What the first root reaches is reached from none of the others.
    have happart : ∀ root ∈ roots, a.Reaches first n → ¬ a.Reaches root n := by
      intro root hmem hn hn'
      obtain ⟨below', hbelow, hreach⟩ := exists_of_mem_forall₂ hrest hmem
      exact hdisjoint n ((hfirst n).mp hn) n
        (List.mem_flatten_of_mem hbelow ((hreach n).mp hn')) rfl
    rcases List.mem_cons.mp hroot with rfl | hmem
    · rcases List.mem_cons.mp hother with rfl | hmem'
      · rfl
      · exact absurd hn' (happart other hmem' hn)
    · rcases List.mem_cons.mp hother with rfl | hmem'
      · exact absurd hn (happart root hmem hn')
      · exact ih hothers hmem hmem'

end Roots

end BodyArena

namespace TypeDecl

variable {d : TypeDecl}

/-- The root of each member that has a body or an initializer. -/
def memberRoots (d : TypeDecl) : List NodeId := d.stmtRoots.map .stmt ++ d.exprRoots.map .expr

/-- Below the root of a member are the nodes of its tree. -/
theorem reaches_memberRoots {ss : List (Stmt Mark)} {es : List (Expr Mark)}
    (hss : List.Forall₂ (fun id s => d.bodies.stmt? id = some s) d.stmtRoots ss)
    (hes : List.Forall₂ (fun id e => d.bodies.expr? id = some e) d.exprRoots es) :
    List.Forall₂ (fun root below => ∀ n, d.bodies.Reaches root n ↔ n ∈ below) d.memberRoots
      (ss.map Stmt.nodes ++ es.map Expr.nodes) := by
  refine List.rel_append ?_ ?_
  · rw [List.forall₂_map_left_iff, List.forall₂_map_right_iff]
    exact hss.imp (fun _ _ hs _ => BodyArena.reaches_iff_of_stmt? hs)
  · rw [List.forall₂_map_left_iff, List.forall₂_map_right_iff]
    exact hes.imp (fun _ _ he _ => BodyArena.reaches_iff_of_expr? he)

/-- A node of the trees is reached from the root of a member. -/
theorem exists_memberRoot {ss : List (Stmt Mark)} {es : List (Expr Mark)}
    (hss : List.Forall₂ (fun id s => d.bodies.stmt? id = some s) d.stmtRoots ss)
    (hes : List.Forall₂ (fun id e => d.bodies.expr? id = some e) d.exprRoots es) {n : NodeId}
    (hn : n ∈ ss.flatMap Stmt.nodes ++ es.flatMap Expr.nodes) :
    ∃ root ∈ d.memberRoots, d.bodies.Reaches root n := by
  refine (exists_mem_iff_of_forall₂ (reaches_memberRoots hss hes)
    (fun _ _ _ hreach => hreach n)).mpr (List.mem_flatten.mp ?_)
  rwa [List.flatten_append]

/-- The members of a well-formed declaration have roots of their own, and share no node. -/
theorem memberRoots_apart (h : d.isWellFormed = true) :
    d.memberRoots.Nodup ∧ ∀ root ∈ d.memberRoots, ∀ other ∈ d.memberRoots, ∀ n,
      d.bodies.Reaches root n → d.bodies.Reaches other n → root = other := by
  obtain ⟨ss, es, hss, hes, hdistinct⟩ := exists_trees h
  have hreaches := reaches_memberRoots hss hes
  have hnodup : (ss.map Stmt.nodes ++ es.map Expr.nodes).flatten.Nodup := by
    rw [List.flatten_append]
    exact hdistinct.nodup
  exact ⟨hnodup.sublist (BodyArena.roots_sublist hreaches), fun root hroot other hother n =>
    BodyArena.eq_of_reaches hreaches hnodup hroot hother⟩

/-- A declaration is well-formed when its members have trees that share no node, in an arena
whose nodes hold positions in bounds. -/
theorem isWellFormed_of_trees (hbodies : d.bodies.isWellFormed = true) {ss : List (Stmt Mark)}
    {es : List (Expr Mark)}
    (hss : List.Forall₂ (fun id s => d.bodies.stmt? id = some s) d.stmtRoots ss)
    (hes : List.Forall₂ (fun id e => d.bodies.expr? id = some e) d.exprRoots es)
    (hnodes : d.bodies.AreDistinct (ss.flatMap Stmt.nodes ++ es.flatMap Expr.nodes)) :
    d.isWellFormed = true := by
  have hexprs : d.exprRoots.all d.bodies.hasExpr = true := by
    refine List.all_eq_true.mpr (fun id hid => ?_)
    obtain ⟨e, -, he⟩ := exists_of_mem_forall₂ hes hid
    exact (BodyArena.of_expr? he).2.1
  have hstmts : d.stmtRoots.all d.bodies.hasStmt = true := by
    refine List.all_eq_true.mpr (fun id hid => ?_)
    obtain ⟨s, -, hs⟩ := exists_of_mem_forall₂ hss hid
    exact (BodyArena.of_stmt? hs).2.1
  rw [isWellFormed, hbodies, hexprs, hstmts, BodyArena.formsTrees_of_trees hss hes hnodes]
  rfl

end TypeDecl

end JoosStatics
