/-
JoosStatics.Proofs.Syntax.DisjointTrees — `formsTrees` decides whether a node is
reached twice.

A node is mentioned among the roots, or among the nodes directly inside a node
that is reached. The roots have disjoint trees when every node that is reached is
mentioned once (`formsTrees_decides`), so there is no cycle and no shared child.

§1 is about the walk itself: it is written with fuel, and `Walks` is the same
walk without. Every visit but the last takes a node that was not seen before, so
the fuel outlasts the nodes that are left. §2 turns what the walk visits into a
list of nodes, `Unfolds`, and §3 compares such a list with the mentions.

A list that unfolds the roots may hold more than what is reached from them, for
instance a cycle that no root leads to; this is why §3 starts from the nodes that
are reached whenever it builds such a list.
-/
import Mathlib.Data.List.Count
import Mathlib.Data.List.Pairwise
import JoosStatics.Proofs.Reordering.Syntax
import JoosStatics.Proofs.Syntax.Reaching

namespace JoosStatics

namespace BodyArena

variable {a : BodyArena} {stmts : List StmtId} {exprs : List ExprId} {seenStmts : List StmtId}
  {seenExprs : List ExprId}

/-! ## §1 The walk ends -/

/-- The walk over pending nodes ends with an answer: false at the first node that was seen
before, true when no node is left. -/
inductive Walks (a : BodyArena) :
    List StmtId → List ExprId → List StmtId → List ExprId → Bool → Prop
  | done (seenStmts : List StmtId) (seenExprs : List ExprId) :
      Walks a [] [] seenStmts seenExprs true
  | stmtAgain (stmts : List StmtId) (exprs : List ExprId) (seenExprs : List ExprId)
      {id : StmtId} {seenStmts : List StmtId} (hseen : id ∈ seenStmts) :
      Walks a (id :: stmts) exprs seenStmts seenExprs false
  | stmt {id : StmtId} {stmts seenStmts : List StmtId} {exprs seenExprs : List ExprId}
      {answer : Bool} (hnew : id ∉ seenStmts)
      (h : Walks a (a.stmtChildrenOf id ++ stmts) (a.stmtOperandsOf id ++ exprs)
        (id :: seenStmts) seenExprs answer) :
      Walks a (id :: stmts) exprs seenStmts seenExprs answer
  | exprAgain (exprs : List ExprId) (seenStmts : List StmtId) {id : ExprId}
      {seenExprs : List ExprId} (hseen : id ∈ seenExprs) :
      Walks a [] (id :: exprs) seenStmts seenExprs false
  | expr {id : ExprId} {seenStmts : List StmtId} {exprs seenExprs : List ExprId}
      {answer : Bool} (hnew : id ∉ seenExprs)
      (h : Walks a [] (a.operandsOf id ++ exprs) seenStmts (id :: seenExprs) answer) :
      Walks a [] (id :: exprs) seenStmts seenExprs answer

/-- Distinct nodes stay distinct when one that is not among them is added. -/
theorem AreDistinct.cons {nodes : List NodeId} {n : NodeId} (h : a.AreDistinct nodes)
    (hbound : a.hasNode n = true) (hnew : n ∉ nodes) : a.AreDistinct (n :: nodes) where
  nodup := List.nodup_cons.mpr ⟨hnew, h.nodup⟩
  inBounds := List.forall_mem_cons.mpr ⟨hbound, h.inBounds⟩
  notSeen _ _ := List.not_mem_nil

/-- A walk ends with one answer. -/
theorem Walks.unique {answer answer' : Bool} (h : a.Walks stmts exprs seenStmts seenExprs answer)
    (h' : a.Walks stmts exprs seenStmts seenExprs answer') : answer = answer' := by
  induction h with
  | done =>
    cases h'
    rfl
  | stmtAgain _ _ _ hseen =>
    cases h' with
    | stmtAgain => rfl
    | stmt hnew => exact absurd hseen hnew
  | stmt hnew _ ih =>
    cases h' with
    | stmtAgain _ _ _ hseen => exact absurd hseen hnew
    | stmt _ h' => exact ih h'
  | exprAgain _ _ hseen =>
    cases h' with
    | exprAgain => rfl
    | expr hnew => exact absurd hseen hnew
  | expr hnew _ ih =>
    cases h' with
    | exprAgain _ _ hseen => exact absurd hseen hnew
    | expr _ h' => exact ih h'

section WellFormed

variable (hwf : a.isWellFormed = true)

include hwf

theorem hasStmt_of_mem_stmtChildrenOf {id child : StmtId} (h : child ∈ a.stmtChildrenOf id) :
    a.hasStmt child = true := by
  unfold stmtChildrenOf at h
  cases hnode : a.stmts[id]? with
  | none => simp [hnode] at h
  | some node =>
    rw [hnode] at h
    exact (inBounds_of_stmt hwf hnode).1 child h

theorem hasExpr_of_mem_stmtOperandsOf {id : StmtId} {child : ExprId}
    (h : child ∈ a.stmtOperandsOf id) : a.hasExpr child = true := by
  unfold stmtOperandsOf at h
  cases hnode : a.stmts[id]? with
  | none => simp [hnode] at h
  | some node =>
    rw [hnode] at h
    exact (inBounds_of_stmt hwf hnode).2 child h

theorem hasExpr_of_mem_operandsOf {id child : ExprId} (h : child ∈ a.operandsOf id) :
    a.hasExpr child = true := by
  unfold operandsOf at h
  cases hnode : a.exprs[id]? with
  | none => simp [hnode] at h
  | some node =>
    rw [hnode] at h
    exact inBounds_of_expr hwf hnode child h

/-- The fuel is enough when it exceeds the number of nodes that were not seen yet. -/
theorem walks_visitsOnce {fuel : Nat} (hstmts : ∀ id ∈ stmts, a.hasStmt id = true)
    (hexprs : ∀ id ∈ exprs, a.hasExpr id = true)
    (hseen : a.AreDistinct (seenStmts.map .stmt ++ seenExprs.map .expr))
    (hfuel : a.stmts.size + a.exprs.size < fuel + (seenStmts.length + seenExprs.length)) :
    a.Walks stmts exprs seenStmts seenExprs
      (a.visitsOnce fuel stmts exprs seenStmts seenExprs) := by
  induction fuel generalizing stmts exprs seenStmts seenExprs with
  | zero =>
    have hle := hseen.length_le
    rw [List.length_append, List.length_map, List.length_map] at hle
    omega
  | succ fuel ih =>
    cases stmts with
    | cons id stmts =>
      obtain ⟨hid, hstmts⟩ := List.forall_mem_cons.mp hstmts
      unfold visitsOnce
      by_cases hnew : id ∈ seenStmts
      · rw [if_pos (List.contains_iff_mem.mpr hnew)]
        exact .stmtAgain _ _ _ hnew
      · rw [if_neg (fun h => hnew (List.contains_iff_mem.mp h))]
        refine .stmt hnew (ih ?_ ?_ (hseen.cons hid ?_) ?_)
        · exact List.forall_mem_append.mpr
            ⟨fun _ => hasStmt_of_mem_stmtChildrenOf hwf, hstmts⟩
        · exact List.forall_mem_append.mpr
            ⟨fun _ => hasExpr_of_mem_stmtOperandsOf hwf, hexprs⟩
        · simpa using hnew
        · rw [List.length_cons]
          omega
    | nil =>
      cases exprs with
      | cons id exprs =>
        obtain ⟨hid, hexprs⟩ := List.forall_mem_cons.mp hexprs
        unfold visitsOnce
        by_cases hnew : id ∈ seenExprs
        · rw [if_pos (List.contains_iff_mem.mpr hnew)]
          exact .exprAgain _ _ hnew
        · rw [if_neg (fun h => hnew (List.contains_iff_mem.mp h))]
          refine .expr hnew (ih (List.forall_mem_nil _) ?_ ?_ ?_)
          · exact List.forall_mem_append.mpr ⟨fun _ => hasExpr_of_mem_operandsOf hwf, hexprs⟩
          · exact (hseen.cons (n := .expr id) hid (by simpa using hnew)).perm List.perm_middle
          · rw [List.length_cons]
            omega
      | nil => exact .done _ _

end WellFormed

/-! ## §2 Nodes that unfold the roots -/

theorem forall_nodeId_iff {p : NodeId → Prop} :
    (∀ n, p n) ↔ (∀ id, p (.stmt id)) ∧ ∀ id, p (.expr id) := by
  constructor
  · exact fun h => ⟨fun id => h (.stmt id), fun id => h (.expr id)⟩
  · rintro ⟨hstmt, hexpr⟩ (id | id)
    · exact hstmt id
    · exact hexpr id

/-- The nodes at positions. -/
def nodesAt (stmts : List StmtId) (exprs : List ExprId) : List NodeId :=
  stmts.map .stmt ++ exprs.map .expr

section NodesAt

variable {stmts' : List StmtId} {exprs' : List ExprId}

@[simp] theorem count_stmt_nodesAt (id : StmtId) (stmts : List StmtId) (exprs : List ExprId) :
    (nodesAt stmts exprs).count (.stmt id) = stmts.count id := by
  have hnone : (exprs.map NodeId.expr).count (.stmt id) = 0 := List.count_eq_zero.mpr (by simp)
  rw [nodesAt, List.count_append, hnone,
    List.count_map_of_injective stmts NodeId.stmt (fun _ _ h => NodeId.stmt.inj h)]
  rfl

@[simp] theorem count_expr_nodesAt (id : ExprId) (stmts : List StmtId) (exprs : List ExprId) :
    (nodesAt stmts exprs).count (.expr id) = exprs.count id := by
  have hnone : (stmts.map NodeId.stmt).count (.expr id) = 0 := List.count_eq_zero.mpr (by simp)
  rw [nodesAt, List.count_append, hnone, Nat.zero_add,
    List.count_map_of_injective exprs NodeId.expr (fun _ _ h => NodeId.expr.inj h)]

theorem nodesAt_perm_iff :
    (nodesAt stmts exprs).Perm (nodesAt stmts' exprs') ↔
      stmts.Perm stmts' ∧ exprs.Perm exprs' := by
  simp only [List.perm_iff_count, forall_nodeId_iff, count_stmt_nodesAt, count_expr_nodesAt]

theorem nodup_nodesAt_iff : (nodesAt stmts exprs).Nodup ↔ stmts.Nodup ∧ exprs.Nodup := by
  simp only [List.nodup_iff_count_le_one, forall_nodeId_iff, count_stmt_nodesAt,
    count_expr_nodesAt]

theorem nodesAt_append_perm :
    (nodesAt stmts exprs ++ nodesAt stmts' exprs').Perm
      (nodesAt (stmts ++ stmts') (exprs ++ exprs')) := by
  simp [List.perm_iff_count, forall_nodeId_iff]

/-- What is directly inside some nodes, statements and expressions apart. -/
theorem flatMap_childNodes_perm (stmts : List StmtId) (exprs : List ExprId) :
    ((nodesAt stmts exprs).flatMap a.childNodes).Perm
      (nodesAt (stmts.flatMap a.stmtChildrenOf)
        (stmts.flatMap a.stmtOperandsOf ++ exprs.flatMap a.operandsOf)) := by
  have hstmts : ((stmts.map NodeId.stmt).flatMap a.childNodes).Perm
      (nodesAt (stmts.flatMap a.stmtChildrenOf) (stmts.flatMap a.stmtOperandsOf)) := by
    rw [nodesAt, List.map_flatMap, List.map_flatMap, List.flatMap_map]
    exact (List.flatMap_append_perm stmts _ _).symm.trans List.perm_append_comm
  have hexprs : (exprs.map NodeId.expr).flatMap a.childNodes =
      nodesAt [] (exprs.flatMap a.operandsOf) := by
    rw [nodesAt, List.map_flatMap, List.flatMap_map]
    rfl
  rw [nodesAt, List.flatMap_append, hexprs]
  refine (hstmts.append_right _).trans (nodesAt_append_perm.trans ?_)
  rw [List.append_nil]

end NodesAt

/-- Distinct nodes that consist of the roots and of what is directly inside all of them. -/
structure Unfolds (a : BodyArena) (roots nodes : List NodeId) : Prop where
  nodup : nodes.Nodup
  perm : nodes.Perm (roots ++ nodes.flatMap a.childNodes)

/-- What a walk visits unfolds its roots. -/
theorem visits_iff_unfolds {visitedStmts : List StmtId} {visitedExprs : List ExprId} :
    a.Visits stmts exprs [] [] visitedStmts visitedExprs ↔
      a.Unfolds (nodesAt stmts exprs) (nodesAt visitedStmts visitedExprs) := by
  have hperm : (nodesAt stmts exprs ++
      (nodesAt visitedStmts visitedExprs).flatMap a.childNodes).Perm
      (nodesAt (stmts ++ visitedStmts.flatMap a.stmtChildrenOf) (exprs ++
        (visitedStmts.flatMap a.stmtOperandsOf ++ visitedExprs.flatMap a.operandsOf))) :=
    ((flatMap_childNodes_perm _ _).append_left _).trans nodesAt_append_perm
  constructor
  · intro h
    exact ⟨nodup_nodesAt_iff.mpr ⟨h.nodup_stmts, h.nodup_exprs⟩,
      (nodesAt_perm_iff.mpr ⟨h.stmts, h.exprs⟩).trans hperm.symm⟩
  · intro h
    obtain ⟨hstmts, hexprs⟩ := nodup_nodesAt_iff.mp h.nodup
    obtain ⟨hpermStmts, hpermExprs⟩ := nodesAt_perm_iff.mp (h.perm.trans hperm)
    exact ⟨hstmts, hexprs, fun _ _ => List.not_mem_nil, fun _ _ => List.not_mem_nil,
      hpermStmts, hpermExprs⟩

/-! ## §3 Mentions -/

/-- Where a node is mentioned: one of the roots, or a position directly inside a node. -/
inductive Mention where
  | root (index : Nat)
  | inside (parent : NodeId) (index : Nat)

/-- A node is reached from one of the roots. -/
def ReachedFrom (a : BodyArena) (roots : List NodeId) (n : NodeId) : Prop :=
  ∃ root ∈ roots, a.Reaches root n

/-- A mention names a node. Those inside a node count when that node is reached. -/
def Names (a : BodyArena) (roots : List NodeId) : Mention → NodeId → Prop
  | .root index, n => roots[index]? = some n
  | .inside parent index, n => a.ReachedFrom roots parent ∧ (a.childNodes parent)[index]? = some n

/-- Every node that is reached is mentioned once. -/
def NamesOnce (a : BodyArena) (roots : List NodeId) : Prop :=
  ∀ n, a.ReachedFrom roots n → ∃! mention, a.Names roots mention n

variable {roots nodes : List NodeId}

theorem ReachedFrom.inside {parent n : NodeId} (h : a.ReachedFrom roots parent)
    (hn : n ∈ a.childNodes parent) : a.ReachedFrom roots n := by
  obtain ⟨root, hroot, hreach⟩ := h
  exact ⟨root, hroot, hreach.tail hn⟩

/-- What is mentioned is reached. -/
theorem Names.reachedFrom {mention : Mention} {n : NodeId} (h : a.Names roots mention n) :
    a.ReachedFrom roots n := by
  cases mention with
  | root index => exact ⟨n, List.mem_of_getElem? h, .refl⟩
  | inside parent index => exact h.1.inside (List.mem_of_getElem? h.2)

/-- What is reached is mentioned. -/
theorem ReachedFrom.exists_names {n : NodeId} (h : a.ReachedFrom roots n) :
    ∃ mention, a.Names roots mention n := by
  obtain ⟨root, hroot, hreach⟩ := h
  rcases Relation.ReflTransGen.cases_tail hreach with rfl | ⟨parent, hparent, hn⟩
  · obtain ⟨index, hindex⟩ := List.mem_iff_getElem?.mp hroot
    exact ⟨.root index, hindex⟩
  · obtain ⟨index, hindex⟩ := List.mem_iff_getElem?.mp hn
    exact ⟨.inside parent index, ⟨root, hroot, hparent⟩, hindex⟩

/-- Nodes that unfold the roots have all nodes that are reached among them. -/
theorem Unfolds.mem_of_reachedFrom (h : a.Unfolds roots nodes) {n : NodeId}
    (hn : a.ReachedFrom roots n) : n ∈ nodes := by
  obtain ⟨root, hroot, hreach⟩ := hn
  induction hreach with
  | refl => exact h.perm.mem_iff.mpr (List.mem_append_left _ hroot)
  | tail _ hchild ih =>
    exact h.perm.mem_iff.mpr (List.mem_append_right _ (List.mem_flatMap.mpr ⟨_, ih, hchild⟩))

/-- Positions in a list without repetition are determined by what stands there. -/
theorem index_eq_of_nodup {α : Type} {xs : List α} (h : xs.Nodup) {i j : Nat} {x : α}
    (hi : xs[i]? = some x) (hj : xs[j]? = some x) : i = j :=
  (List.getElem?_inj (List.getElem?_eq_some_iff.mp hi).1 h).mp (hi.trans hj.symm)

theorem nodup_of_index_eq {α : Type} {xs : List α}
    (h : ∀ (i j : Nat) (x : α), xs[i]? = some x → xs[j]? = some x → i = j) : xs.Nodup := by
  rw [List.nodup_iff_getElem?_ne_getElem?]
  intro i j hlt hj heq
  have hx := List.getElem?_eq_getElem hj
  exact Nat.ne_of_lt hlt (h i j _ (heq.trans hx) hx)

/-- Roots that can be unfolded mention every node once: two mentions would be two occurrences
among the nodes. -/
theorem Unfolds.namesOnce (h : a.Unfolds roots nodes) : a.NamesOnce roots := by
  have hnodup := h.perm.nodup_iff.mp h.nodup
  rw [List.nodup_append] at hnodup
  obtain ⟨hroots, hinside, hapart⟩ := hnodup
  rw [List.nodup_flatMap] at hinside
  obtain ⟨hchildren, hdisjoint⟩ := hinside
  have hparent {parent n : NodeId} (hreached : a.ReachedFrom roots parent) {index : Nat}
      (hn : (a.childNodes parent)[index]? = some n) :
      parent ∈ nodes ∧ n ∈ nodes.flatMap a.childNodes := by
    have hmem := h.mem_of_reachedFrom hreached
    exact ⟨hmem, List.mem_flatMap.mpr ⟨parent, hmem, List.mem_of_getElem? hn⟩⟩
  intro n hn
  obtain ⟨mention, hmention⟩ := hn.exists_names
  refine ⟨mention, hmention, fun other hother => ?_⟩
  match mention, other, hmention, hother with
  | .root i, .root j, hi, hj => exact congrArg _ (index_eq_of_nodup hroots hj hi)
  | .root i, .inside parent j, hi, hj =>
    exact absurd rfl (hapart n (List.mem_of_getElem? hi) n (hparent hj.1 hj.2).2)
  | .inside parent i, .root j, hi, hj =>
    exact absurd rfl (hapart n (List.mem_of_getElem? hj) n (hparent hi.1 hi.2).2)
  | .inside parent i, .inside parent' j, hi, hj =>
    have hmem := (hparent hi.1 hi.2).1
    have hmem' := (hparent hj.1 hj.2).1
    by_cases heq : parent' = parent
    · subst heq
      rw [index_eq_of_nodup (hchildren parent' hmem) hj.2 hi.2]
    · have hsymm : Std.Symm (Function.onFun List.Disjoint a.childNodes) :=
        ⟨fun _ _ h => List.disjoint_symm h⟩
      exact absurd (List.mem_of_getElem? hi.2)
        (hdisjoint.forall hmem' hmem heq (List.mem_of_getElem? hj.2))

section WellFormed

variable (hwf : a.isWellFormed = true)

include hwf

theorem hasNode_of_mem_childNodes {n child : NodeId} (h : child ∈ a.childNodes n) :
    a.hasNode child = true := by
  cases n with
  | stmt id =>
    rw [childNodes, List.mem_append, List.mem_map, List.mem_map] at h
    obtain ⟨id, hid, rfl⟩ | ⟨id, hid, rfl⟩ := h
    · exact hasExpr_of_mem_stmtOperandsOf hwf hid
    · exact hasStmt_of_mem_stmtChildrenOf hwf hid
  | expr id =>
    rw [childNodes, List.mem_map] at h
    obtain ⟨id, hid, rfl⟩ := h
    exact hasExpr_of_mem_operandsOf hwf hid

/-- Nothing out of bounds is reached. -/
theorem ReachedFrom.hasNode (hroots : ∀ root ∈ roots, a.hasNode root = true) {n : NodeId}
    (h : a.ReachedFrom roots n) : a.hasNode n = true := by
  obtain ⟨root, hroot, hreach⟩ := h
  rcases Relation.ReflTransGen.cases_tail hreach with rfl | ⟨parent, -, hn⟩
  · exact hroots _ hroot
  · exact hasNode_of_mem_childNodes hwf hn

/-- The nodes that are reached can be listed. -/
theorem exists_reached (hroots : ∀ root ∈ roots, a.hasNode root = true) :
    ∃ visitedStmts visitedExprs, (nodesAt visitedStmts visitedExprs).Nodup ∧
      ∀ n, n ∈ nodesAt visitedStmts visitedExprs ↔ a.ReachedFrom roots n := by
  classical
  refine ⟨(List.range a.stmts.size).filter (fun id => a.ReachedFrom roots (.stmt id)),
    (List.range a.exprs.size).filter (fun id => a.ReachedFrom roots (.expr id)), ?_, ?_⟩
  · exact nodup_nodesAt_iff.mpr ⟨List.nodup_range.filter _, List.nodup_range.filter _⟩
  · intro n
    have hbound : a.ReachedFrom roots n → a.hasNode n = true := ReachedFrom.hasNode hwf hroots
    cases n with
    | stmt id => simpa [nodesAt, hasNode, hasStmt] using hbound
    | expr id => simpa [nodesAt, hasNode, hasExpr] using hbound

end WellFormed

/-- When every node is mentioned once, the nodes that are reached unfold the roots. -/
theorem NamesOnce.unfolds (h : a.NamesOnce roots) (hnodup : nodes.Nodup)
    (hnodes : ∀ n, n ∈ nodes ↔ a.ReachedFrom roots n) : a.Unfolds roots nodes := by
  have hmention {n : NodeId} {mention mention' : Mention} (hn : a.Names roots mention n)
      (hn' : a.Names roots mention' n) : mention = mention' :=
    (h n hn.reachedFrom).unique hn hn'
  have hinside {parent n : NodeId} (hparent : parent ∈ nodes) {index : Nat}
      (hn : (a.childNodes parent)[index]? = some n) : a.Names roots (.inside parent index) n :=
    ⟨(hnodes parent).mp hparent, hn⟩
  have hroots : roots.Nodup := nodup_of_index_eq (fun i j n hi hj => by
    have heq : Mention.root i = .root j := hmention (n := n) hi hj
    exact Mention.root.inj heq)
  have hchildren : ∀ parent ∈ nodes, (a.childNodes parent).Nodup := fun parent hparent =>
    nodup_of_index_eq (fun i j n hi hj =>
      (Mention.inside.inj (hmention (hinside hparent hi) (hinside hparent hj))).2)
  have hdisjoint : nodes.Pairwise (Function.onFun List.Disjoint a.childNodes) := by
    refine hnodup.imp_of_mem (fun hparent hparent' hne n hn hn' => hne ?_)
    obtain ⟨i, hi⟩ := List.mem_iff_getElem?.mp hn
    obtain ⟨j, hj⟩ := List.mem_iff_getElem?.mp hn'
    exact (Mention.inside.inj (hmention (hinside hparent hi) (hinside hparent' hj))).1
  have hoccurrences : (roots ++ nodes.flatMap a.childNodes).Nodup := by
    refine List.nodup_append.mpr ⟨hroots, List.nodup_flatMap.mpr ⟨hchildren, hdisjoint⟩, ?_⟩
    intro n hroot m hm heq
    obtain ⟨parent, hparent, hn⟩ := List.mem_flatMap.mp hm
    obtain ⟨i, hi⟩ := List.mem_iff_getElem?.mp hroot
    obtain ⟨j, hj⟩ := List.mem_iff_getElem?.mp (heq ▸ hn)
    have hclash : Mention.root i = .inside parent j := hmention (n := n) hi (hinside hparent hj)
    cases hclash
  refine ⟨hnodup, (List.perm_ext_iff_of_nodup hnodup hoccurrences).mpr (fun n => ?_)⟩
  rw [hnodes, List.mem_append, List.mem_flatMap]
  constructor
  · intro hn
    obtain ⟨mention, hname⟩ := hn.exists_names
    cases mention with
    | root index => exact .inl (List.mem_of_getElem? hname)
    | inside parent index =>
      exact .inr ⟨parent, (hnodes parent).mpr hname.1, List.mem_of_getElem? hname.2⟩
  · rintro (hroot | ⟨parent, hparent, hn⟩)
    · exact ⟨n, hroot, .refl⟩
    · exact ((hnodes parent).mp hparent).inside hn

namespace NamesOnce

variable (h : a.NamesOnce roots)

include h

/-- A node is inside one node only. -/
theorem eq_of_mem_childNodes {parent other n : NodeId} (hparent : a.ReachedFrom roots parent)
    (hother : a.ReachedFrom roots other) (hn : n ∈ a.childNodes parent)
    (hn' : n ∈ a.childNodes other) : parent = other := by
  obtain ⟨i, hi⟩ := List.mem_iff_getElem?.mp hn
  obtain ⟨j, hj⟩ := List.mem_iff_getElem?.mp hn'
  have hmention : Mention.inside parent i = .inside other j :=
    (h n (hparent.inside hn)).unique ⟨hparent, hi⟩ ⟨hother, hj⟩
  exact (Mention.inside.inj hmention).1

/-- A root is inside no node. -/
theorem notMem_childNodes {parent root : NodeId} (hroot : root ∈ roots)
    (hparent : a.ReachedFrom roots parent) : root ∉ a.childNodes parent := by
  intro hn
  obtain ⟨i, hi⟩ := List.mem_iff_getElem?.mp hroot
  obtain ⟨j, hj⟩ := List.mem_iff_getElem?.mp hn
  have hmention : Mention.root i = .inside parent j :=
    (h root ⟨root, hroot, .refl⟩).unique hi ⟨hparent, hj⟩
  cases hmention

/-- No node is inside itself. Along the way from a root to the node, a cycle would have to be
entered from a second parent. -/
theorem acyclic {n : NodeId} (hn : a.ReachedFrom roots n) :
    ¬ Relation.TransGen (fun n child => child ∈ a.childNodes n) n n := by
  obtain ⟨root, hroot, hreach⟩ := hn
  induction hreach with
  | refl =>
    intro hcycle
    obtain ⟨parent, hparent, hback⟩ := Relation.TransGen.tail'_iff.mp hcycle
    exact h.notMem_childNodes hroot ⟨root, hroot, hparent⟩ hback
  | @tail parent n hparent hchild ih =>
    intro hcycle
    obtain ⟨last, hlast, hback⟩ := Relation.TransGen.tail'_iff.mp hcycle
    have hreached : a.ReachedFrom roots last :=
      ⟨root, hroot, (hparent.tail hchild).trans hlast⟩
    have heq : last = parent :=
      h.eq_of_mem_childNodes hreached ⟨root, hroot, hparent⟩ hback hchild
    exact ih (.head' hchild (heq ▸ hlast))

end NamesOnce

/-! ## §4 The decision -/

/-- For positions in bounds the walk ends, with the answer of `formsTrees`; the answer is true
when every node that is reached is mentioned once, and then nothing is inside itself or inside two
nodes. -/
theorem formsTrees_decides (hwf : a.isWellFormed = true)
    (hstmts : ∀ id ∈ stmts, a.hasStmt id = true) (hexprs : ∀ id ∈ exprs, a.hasExpr id = true) :
    (∀ answer, a.Walks stmts exprs [] [] answer ↔ a.formsTrees stmts exprs = answer) ∧
    (a.formsTrees stmts exprs = true ↔ a.NamesOnce (nodesAt stmts exprs)) ∧
    (a.formsTrees stmts exprs = true →
      (∀ n, a.ReachedFrom (nodesAt stmts exprs) n →
        ¬ Relation.TransGen (fun n child => child ∈ a.childNodes n) n n) ∧
      ∀ parent other n, a.ReachedFrom (nodesAt stmts exprs) parent →
        a.ReachedFrom (nodesAt stmts exprs) other → n ∈ a.childNodes parent →
        n ∈ a.childNodes other → parent = other) := by
  have hroots : ∀ root ∈ nodesAt stmts exprs, a.hasNode root = true := by
    intro root hroot
    rw [nodesAt, List.mem_append, List.mem_map, List.mem_map] at hroot
    obtain ⟨id, hid, rfl⟩ | ⟨id, hid, rfl⟩ := hroot
    · exact hstmts id hid
    · exact hexprs id hid
  have hends : a.Walks stmts exprs [] [] (a.formsTrees stmts exprs) :=
    walks_visitsOnce hwf hstmts hexprs .nil (Nat.lt_succ_self _)
  have honce : a.formsTrees stmts exprs = true ↔ a.NamesOnce (nodesAt stmts exprs) := by
    rw [formsTrees, visitsOnce_iff]
    constructor
    · intro ⟨visitedStmts, visitedExprs, _, hvisits⟩
      exact (visits_iff_unfolds.mp hvisits).namesOnce
    · intro h
      obtain ⟨visitedStmts, visitedExprs, hnodup, hnodes⟩ := exists_reached hwf hroots
      have hdistinct : a.AreDistinct (nodesAt visitedStmts visitedExprs) :=
        ⟨hnodup, fun n hn => ((hnodes n).mp hn).hasNode hwf hroots, fun _ _ => List.not_mem_nil⟩
      have hle := hdistinct.length_le
      rw [nodesAt, List.length_append, List.length_map, List.length_map] at hle
      exact ⟨visitedStmts, visitedExprs, Nat.lt_succ_of_le hle,
        visits_iff_unfolds.mpr (h.unfolds hnodup hnodes)⟩
  refine ⟨fun answer => ⟨fun h => hends.unique h, fun h => h ▸ hends⟩, honce, fun h => ?_⟩
  have hnames := honce.mp h
  exact ⟨fun n hn => hnames.acyclic hn, fun parent other n hparent hother hn hn' =>
    hnames.eq_of_mem_childNodes hparent hother hn hn'⟩

/-- A loop `while (true) i = 1;`, and a block that holds the loop twice. -/
def loopTwice : BodyArena where
  stmts := #[⟨.expression 0, {}⟩, ⟨.whileLoop 3 0, {}⟩, ⟨.block [1, 1], {}⟩]
  exprs := #[⟨.assign 1 2, {}⟩, ⟨.named ⟨["i"]⟩, {}⟩, ⟨.literal (.int 1), {}⟩,
    ⟨.literal (.bool true), {}⟩]

/-- The loop is a tree, also beside its block when the block is not reached. A root that is
given twice and a child that is held twice are found. -/
theorem loopTwice_decided :
    loopTwice.NamesOnce (nodesAt [1] []) ∧ ¬ loopTwice.NamesOnce (nodesAt [1, 1] []) ∧
    ¬ loopTwice.NamesOnce (nodesAt [2] []) ∧ loopTwice.Walks [2] [3] [] [] false := by
  have hwf : loopTwice.isWellFormed = true := by decide
  refine ⟨?_, ?_, ?_, ?_⟩
  · exact (formsTrees_decides hwf (by decide) (by decide)).2.1.mp (by decide)
  · intro h
    exact absurd ((formsTrees_decides hwf (by decide) (by decide)).2.1.mpr h) (by decide)
  · intro h
    exact absurd ((formsTrees_decides hwf (by decide) (by decide)).2.1.mpr h) (by decide)
  · exact ((formsTrees_decides hwf (by decide) (by decide)).1 false).mpr (by decide)

end BodyArena

end JoosStatics
