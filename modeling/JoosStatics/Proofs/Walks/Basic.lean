/-
JoosStatics.Proofs.Walks.Basic — walks over an arena.

The later stages work on trees, which `readExpr?` and `readStmt?` read from
the arena. Here the same walks are computations over the arena itself, with
two more ways to show what they do: a `Walk` has no result when it leaves the
arena or goes on deeper than allowed, and it lists the nodes that it visits.

* `Walk.Yields` — a walk that returns a value and visits, at most once for
  each time that it is listed, the nodes of a list.
* `Walking.Follows` — a walk that does what a computation on trees does.
* `Walk.IsSafe` — what validation promises of a walk from a root.
-/
import JoosStatics.Bodies.Context
import JoosStatics.Proofs.StatefulRuns
import JoosStatics.Proofs.Syntax.Reaching

namespace JoosStatics

/-! ## §1 Walks -/

/-- A computation over an arena, with the nodes visited so far. There is no
result when it reads what is not there. -/
abbrev Walk := StateT (List NodeId) Option

namespace Walk

variable {β γ : Type}

/-- A walk that would go on deeper than allowed. -/
def tooDeep : Walk β := fun _ => none

/-- The item at a position, which has to be in bounds. -/
def itemAt (items : List β) (index : Nat) : Walk β := fun visited =>
  (items[index]?).map (fun item => (item, visited))

/-- The expression at a position, which has to be in bounds. -/
def lookExpr (a : BodyArena) (id : ExprId) : Walk ExprNode := fun visited =>
  (a.exprs[id]?).map (fun node => (node, visited))

/-- The statement at a position, which has to be in bounds. -/
def lookStmt (a : BodyArena) (id : StmtId) : Walk StmtNode := fun visited =>
  (a.stmts[id]?).map (fun node => (node, visited))

/-- Visits the expression at a position, which has to be in bounds. -/
def visitExpr (a : BodyArena) (id : ExprId) : Walk ExprNode := fun visited =>
  (a.exprs[id]?).map (fun node => (node, visited ++ [.expr id]))

/-- Visits the statement at a position, which has to be in bounds. -/
def visitStmt (a : BodyArena) (id : StmtId) : Walk StmtNode := fun visited =>
  (a.stmts[id]?).map (fun node => (node, visited ++ [.stmt id]))

/-- A walk returns a value and visits some of the listed nodes, none more often
than it is listed. -/
def Yields (w : Walk β) (b : β) (nodes : List NodeId) : Prop :=
  ∀ visited, ∃ new, w visited = some (b, visited ++ new) ∧ new.Subperm nodes

namespace Yields

variable {w : Walk β} {f : β → Walk γ} {b : β} {c : γ} {m n nodes : List NodeId}

theorem pure (b : β) : Yields (Pure.pure b) b [] :=
  fun visited => ⟨[], by rw [List.append_nil]; rfl, .refl _⟩

theorem bind (hw : Yields w b m) (hf : Yields (f b) c n) : Yields (w >>= f) c (m ++ n) := by
  intro visited
  obtain ⟨new, hrun, hnew⟩ := hw visited
  obtain ⟨newer, hrest, hnewer⟩ := hf (visited ++ new)
  refine ⟨new ++ newer, ?_, hnew.append hnewer⟩
  show (w visited).bind (fun result => f result.1 result.2) = _
  rw [hrun, ← List.append_assoc]
  exact hrest

/-- A look at something stands in front of a walk. -/
theorem looking (hw : Yields w b []) (hf : Yields (f b) c n) : Yields (w >>= f) c n := hw.bind hf

/-- The last part of a walk visits nothing. -/
theorem bind_last (hw : Yields w b n) (hf : Yields (f b) c []) : Yields (w >>= f) c n :=
  List.append_nil n ▸ hw.bind hf

theorem within (hw : Yields w b m) (h : m.Subperm n) : Yields w b n := by
  intro visited
  obtain ⟨new, hrun, hnew⟩ := hw visited
  exact ⟨new, hrun, hnew.trans h⟩

theorem itemAt {items : List β} {index : Nat} {item : β} (h : items[index]? = some item) :
    Yields (Walk.itemAt items index) item [] :=
  fun visited => ⟨[], by rw [Walk.itemAt, h, List.append_nil]; rfl, .refl _⟩

variable {a : BodyArena}

theorem lookExpr {id : ExprId} {node : ExprNode} (h : a.exprs[id]? = some node) :
    Yields (Walk.lookExpr a id) node [] :=
  fun visited => ⟨[], by rw [Walk.lookExpr, h, List.append_nil]; rfl, .refl _⟩

theorem lookStmt {id : StmtId} {node : StmtNode} (h : a.stmts[id]? = some node) :
    Yields (Walk.lookStmt a id) node [] :=
  fun visited => ⟨[], by rw [Walk.lookStmt, h, List.append_nil]; rfl, .refl _⟩

theorem visitExpr {id : ExprId} {node : ExprNode} (h : a.exprs[id]? = some node) :
    Yields (Walk.visitExpr a id) node [.expr id] :=
  fun visited => ⟨[.expr id], by rw [Walk.visitExpr, h]; rfl, .refl _⟩

theorem visitStmt {id : StmtId} {node : StmtNode} (h : a.stmts[id]? = some node) :
    Yields (Walk.visitStmt a id) node [.stmt id] :=
  fun visited => ⟨[.stmt id], by rw [Walk.visitStmt, h]; rfl, .refl _⟩

end Yields

/-- A walk from a root stays in the arena, ends with a value, and visits no node
twice. -/
def IsSafe (a : BodyArena) (w : Walk β) (b : β) : Prop :=
  ∃ visited, w [] = some (b, visited) ∧ visited.Nodup ∧ ∀ n ∈ visited, a.hasNode n = true

theorem Yields.isSafe {a : BodyArena} {w : Walk β} {b : β} {nodes : List NodeId}
    (hw : w.Yields b nodes) (hnodes : a.AreDistinct nodes) : w.IsSafe a b := by
  obtain ⟨new, hrun, sub, hperm, hsub⟩ := hw []
  have hdistinct := (hnodes.sublist hsub).perm hperm.symm
  exact ⟨new, hrun, hdistinct.nodup, hdistinct.inBounds⟩

end Walk

/-! ## §2 Walks that keep a state -/

/-- A walk that may break a rule and changes a state. -/
abbrev Walking (σ : Type) := ExceptT Violation (StateT σ Walk)

namespace Walking

variable {σ α β : Type}

/-- A step of a computation that reads nothing from the arena. -/
def step (x : ExceptT Violation (StateM σ) α) : Walking σ α := fun st => (pure (x st) : Walk _)

/-- A part of a walk that breaks no rule and leaves the state as it is. -/
def reading (w : Walk α) : Walking σ α := fun st => do return (.ok (← w), st)

/-- From every state, a walk does what a computation does, and visits some of the
listed nodes, none more often than it is listed. -/
def Follows (w : Walking σ α) (x : ExceptT Violation (StateM σ) α) (nodes : List NodeId) : Prop :=
  ∀ st, Walk.Yields (w st) (x st) nodes

namespace Follows

variable {w : Walking σ α} {f : α → Walking σ β} {x : ExceptT Violation (StateM σ) α}
  {g : α → ExceptT Violation (StateM σ) β} {m n : List NodeId}

theorem step (x : ExceptT Violation (StateM σ) α) : Follows (Walking.step x) x [] :=
  fun st => .pure (x st)

theorem pure (b : α) : Follows (Pure.pure b : Walking σ α) (Pure.pure b) [] :=
  fun st => .pure (Except.ok b, st)

theorem bind (hw : Follows w x m) (hf : ∀ b, Follows (f b) (g b) n) :
    Follows (w >>= f) (x >>= g) (m ++ n) := by
  intro st
  rw [run_bind]
  have hst := hw st
  show Walk.Yields (w st >>= fun result => ExceptT.bindCont f result.1 result.2) _ _
  revert hst
  rcases x st with ⟨e | b, st⟩
  · intro hst
    have hrest : Walk.Yields (ExceptT.bindCont f (.error e) st)
        ((.error e, st) : Except Violation β × σ) [] := .pure _
    exact (hst.bind hrest).within ((List.Subperm.refl m).append List.nil_subperm)
  · intro hst
    exact hst.bind (hf b st)

theorem within (hw : Follows w x m) (h : m.Subperm n) : Follows w x n := fun st => (hw st).within h

theorem of_perm (hw : Follows w x m) (h : m.Perm n) : Follows w x n := hw.within h.subperm

theorem reading {r : Walk α} {b : α} {y : ExceptT Violation (StateM σ) β} (hr : r.Yields b m)
    (hf : Follows (f b) y n) : Follows (Walking.reading r >>= f) y (m ++ n) := by
  intro st
  have hread : Walk.Yields (Walking.reading r st) ((.ok b, st) : Except Violation α × σ) m :=
    hr.bind_last (.pure (Except.ok b, st))
  show Walk.Yields (Walking.reading r st >>= fun result => ExceptT.bindCont f result.1 result.2) _ _
  exact hread.bind (hf st)

/-- A look at a node stands in front of a walk. -/
theorem looking {r : Walk α} {b : α} {y : ExceptT Violation (StateM σ) β} (hr : r.Yields b [])
    (hf : Follows (f b) y n) : Follows (Walking.reading r >>= f) y n := .reading hr hf

/-- A visit of a node stands in front of a walk. -/
theorem visiting {r : Walk α} {b : α} {y : ExceptT Violation (StateM σ) β} {node : NodeId}
    (hr : r.Yields b [node]) (hf : Follows (f b) y n) :
    Follows (Walking.reading r >>= f) y (node :: n) := .reading hr hf

/-- A step stands in front of a walk. -/
theorem stepping {x : ExceptT Violation (StateM σ) α} (hf : ∀ b, Follows (f b) (g b) n) :
    Follows (Walking.step x >>= f) (x >>= g) n := .bind (.step x) hf

/-- The last step of a walk visits nothing. -/
theorem bind_last (hw : Follows w x n) (hf : ∀ b, Follows (f b) (g b) []) :
    Follows (w >>= f) (x >>= g) n := List.append_nil n ▸ hw.bind hf

/-- A walk over an operand stands in front of the walks over the others. -/
theorem operand {e : Expr Mark} {es : List (Expr Mark)} (hw : Follows w x e.nodes)
    (hf : ∀ b, Follows (f b) (g b) (es.flatMap Expr.nodes)) :
    Follows (w >>= f) (x >>= g) ((e :: es).flatMap Expr.nodes) := .bind hw hf

end Follows

end Walking

end JoosStatics
