/-
JoosStatics.Proofs.Syntax.Trees — what stands inside a tree.

§1 lists the parts of a tree, `Expr.parts`, `Stmt.parts` and the expressions
of a statement, `Stmt.exprs`, with the positions of the expressions among
them. §2 lists the nodes of the arena that a tree was read from.
-/
import JoosStatics.Syntax.Tree
import Mathlib.Data.List.Nodup
import Mathlib.Data.List.Flatten

namespace JoosStatics

variable {α : Type}

/-! ## §1 The parts of a tree -/

/-- The operands of an expression, from left to right. -/
def Expr.children : Expr α → List (Expr α)
  | .literal .. | .named .. | .this _ => []
  | .fieldAccess _ receiver _ => [receiver]
  | .call _ _ args | .create _ _ args | .createArray _ _ args => args
  | .callOn _ receiver _ args => receiver :: args
  | .arrayAccess _ array index => [array, index]
  | .cast _ _ operand | .instanceOf _ operand _ | .unary _ _ operand | .incDec _ _ operand =>
    [operand]
  | .binary _ _ lhs rhs => [lhs, rhs]
  | .assign _ target value => [target, value]

/-- The type written in an expression itself, not in its operands. -/
def Expr.writtenType? : Expr α → Option TypeSyntax
  | .cast _ type _ | .instanceOf _ _ type => some type
  | .createArray _ element _ => some element
  | .create _ type _ => some (.named type)
  | _ => none

/-- The statements directly inside a statement, in order. -/
def Stmt.stmtChildren : Stmt α → List (Stmt α)
  | .block _ stmts => stmts
  | .branch _ _ thenBranch elseBranch => thenBranch :: elseBranch.toList
  | .whileLoop _ _ body => [body]
  | .forLoop _ init _ _ body => init.toList ++ [body]
  | _ => []

/-- The expressions directly inside a statement, in order. -/
def Stmt.exprChildren : Stmt α → List (Expr α)
  | .localVar _ _ _ initializer => initializer.toList
  | .expression _ value | .throwValue _ value => [value]
  | .branch _ condition _ _ | .whileLoop _ condition _ => [condition]
  | .forLoop _ _ condition update _ => condition.toList ++ update.toList
  | .returnValue _ value => value.toList
  | .constructorCall _ _ args => args
  | .block .. | .breakLoop _ | .empty _ => []

mutual

/-- An expression with everything inside it. -/
def Expr.parts : Expr α → List (Expr α)
  | .literal note value => [.literal note value]
  | .named note path => [.named note path]
  | .this note => [.this note]
  | .fieldAccess note receiver name => .fieldAccess note receiver name :: receiver.parts
  | .call note name args => .call note name args :: Expr.listParts args
  | .callOn note receiver name args =>
    .callOn note receiver name args :: (receiver.parts ++ Expr.listParts args)
  | .create note type args => .create note type args :: Expr.listParts args
  | .createArray note element dims => .createArray note element dims :: Expr.listParts dims
  | .arrayAccess note array index => .arrayAccess note array index :: (array.parts ++ index.parts)
  | .cast note type operand => .cast note type operand :: operand.parts
  | .instanceOf note operand type => .instanceOf note operand type :: operand.parts
  | .binary note op lhs rhs => .binary note op lhs rhs :: (lhs.parts ++ rhs.parts)
  | .unary note op operand => .unary note op operand :: operand.parts
  | .incDec note op operand => .incDec note op operand :: operand.parts
  | .assign note target value => .assign note target value :: (target.parts ++ value.parts)
termination_by structural e => e

/-- Expressions with everything inside them. -/
def Expr.listParts : List (Expr α) → List (Expr α)
  | [] => []
  | e :: es => e.parts ++ Expr.listParts es
termination_by structural es => es

end

theorem Expr.listParts_eq (es : List (Expr α)) : Expr.listParts es = es.flatMap Expr.parts := by
  induction es with
  | nil => rfl
  | cons e es ih => rw [Expr.listParts, ih, List.flatMap_cons]

theorem Expr.parts_eq (e : Expr α) : e.parts = e :: e.children.flatMap Expr.parts := by
  cases e <;> simp [Expr.parts, Expr.children, Expr.listParts_eq]

theorem Expr.self_mem_parts (e : Expr α) : e ∈ e.parts := by
  rw [Expr.parts_eq]
  exact List.mem_cons_self ..

/-- An expression is larger than its operands. -/
theorem Expr.sizeOf_lt_of_mem_children {e child : Expr α} (h : child ∈ e.children) :
    sizeOf child < sizeOf e := by
  have harg {args : List (Expr α)} (h : child ∈ args) : sizeOf child < sizeOf args :=
    List.sizeOf_lt_of_mem h
  cases e <;> simp only [Expr.children, List.mem_cons, List.not_mem_nil, or_false] at h <;>
    grind

/-- What holds of an expression once it holds of its operands holds of all. -/
theorem Expr.induction {P : Expr α → Prop} (h : ∀ e, (∀ child ∈ e.children, P child) → P e)
    (e : Expr α) : P e :=
  h e (fun child _ => Expr.induction h child)
termination_by sizeOf e
decreasing_by exact Expr.sizeOf_lt_of_mem_children ‹_›

/-- What stands inside an expression is no larger. -/
theorem Expr.sizeOf_le_of_mem_parts {e part : Expr α} (h : part ∈ e.parts) :
    sizeOf part ≤ sizeOf e := by
  induction e using Expr.induction with
  | _ e ih =>
    rw [Expr.parts_eq] at h
    rcases List.mem_cons.mp h with rfl | h
    · exact Nat.le_refl _
    · obtain ⟨child, hchild, h⟩ := List.mem_flatMap.mp h
      exact Nat.le_trans (ih child hchild h) (Nat.le_of_lt (Expr.sizeOf_lt_of_mem_children hchild))

/-- What stands inside an expression is the expression itself, or an operand of something
inside it. -/
theorem Expr.eq_or_mem_children {e part : Expr α} (h : part ∈ e.parts) :
    part = e ∨ ∃ parent ∈ e.parts, part ∈ parent.children := by
  induction e using Expr.induction with
  | _ e ih =>
    rw [Expr.parts_eq] at h
    rcases List.mem_cons.mp h with rfl | h
    · exact .inl rfl
    · obtain ⟨child, hchild, h⟩ := List.mem_flatMap.mp h
      rcases ih child hchild h with rfl | ⟨parent, hparent, h⟩
      · exact .inr ⟨e, e.self_mem_parts, hchild⟩
      · rw [Expr.parts_eq]
        exact .inr ⟨parent, List.mem_cons_of_mem _ (List.mem_flatMap.mpr ⟨child, hchild, hparent⟩), h⟩

/-- The operands of what stands inside an expression stand inside it as well. -/
theorem Expr.mem_parts_of_children {e parent child : Expr α} (h : parent ∈ e.parts)
    (hchild : child ∈ parent.children) : child ∈ e.parts := by
  induction e using Expr.induction with
  | _ e ih =>
    rw [Expr.parts_eq] at h ⊢
    refine List.mem_cons_of_mem _ (List.mem_flatMap.mpr ?_)
    rcases List.mem_cons.mp h with rfl | h
    · exact ⟨child, hchild, child.self_mem_parts⟩
    · obtain ⟨operand, hoperand, h⟩ := List.mem_flatMap.mp h
      exact ⟨operand, hoperand, ih operand hoperand h⟩

mutual

/-- A statement with all statements inside it. -/
def Stmt.parts : Stmt α → List (Stmt α)
  | .block note stmts => .block note stmts :: Stmt.listParts stmts
  | .localVar note type name initializer => [.localVar note type name initializer]
  | .expression note value => [.expression note value]
  | .branch note condition thenBranch elseBranch =>
    .branch note condition thenBranch elseBranch ::
      (thenBranch.parts ++ Stmt.optionParts elseBranch)
  | .whileLoop note condition body => .whileLoop note condition body :: body.parts
  | .forLoop note init condition update body =>
    .forLoop note init condition update body :: (Stmt.optionParts init ++ body.parts)
  | .returnValue note value => [.returnValue note value]
  | .throwValue note value => [.throwValue note value]
  | .breakLoop note => [.breakLoop note]
  | .empty note => [.empty note]
  | .constructorCall note call args => [.constructorCall note call args]
termination_by structural s => s

/-- Statements with all statements inside them. -/
def Stmt.listParts : List (Stmt α) → List (Stmt α)
  | [] => []
  | s :: ss => s.parts ++ Stmt.listParts ss
termination_by structural ss => ss

/-- A statement that may be missing, with all statements inside it. -/
def Stmt.optionParts : Option (Stmt α) → List (Stmt α)
  | none => []
  | some s => s.parts
termination_by structural s => s

end

theorem Stmt.listParts_eq (ss : List (Stmt α)) : Stmt.listParts ss = ss.flatMap Stmt.parts := by
  induction ss with
  | nil => rfl
  | cons s ss ih => rw [Stmt.listParts, ih, List.flatMap_cons]

theorem Stmt.optionParts_eq (s : Option (Stmt α)) :
    Stmt.optionParts s = s.toList.flatMap Stmt.parts := by
  cases s <;> simp [Stmt.optionParts]

theorem Stmt.parts_eq (s : Stmt α) : s.parts = s :: s.stmtChildren.flatMap Stmt.parts := by
  cases s <;> simp [Stmt.parts, Stmt.stmtChildren, Stmt.listParts_eq, Stmt.optionParts_eq]

theorem Stmt.self_mem_parts (s : Stmt α) : s ∈ s.parts := by
  rw [Stmt.parts_eq]
  exact List.mem_cons_self ..

/-- The parts of what stands directly inside a statement are parts of the statement. -/
theorem Stmt.mem_parts_of_mem_children {s child part : Stmt α} (hchild : child ∈ s.stmtChildren)
    (hpart : part ∈ child.parts) : part ∈ s.parts := by
  rw [Stmt.parts_eq]
  exact List.mem_cons_of_mem _ (List.mem_flatMap.mpr ⟨child, hchild, hpart⟩)

/-- A statement is larger than those directly inside it. -/
theorem Stmt.sizeOf_lt_of_mem_children {s child : Stmt α} (h : child ∈ s.stmtChildren) :
    sizeOf child < sizeOf s := by
  have hlist {stmts : List (Stmt α)} (h : child ∈ stmts) : sizeOf child < sizeOf stmts :=
    List.sizeOf_lt_of_mem h
  have hoption {stmt : Option (Stmt α)} (h : child ∈ stmt.toList) :
      sizeOf child < sizeOf stmt := by
    obtain rfl := Option.mem_toList.mp h
    simp
  cases s <;> simp only [Stmt.stmtChildren, List.mem_cons, List.mem_append, List.not_mem_nil,
    or_false] at h <;> grind

/-- What holds of a statement once it holds of the statements directly inside it holds of
all. -/
theorem Stmt.induction {P : Stmt α → Prop} (h : ∀ s, (∀ child ∈ s.stmtChildren, P child) → P s)
    (s : Stmt α) : P s :=
  h s (fun child _ => Stmt.induction h child)
termination_by sizeOf s
decreasing_by exact Stmt.sizeOf_lt_of_mem_children ‹_›

/-- Every expression inside a statement. -/
def Stmt.exprs (s : Stmt α) : List (Expr α) :=
  s.parts.flatMap (fun part => part.exprChildren.flatMap Expr.parts)

theorem Stmt.exprs_eq (s : Stmt α) :
    s.exprs = s.exprChildren.flatMap Expr.parts ++ s.stmtChildren.flatMap Stmt.exprs := by
  unfold Stmt.exprs
  rw [Stmt.parts_eq, List.flatMap_cons, List.flatMap_assoc]

/-- The positions of the expressions inside an expression, its own first. -/
def Expr.ids (e : Expr Mark) : List ExprId := e.parts.map (fun part => part.note.id)

/-- The positions of the expressions inside a statement. -/
def Stmt.exprIds (s : Stmt Mark) : List ExprId := s.exprs.map (fun part => part.note.id)

theorem Expr.ids_eq (e : Expr Mark) : e.ids = e.note.id :: e.children.flatMap Expr.ids := by
  unfold Expr.ids
  rw [Expr.parts_eq, List.map_cons, List.map_flatMap]

theorem Stmt.exprIds_eq (s : Stmt Mark) :
    s.exprIds = s.exprChildren.flatMap Expr.ids ++ s.stmtChildren.flatMap Stmt.exprIds := by
  unfold Stmt.exprIds Expr.ids
  rw [Stmt.exprs_eq, List.map_append, List.map_flatMap, List.map_flatMap]

theorem Expr.note_id_mem_ids (e : Expr Mark) : e.note.id ∈ e.ids := by
  rw [Expr.ids_eq]
  exact List.mem_cons_self ..

/-! ## §2 The nodes of a tree -/

/-- A node of an arena. -/
inductive NodeId where
  | stmt (id : StmtId)
  | expr (id : ExprId)
  deriving DecidableEq, Repr

/-- Whether a node is in bounds. -/
def BodyArena.hasNode (a : BodyArena) : NodeId → Bool
  | .stmt id => a.hasStmt id
  | .expr id => a.hasExpr id

/-- The nodes of an expression. -/
def Expr.nodes (e : Expr Mark) : List NodeId := e.ids.map .expr

/-- The nodes of a statement: each statement in it, followed by its operands. -/
def Stmt.nodes (s : Stmt Mark) : List NodeId :=
  s.parts.flatMap (fun part => .stmt part.note.id :: part.exprChildren.flatMap Expr.nodes)

theorem Expr.nodes_eq (e : Expr Mark) :
    e.nodes = .expr e.note.id :: e.children.flatMap Expr.nodes := by
  unfold Expr.nodes
  rw [Expr.ids_eq, List.map_cons, List.map_flatMap]

theorem Stmt.nodes_eq (s : Stmt Mark) :
    s.nodes = .stmt s.note.id ::
      (s.exprChildren.flatMap Expr.nodes ++ s.stmtChildren.flatMap Stmt.nodes) := by
  unfold Stmt.nodes
  rw [Stmt.parts_eq, List.flatMap_cons, List.flatMap_assoc, List.cons_append]

theorem Stmt.stmtNodes_sublist (s : Stmt Mark) :
    (s.parts.map (fun part => NodeId.stmt part.note.id)).Sublist s.nodes := by
  rw [← List.flatMap_pure_eq_map]
  exact List.Sublist.flatMap_right _ (fun part _ => (List.nil_sublist _).cons_cons _)

/-- A tree without repeated nodes has no repeated statements. -/
theorem Stmt.parts_nodup {s : Stmt Mark} (h : s.nodes.Nodup) : s.parts.Nodup :=
  (h.sublist s.stmtNodes_sublist).of_map

theorem Stmt.exprNodes_sublist (s : Stmt Mark) : (s.exprIds.map NodeId.expr).Sublist s.nodes := by
  unfold Stmt.exprIds Stmt.exprs Stmt.nodes
  rw [List.map_flatMap, List.map_flatMap]
  refine List.Sublist.flatMap_right _ (fun part _ => ?_)
  rw [List.map_flatMap, List.map_flatMap]
  exact List.sublist_cons_self ..

namespace BodyArena

/-- The expression positions of trees that may be missing. -/
def exprTreeIds (trees : List (Option (Expr Mark))) : List ExprId :=
  trees.flatMap (fun tree => tree.elim [] Expr.ids)

/-- The expression positions of trees that may be missing. -/
def stmtTreeIds (trees : List (Option (Stmt Mark))) : List ExprId :=
  trees.flatMap (fun tree => tree.elim [] Stmt.exprIds)

end BodyArena

end JoosStatics
