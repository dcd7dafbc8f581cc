/-
JoosStatics.Proofs.Typing.Scoping — where the parts of a body stand.

A local variable is visible from the statement after its declaration to the
end of the block, branch, loop body or loop around it. `placedStmts` lists
the statements of a body and `placedExprs` its outermost expressions, each
with the variables that are visible where it stands. Both are read off the
text of the body alone.

* `map_snd_placedStmts` — all statements of a body are listed, in order.
* `mem_exprsOf_iff` — every expression of a body stands somewhere in it.
-/
import JoosStatics.Proofs.Bodies.Content
import JoosStatics.Proofs.Linking.Signatures

namespace JoosStatics

/-- Where an expression stands: the variables that are visible there, innermost
first, and whether the place is among the arguments of `this(...)` or
`super(...)`. -/
structure Place where
  visible : List LocalVar
  inInvocation : Bool
  deriving DecidableEq

/-- Whether a statement invokes another constructor. -/
def Stmt.isInvocation {α : Type} : Stmt α → Bool
  | .constructorCall .. => true
  | _ => false

namespace ClassContext

variable (cls : ClassContext)

/-! ## §1 Inside a statement -/

/-- The variables that a statement declares for the statements after it. -/
def declared : Stmt Mark → List LocalVar
  | .localVar mark type name _ =>
    [{ name, type := type.typeIn (cls.symbols.denotation cls.classId), span := mark.range,
       isParam := false }]
  | _ => []

/-- The variables that are visible in the operands of a statement, given those that
are visible in front of it: a loop sees what its initializer declares. -/
def visibleInside (visible : List LocalVar) : Stmt Mark → List LocalVar
  | .forLoop _ init _ _ _ => init.toList.flatMap cls.declared ++ visible
  | _ => visible

mutual

/-- A statement with all statements inside it, each with the variables that are
visible in front of it. -/
def placed (visible : List LocalVar) : Stmt Mark → List (List LocalVar × Stmt Mark)
  | .block mark stmts => (visible, .block mark stmts) :: listPlaced visible stmts
  | .branch mark condition thenBranch elseBranch =>
    (visible, .branch mark condition thenBranch elseBranch) ::
      (placed visible thenBranch ++ optionPlaced visible elseBranch)
  | .whileLoop mark condition body => (visible, .whileLoop mark condition body) :: placed visible body
  | .forLoop mark init condition update body =>
    (visible, .forLoop mark init condition update body) ::
      (optionPlaced visible init ++ placed (init.toList.flatMap cls.declared ++ visible) body)
  | s => [(visible, s)]
termination_by structural s => s

/-- Statements one after the other: each one sees what those before it declare. -/
def listPlaced (visible : List LocalVar) : List (Stmt Mark) → List (List LocalVar × Stmt Mark)
  | [] => []
  | s :: ss => placed visible s ++ listPlaced (cls.declared s ++ visible) ss
termination_by structural ss => ss

/-- A statement that may be missing. -/
def optionPlaced (visible : List LocalVar) :
    Option (Stmt Mark) → List (List LocalVar × Stmt Mark)
  | none => []
  | some s => placed visible s
termination_by structural s => s

end

/-- The operands of a statement, with the variables that are visible there. -/
def placedOperands (visible : List LocalVar) (s : Stmt Mark) : List (Place × Expr Mark) :=
  s.exprChildren.map (fun e => (⟨cls.visibleInside visible s, s.isInvocation⟩, e))

mutual

theorem map_snd_placed (visible : List LocalVar) (s : Stmt Mark) :
    (cls.placed visible s).map Prod.snd = s.parts := by
  match s with
  | .block mark stmts =>
    rw [placed, List.map_cons, map_snd_listPlaced, Stmt.parts]
  | .branch mark condition thenBranch elseBranch =>
    rw [placed, List.map_cons, List.map_append, map_snd_placed, map_snd_optionPlaced, Stmt.parts]
  | .whileLoop mark condition body =>
    rw [placed, List.map_cons, map_snd_placed, Stmt.parts]
  | .forLoop mark init condition update body =>
    rw [placed, List.map_cons, List.map_append, map_snd_optionPlaced, map_snd_placed, Stmt.parts]
  | .localVar .. | .expression .. | .returnValue .. | .throwValue .. | .breakLoop _ | .empty _
  | .constructorCall .. => rfl
termination_by structural s

theorem map_snd_listPlaced (visible : List LocalVar) (ss : List (Stmt Mark)) :
    (cls.listPlaced visible ss).map Prod.snd = Stmt.listParts ss := by
  match ss with
  | [] => rfl
  | s :: ss => rw [listPlaced, List.map_append, map_snd_placed, map_snd_listPlaced, Stmt.listParts]
termination_by structural ss

theorem map_snd_optionPlaced (visible : List LocalVar) (s : Option (Stmt Mark)) :
    (cls.optionPlaced visible s).map Prod.snd = Stmt.optionParts s := by
  match s with
  | none => rfl
  | some s => rw [optionPlaced, map_snd_placed, Stmt.optionParts]
termination_by structural s

end

/-- The statements of a body stand in front of the same variables as the body, the
body itself apart. -/
theorem mem_placed_statements {visible : List LocalVar} {body : Stmt Mark}
    {entry : List LocalVar × Stmt Mark} (h : entry ∈ cls.placed visible body) :
    (∃ mark stmts, entry = (visible, .block mark stmts)) ∨
      entry ∈ cls.listPlaced visible body.statements := by
  cases body with
  | block mark stmts =>
    rw [placed] at h
    exact (List.mem_cons.mp h).imp (fun heq => ⟨mark, stmts, heq⟩) id
  | _ => exact .inr (List.mem_append_left _ h)

/-! ## §2 Bodies -/

/-- Parameters as variables, the last one first. -/
def paramVars (params : List (Param × Ty)) : List LocalVar :=
  (params.map (fun (param, type) =>
    { name := param.name, type, span := param.range, isParam := true })).reverse

/-- The parameters of a member. -/
def params : BodyOwner → List LocalVar
  | .field _ => []
  | .method index =>
    paramVars ((cls.decl.methodParams index).zip
      (cls.table.methodAt ⟨cls.classId, index⟩).params)
  | .constructor index =>
    paramVars ((cls.decl.constructorParams index).zip
      (cls.table.constructorAt ⟨cls.classId, index⟩).params)

end ClassContext

/-- The body of a method or constructor. -/
def TypeDecl.bodyTree? (d : TypeDecl) : BodyOwner → Option (Stmt Mark)
  | .field _ => none
  | .method index => d.methodTree? index
  | .constructor index => d.constructorTree? index

namespace ClassContext

variable (cls : ClassContext)

/-- The statements in the body of a member, each with the variables that are visible
in front of it. -/
def placedStmts (owner : BodyOwner) : List (List LocalVar × Stmt Mark) :=
  (cls.decl.bodyTree? owner).elim [] (cls.placed (cls.params owner))

/-- The outermost expressions in the body of a member, each with the place where it
stands. -/
def placedExprs : BodyOwner → List (Place × Expr Mark)
  | .field index => (cls.decl.initializerTree? index).toList.map (fun e => (⟨[], false⟩, e))
  | owner => (cls.placedStmts owner).flatMap (fun (visible, s) => cls.placedOperands visible s)

/-- An expression stands at a place of a body, alone or inside another one. -/
def StandsAt (owner : BodyOwner) (place : Place) (e : Expr Mark) : Prop :=
  ∃ root, (place, root) ∈ cls.placedExprs owner ∧ e ∈ root.parts

variable {cls}

/-- All statements of a body are listed. -/
theorem map_snd_placedStmts (owner : BodyOwner) :
    (cls.placedStmts owner).map Prod.snd = cls.decl.stmtsOf owner := by
  have hmap (tree : Option (Stmt Mark)) :
      (tree.elim [] (cls.placed (cls.params owner))).map Prod.snd = tree.elim [] Stmt.parts := by
    cases tree with
    | none => rfl
    | some body => exact cls.map_snd_placed _ body
  cases owner with
  | field index => rfl
  | method index => exact hmap _
  | constructor index => exact hmap _

/-- The outermost expressions in a body of statements are their operands. -/
theorem placedExprs_eq {owner : BodyOwner} (howner : ∀ index, owner ≠ .field index) :
    cls.placedExprs owner =
      (cls.placedStmts owner).flatMap (fun (visible, s) => cls.placedOperands visible s) := by
  cases owner with
  | field index => exact absurd rfl (howner index)
  | method index => rfl
  | constructor index => rfl

theorem map_snd_placedExprs {owner : BodyOwner} (howner : ∀ index, owner ≠ .field index) :
    (cls.placedExprs owner).map Prod.snd = (cls.decl.stmtsOf owner).flatMap Stmt.exprChildren := by
  rw [placedExprs_eq howner, List.map_flatMap, ← map_snd_placedStmts, List.flatMap_map]
  congr 1
  funext entry
  simp [placedOperands]

/-- Every expression of a body stands somewhere in it. -/
theorem mem_exprsOf_iff {owner : BodyOwner} {e : Expr Mark} :
    e ∈ cls.decl.exprsOf owner ↔ ∃ place, cls.StandsAt owner place e := by
  have hroots : (∃ place, cls.StandsAt owner place e) ↔
      e ∈ ((cls.placedExprs owner).map Prod.snd).flatMap Expr.parts := by
    simp only [StandsAt, List.mem_flatMap, List.mem_map, Prod.exists, exists_eq_right]
    constructor
    · rintro ⟨place, root, hroot, he⟩
      exact ⟨root, ⟨place, hroot⟩, he⟩
    · rintro ⟨root, ⟨place, hroot⟩, he⟩
      exact ⟨place, root, hroot, he⟩
  have hbody (tree : Option (Stmt Mark)) :
      ((tree.elim [] Stmt.parts).flatMap Stmt.exprChildren).flatMap Expr.parts =
        tree.elim [] Stmt.exprs := by
    cases tree with
    | none => rfl
    | some body => exact List.flatMap_assoc ..
  rw [hroots]
  cases owner with
  | field index =>
    rw [placedExprs, TypeDecl.exprsOf]
    cases cls.decl.initializerTree? index <;> simp
  | method index =>
    rw [map_snd_placedExprs (by simp), TypeDecl.stmtsOf, hbody]
    rfl
  | constructor index =>
    rw [map_snd_placedExprs (by simp), TypeDecl.stmtsOf, hbody]
    rfl

end ClassContext

end JoosStatics
