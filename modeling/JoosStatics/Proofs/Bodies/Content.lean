/-
JoosStatics.Proofs.Bodies.Content — what stands in the body of a member.

`TypeDecl.stmtsOf` and `TypeDecl.exprsOf` list the statements and expressions
of a body, `TypeDecl.bodyIds` the positions of the expressions, and
`TypeDecl.superArgs?` the arguments of the invocation `super(...)`, written or
implied, at the start of a constructor. In a well-formed declaration the
positions are distinct:

* `bodyIds_nodup` — inside one body.
* `bodyIds_disjoint` — across the bodies of a declaration.
-/
import JoosStatics.Bodies.Members
import JoosStatics.Proofs.Syntax.Reading
import Mathlib.Data.List.Basic
import Mathlib.Data.List.Pairwise

namespace JoosStatics

namespace TypeDecl

/-- Every statement in the body of a member. -/
def stmtsOf (d : TypeDecl) : BodyOwner → List (Stmt Mark)
  | .field _ => []
  | .method index => (d.methodTree? index).elim [] Stmt.parts
  | .constructor index => (d.constructorTree? index).elim [] Stmt.parts

/-- Every expression in the body of a member. -/
def exprsOf (d : TypeDecl) : BodyOwner → List (Expr Mark)
  | .field index => (d.initializerTree? index).elim [] Expr.parts
  | .method index => (d.methodTree? index).elim [] Stmt.exprs
  | .constructor index => (d.constructorTree? index).elim [] Stmt.exprs

/-- The positions of the expressions in the body of a member. -/
def bodyIds (d : TypeDecl) (owner : BodyOwner) : List ExprId :=
  (d.exprsOf owner).map (fun e => e.note.id)

end TypeDecl

/-- The arguments of the `super(...)` that a constructor body starts with; one
that starts with `this(...)` has none. -/
def Stmt.superArgs? (body : Stmt Mark) : Option (List (Expr Mark)) :=
  match body.statements with
  | .constructorCall _ .this _ :: _ => none
  | .constructorCall _ .super args :: _ => some args
  | _ => some []

namespace TypeDecl

/-- The arguments of the `super(...)` that a constructor starts with. A type
without written constructors has a default one. -/
def superArgs? (d : TypeDecl) (index : Nat) : Option (List (Expr Mark)) :=
  if d.constructors.isEmpty then some [] else (d.constructorTree? index).bind Stmt.superArgs?

variable {d : TypeDecl}

theorem mem_elim_nil {α β : Type} {x : Option α} {f : α → List β} {y : β} :
    y ∈ x.elim [] f ↔ ∃ a, x = some a ∧ y ∈ f a := by
  cases x <;> simp

/-- Statements stand in the bodies of methods and constructors. -/
theorem mem_stmtsOf {owner : BodyOwner} {s : Stmt Mark} (h : s ∈ d.stmtsOf owner) :
    (∃ index body, owner = .method index ∧ d.methodTree? index = some body ∧ s ∈ body.parts) ∨
    ∃ index body, owner = .constructor index ∧ d.constructorTree? index = some body ∧
      s ∈ body.parts := by
  cases owner with
  | field index => cases h
  | method index =>
    obtain ⟨body, hbody, h⟩ := mem_elim_nil.mp h
    exact Or.inl ⟨index, body, rfl, hbody, h⟩
  | constructor index =>
    obtain ⟨body, hbody, h⟩ := mem_elim_nil.mp h
    exact Or.inr ⟨index, body, rfl, hbody, h⟩

theorem bodyIds_field (d : TypeDecl) (index : Nat) :
    d.bodyIds (.field index) = (d.initializerTree? index).elim [] Expr.ids := by
  rw [bodyIds, exprsOf]
  cases d.initializerTree? index <;> rfl

theorem bodyIds_method (d : TypeDecl) (index : Nat) :
    d.bodyIds (.method index) = (d.methodTree? index).elim [] Stmt.exprIds := by
  rw [bodyIds, exprsOf]
  cases d.methodTree? index <;> rfl

theorem bodyIds_constructor (d : TypeDecl) (index : Nat) :
    d.bodyIds (.constructor index) = (d.constructorTree? index).elim [] Stmt.exprIds := by
  rw [bodyIds, exprsOf]
  cases d.constructorTree? index <;> rfl

/-! ## §1 The written members -/

/-- The members that are written in the declaration. -/
def writtenOwners (d : TypeDecl) : List BodyOwner :=
  (List.range d.constructors.length).map .constructor ++
    (List.range d.methods.length).map .method ++ (List.range d.fields.length).map .field

/-- Other members have no body. -/
theorem bodyIds_of_notMem {owner : BodyOwner} (h : owner ∉ d.writtenOwners) :
    d.bodyIds owner = [] := by
  simp only [writtenOwners, List.mem_append, List.mem_map, List.mem_range, not_or] at h
  obtain ⟨⟨hconstructor, hmethod⟩, hfield⟩ := h
  cases owner with
  | field index =>
    have hnone : d.fields[index]? = none :=
      List.getElem?_eq_none (Nat.le_of_not_lt (fun hlt => hfield ⟨index, hlt, rfl⟩))
    rw [bodyIds_field, initializerTree?, hnone]
    rfl
  | method index =>
    have hnone : d.methods[index]? = none :=
      List.getElem?_eq_none (Nat.le_of_not_lt (fun hlt => hmethod ⟨index, hlt, rfl⟩))
    rw [bodyIds_method, methodTree?, hnone]
    rfl
  | constructor index =>
    have hnone : d.constructors[index]? = none :=
      List.getElem?_eq_none (Nat.le_of_not_lt (fun hlt => hconstructor ⟨index, hlt, rfl⟩))
    rw [bodyIds_constructor, constructorTree?, hnone]
    rfl

theorem flatMap_eq_range {α β : Type} (items : List α) (f : α → List β) :
    items.flatMap f = (List.range items.length).flatMap (fun i => (items[i]?).elim [] f) := by
  induction items with
  | nil => rfl
  | cons item items ih =>
    rw [List.flatMap_cons, List.length_cons, List.range_succ_eq_map, List.flatMap_cons,
      List.flatMap_map, ih]
    rfl

theorem flatMap_toList_elim {α β γ : Type} (a : Option α) (g : α → Option β) (f : β → List γ) :
    a.toList.flatMap (fun x => (g x).elim [] f) = (a.bind g).elim [] f := by
  cases a <;> simp

/-- The trees below the roots of a declaration are the bodies of its members. -/
theorem treeIds_eq (d : TypeDecl) :
    BodyArena.stmtTreeIds (d.stmtRoots.map d.bodies.stmt?) ++
      BodyArena.exprTreeIds (d.exprRoots.map d.bodies.expr?) =
    d.writtenOwners.flatMap d.bodyIds := by
  have hconstructors : BodyArena.stmtTreeIds
      ((d.constructors.map ConstructorDecl.body).map d.bodies.stmt?) =
      (List.range d.constructors.length).flatMap (fun i => d.bodyIds (.constructor i)) := by
    rw [BodyArena.stmtTreeIds, List.map_map, List.flatMap_map, flatMap_eq_range]
    congr 1
    funext i
    rw [bodyIds_constructor, constructorTree?]
    cases d.constructors[i]? <;> rfl
  have hmethods : BodyArena.stmtTreeIds
      ((d.methods.filterMap MethodDecl.body).map d.bodies.stmt?) =
      (List.range d.methods.length).flatMap (fun i => d.bodyIds (.method i)) := by
    rw [BodyArena.stmtTreeIds, List.flatMap_map, List.filterMap_eq_flatMap_toList,
      List.flatMap_assoc, flatMap_eq_range]
    congr 1
    funext i
    rw [bodyIds_method, methodTree?]
    cases d.methods[i]? with
    | none => rfl
    | some method => exact flatMap_toList_elim method.body d.bodies.stmt? Stmt.exprIds
  have hfields : BodyArena.exprTreeIds (d.exprRoots.map d.bodies.expr?) =
      (List.range d.fields.length).flatMap (fun i => d.bodyIds (.field i)) := by
    rw [BodyArena.exprTreeIds, exprRoots, List.flatMap_map, List.filterMap_eq_flatMap_toList,
      List.flatMap_assoc, flatMap_eq_range]
    congr 1
    funext i
    rw [bodyIds_field, initializerTree?]
    cases d.fields[i]? with
    | none => rfl
    | some field => exact flatMap_toList_elim field.initializer d.bodies.expr? Expr.ids
  rw [stmtRoots, List.map_append, BodyArena.stmtTreeIds, List.flatMap_append,
    ← BodyArena.stmtTreeIds, ← BodyArena.stmtTreeIds, hconstructors, hmethods, hfields,
    writtenOwners]
  simp only [List.flatMap_append, List.flatMap_map]

/-! ## §2 Distinct positions -/

theorem nodup_writtenOwners_bodyIds (h : d.isWellFormed = true) :
    (d.writtenOwners.flatMap d.bodyIds).Nodup := by
  obtain ⟨ss, es, hss, hes, hdistinct⟩ := exists_trees h
  have hstmts : d.stmtRoots.map d.bodies.stmt? = ss.map some := by
    rwa [← List.forall₂_eq_eq_eq, List.forall₂_map_left_iff, List.forall₂_map_right_iff]
  have hexprs : d.exprRoots.map d.bodies.expr? = es.map some := by
    rwa [← List.forall₂_eq_eq_eq, List.forall₂_map_left_iff, List.forall₂_map_right_iff]
  rw [← treeIds_eq, hstmts, hexprs, BodyArena.stmtTreeIds, BodyArena.exprTreeIds,
    List.flatMap_map, List.flatMap_map]
  have hids : ((ss.flatMap Stmt.exprIds ++ es.flatMap Expr.ids).map NodeId.expr).Nodup := by
    rw [List.map_append, List.map_flatMap, List.map_flatMap]
    exact hdistinct.nodup.sublist ((List.Sublist.flatMap_right _
      (fun s _ => s.exprNodes_sublist)).append (List.Sublist.refl _))
  exact hids.of_map

/-- No expression position comes up twice in a body. -/
theorem bodyIds_nodup (h : d.isWellFormed = true) (owner : BodyOwner) :
    (d.bodyIds owner).Nodup := by
  by_cases howner : owner ∈ d.writtenOwners
  · exact (List.nodup_flatMap.mp (nodup_writtenOwners_bodyIds h)).1 owner howner
  · rw [bodyIds_of_notMem howner]
    exact List.nodup_nil

/-- No statement comes up twice in a body. -/
theorem stmtsOf_nodup (h : d.isWellFormed = true) (owner : BodyOwner) :
    (d.stmtsOf owner).Nodup := by
  have hparts {root : StmtId} {body : Stmt Mark} (hroot : root ∈ d.stmtRoots)
      (hbody : d.bodies.stmt? root = some body) : body.parts.Nodup := by
    obtain ⟨s, hs, hdistinct⟩ := exists_stmt h hroot
    rw [hbody] at hs
    cases hs
    exact Stmt.parts_nodup hdistinct.nodup
  cases owner with
  | field index => exact List.nodup_nil
  | method index =>
    rw [stmtsOf]
    cases htree : d.methodTree? index with
    | none => exact List.nodup_nil
    | some body =>
      obtain ⟨method, hmethod, hbody⟩ := Option.bind_eq_some_iff.mp htree
      obtain ⟨root, hroot, hbody⟩ := Option.bind_eq_some_iff.mp hbody
      refine hparts (List.mem_append_right _ ?_) hbody
      exact List.mem_filterMap.mpr ⟨method, List.mem_of_getElem? hmethod, hroot⟩
  | constructor index =>
    rw [stmtsOf]
    cases htree : d.constructorTree? index with
    | none => exact List.nodup_nil
    | some body =>
      obtain ⟨constructor, hconstructor, hbody⟩ := Option.bind_eq_some_iff.mp htree
      refine hparts (List.mem_append_left _ ?_) hbody
      exact List.mem_map_of_mem (List.mem_of_getElem? hconstructor)

/-- No expression position comes up in two bodies. -/
theorem bodyIds_disjoint (h : d.isWellFormed = true) {owner other : BodyOwner}
    (hne : owner ≠ other) : (d.bodyIds owner).Disjoint (d.bodyIds other) := by
  by_cases howner : owner ∈ d.writtenOwners
  · by_cases hother : other ∈ d.writtenOwners
    · have hpairs := (List.nodup_flatMap.mp (nodup_writtenOwners_bodyIds h)).2
      have : Std.Symm (Function.onFun List.Disjoint d.bodyIds) :=
        ⟨fun _ _ h => List.disjoint_symm h⟩
      exact hpairs.forall howner hother hne
    · rw [bodyIds_of_notMem hother]
      exact List.disjoint_nil_right _
  · rw [bodyIds_of_notMem howner]
    exact List.disjoint_nil_left _

end TypeDecl

end JoosStatics
