/-
JoosStatics.Proofs.Renaming.Members — the body of a member in two accounts.

Two accounts of a type agree when they agree on the table, on the members
and on names (`ClassContext.Renames`); two members agree when one stands
for the other and has the same parameters and the same body, up to spans
(`BodyOwner.Renames`). Then the two checks of the member agree, when they
agree on each step (`checkBody_simulates`).

Where the members of two programs are numbered alike, the checks of all bodies
agree when those of each body do (`Linked.PairedChecks`).
-/
import JoosStatics.Bodies.Check
import JoosStatics.Proofs.Bodies.Content
import JoosStatics.Proofs.Renaming.Steps

namespace JoosStatics

/-! ## §1 One member -/

variable {ρ : Renaming} {cls cls' : ClassContext} {owner owner' : BodyOwner}

/-- Two contexts give the same account of a type and of what it may refer to. -/
structure ClassContext.Renames (ρ : Renaming) (cls cls' : ClassContext) : Prop where
  table : cls.table.Renames ρ cls'.table
  lookup : ∀ name, cls'.symbols.lookup name = (cls.symbols.lookup name).map ρ.type
  field? : ∀ id name, (cls'.hierarchy.members (ρ.type id)).field? name =
    ((cls.hierarchy.members id).field? name).map ρ.field
  methodsNamed : ∀ id name, (cls'.hierarchy.methodsNamed (ρ.type id) name).Perm
    ((cls.hierarchy.methodsNamed id name).map ρ.method)
  classId : cls'.classId = ρ.type cls.classId

/-- The same member in two accounts of a type. -/
inductive BodyOwner.Renames (ρ : Renaming) (cls cls' : ClassContext) :
    BodyOwner → BodyOwner → Prop where
  | field {index index' : Nat}
    (ref : ρ.field ⟨cls.classId, index⟩ = ⟨cls'.classId, index'⟩)
    (tree : cls'.decl.initializerTree? index' =
      (cls.decl.initializerTree? index).map (Expr.mapSpans ρ.span)) :
    Renames ρ cls cls' (.field index) (.field index')
  | method {index index' : Nat}
    (ref : ρ.method ⟨cls.classId, index⟩ = ⟨cls'.classId, index'⟩)
    (tree : cls'.decl.methodTree? index' =
      (cls.decl.methodTree? index).map (Stmt.mapSpans ρ.span))
    (params : cls'.decl.methodParams index' =
      (cls.decl.methodParams index).map (Param.mapSpans ρ.span)) :
    Renames ρ cls cls' (.method index) (.method index')
  | constructor {index index' : Nat}
    (ref : ρ.constructor ⟨cls.classId, index⟩ = ⟨cls'.classId, index'⟩)
    (tree : cls'.decl.constructorTree? index' =
      (cls.decl.constructorTree? index).map (Stmt.mapSpans ρ.span))
    (params : cls'.decl.constructorParams index' =
      (cls.decl.constructorParams index).map (Param.mapSpans ρ.span)) :
    Renames ρ cls cls' (.constructor index) (.constructor index')

/-- A type and its members give the same account as themselves. -/
theorem ClassContext.renames_refl (cls : ClassContext) (sameLocal : LocalId → LocalId → Prop) :
    cls.Renames (.identity sameLocal) cls where
  table := cls.table.renames_refl sameLocal
  lookup _ := Option.map_id_apply.symm
  field? _ _ := Option.map_id_apply.symm
  methodsNamed _ _ := (List.map_id _) ▸ .refl _
  classId := rfl

theorem BodyOwner.renames_refl (cls : ClassContext) (sameLocal : LocalId → LocalId → Prop)
    (owner : BodyOwner) : owner.Renames (.identity sameLocal) cls cls owner := by
  cases owner with
  | field index => exact .field rfl (Expr.map_mapSpans_id _).symm
  | method index =>
    exact .method rfl (Stmt.map_mapSpans_id _).symm (Param.map_mapSpans_id _).symm
  | constructor index =>
    exact .constructor rfl (Stmt.map_mapSpans_id _).symm (Param.map_mapSpans_id _).symm

namespace ClassContext.Renames

/-- Contexts for two members agree when the members themselves do. -/
theorem toBody (h : cls.Renames ρ cls') {member : String} {isStatic : Bool} {expectedReturn : Ty}
    {throws : List ClassId} {ctx' : BodyContext}
    (hctx' : ctx' = { cls' with member, isStatic, expectedReturn := expectedReturn.rename ρ.type
                                throws := throws.map ρ.type }) :
    BodyContext.Renames ρ { cls with member, isStatic, expectedReturn, throws } ctx' := by
  subst hctx'
  exact {
    table := h.table, lookup := h.lookup, field? := h.field?, methodsNamed := h.methodsNamed
    classId := h.classId, member := rfl, isStatic := rfl, thisForbidden := rfl
    expectedReturn := rfl, throws := rfl }

/-- What the check of a member knows is the same in both accounts. -/
theorem bodyContext (h : cls.Renames ρ cls') (howner : owner.Renames ρ cls cls' owner') :
    (cls.bodyContext owner).Renames ρ (cls'.bodyContext owner') := by
  cases howner with
  | field ref _ =>
    refine h.toBody ?_
    simp only [ClassContext.bodyContext, ← ref, h.table.fieldAt]
    rfl
  | method ref _ _ =>
    refine h.toBody ?_
    simp only [ClassContext.bodyContext, ← ref, h.table.methodAt, h.table.methodSignature]
    rfl
  | constructor ref _ _ =>
    have hname : (cls'.table.classAt cls'.classId).simpleName =
        (cls.table.classAt cls.classId).simpleName := by
      rw [h.classId, h.table.simpleName]
    refine h.toBody ?_
    simp only [ClassContext.bodyContext, ← ref, h.table.constructorAt, ConstructorDef.rename, hname,
      h.table.signature]
    rfl

variable {I : CheckState → CheckState → Prop} {E : Violation → Violation → Prop}

/-- The two checks of a member agree. -/
theorem checkBody_simulates (h : cls.Renames ρ cls') (howner : owner.Renames ρ cls cls' owner')
    (hP : PairedSteps ρ I E (cls.bodyContext owner) (cls'.bodyContext owner')
      (· ∈ cls.decl.exprsOf owner) (· ∈ cls.decl.stmtsOf owner))
    (htarget : ∀ index target, owner = .constructor index →
      Simulates I E (fun _ _ => True) (CheckM.recordTarget ⟨cls.classId, index⟩ target)
        (CheckM.recordTarget (ρ.constructor ⟨cls.classId, index⟩) (ρ.constructor target))) :
    Simulates I E (fun _ _ => True) (cls.checkBody owner) (cls'.checkBody owner') := by
  have hnil : Scope.Renames ρ [] [] := .nil
  cases howner with
  | @field index index' ref tree =>
    show Simulates I E _ (cls.checkField index) (cls'.checkField index')
    unfold checkField
    rw [tree, ← ref, h.table.fieldAt]
    refine checkInitializer_simulates hP hnil _ _ (fun e he part hpart => ?_)
    rw [TypeDecl.exprsOf, Option.mem_toList.mp he]
    exact hpart
  | @method index index' ref tree params =>
    show Simulates I E _ (cls.checkMethod index) (cls'.checkMethod index')
    simp only [checkMethod, tree, params, ← ref, h.table.methodAt, MethodDef.rename]
    cases hbody : cls.decl.methodTree? index with
    | none => exact .pure trivial
    | some body =>
      have hwithin := TypeDecl.within_of_methodTree? hbody
      simp only [Option.map_some, List.zip_map]
      refine .bind (declareParams_simulates hP hnil _) (fun scope scope' hscope => ?_)
      exact .bind (checkStmt_simulates hP hscope body hwithin) (fun _ _ _ => .pure trivial)
  | @constructor index index' ref tree params =>
    show Simulates I E _ (cls.checkConstructor index) (cls'.checkConstructor index')
    simp only [checkConstructor, tree, params, ← ref, h.table.constructorAt,
      ConstructorDef.rename]
    split
    · exact checkSuperInvocation_simulates hP hnil [] _ (List.forall_mem_nil _)
    · cases hbody : cls.decl.constructorTree? index with
      | none => exact .pure trivial
      | some body =>
        have hwithin := TypeDecl.within_of_constructorTree? hbody
        simp only [Option.map_some, List.zip_map]
        refine .bind (declareParams_simulates hP hnil _) (fun scope scope' hscope => ?_)
        exact checkConstructorBody_simulates hP hscope body hwithin
          (fun target => htarget index target rfl)

end ClassContext.Renames

/-! ## §2 All members -/

variable {I : CheckState → CheckState → Prop} {E : Violation → Violation → Prop}

/-- The checks of several bodies find violations that correspond. -/
theorem ClassContext.checkBodies_simulates
    (hbody : ∀ owner, Simulates I E (fun _ _ => True) (cls.checkBody owner) (cls'.checkBody owner))
    (collectAll : Bool) (owners : List BodyOwner) {st st' : CheckState} (hst : I st st') :
    List.Forall₂ E (cls.checkBodies collectAll owners st).1
        (cls'.checkBodies collectAll owners st').1 ∧
      I (cls.checkBodies collectAll owners st).2 (cls'.checkBodies collectAll owners st').2 := by
  induction owners generalizing st st' with
  | nil => exact ⟨.nil, hst⟩
  | cons owner rest ih =>
    have hfirst := hbody owner st st' hst
    unfold checkBodies
    revert hfirst
    rcases cls.checkBody owner st with ⟨result, st₁⟩
    rcases cls'.checkBody owner st' with ⟨result', st₁'⟩
    rintro ⟨hst₁, hresult⟩
    cases hresult with
    | ok _ => exact ih hst₁
    | error hv =>
      obtain ⟨hothers, hlast⟩ := ih hst₁
      cases collectAll with
      | true => exact ⟨.cons hv hothers, hlast⟩
      | false => exact ⟨.cons hv .nil, hst₁⟩

namespace Linked

/-- The types of two linked programs are checked alike: the check of a type starts in states
that are related, ends with facts that are, and agrees on each body in between. -/
structure PairedChecks (I : CheckState → CheckState → Prop) (E : Violation → Violation → Prop)
    (J : ProgramFacts → ProgramFacts → Prop) (l l' : Linked) (h : Hierarchy)
    (ids : List ClassId) : Prop where
  start : ∀ facts facts', J facts facts' →
    I { lookups := facts.lookups, targets := facts.targets }
      { lookups := facts'.lookups, targets := facts'.targets }
  finish : ∀ id facts facts' st st', J facts facts' → I st st' →
    J { classes := facts.classes.insert id st.facts, targets := st.targets, lookups := st.lookups }
      { classes := facts'.classes.insert id st'.facts, targets := st'.targets
        lookups := st'.lookups }
  owners : ∀ id ∈ ids, (l'.classContext h id).owners = (l.classContext h id).owners
  body : ∀ id ∈ ids, ∀ owner, Simulates I E (fun _ _ => True)
    ((l.classContext h id).checkBody owner) ((l'.classContext h id).checkBody owner)

namespace PairedChecks

variable {J : ProgramFacts → ProgramFacts → Prop} {l l' : Linked} {h : Hierarchy}

theorem checkClasses {ids : List ClassId} (hpaired : PairedChecks I E J l l' h ids)
    (collectAll : Bool) {facts facts' : ProgramFacts} (hfacts : J facts facts') :
    List.Forall₂ E (l.checkClasses h collectAll ids facts).1
        (l'.checkClasses h collectAll ids facts').1 ∧
      J (l.checkClasses h collectAll ids facts).2 (l'.checkClasses h collectAll ids facts').2 := by
  induction ids generalizing facts facts' with
  | nil => exact ⟨.nil, hfacts⟩
  | cons id rest ih =>
    obtain ⟨howners, hothers⟩ := List.forall_mem_cons.mp hpaired.owners
    obtain ⟨hbody, hbodies⟩ := List.forall_mem_cons.mp hpaired.body
    have hfirst := ClassContext.checkBodies_simulates hbody collectAll
      (l.classContext h id).owners (hpaired.start facts facts' hfacts)
    unfold Linked.checkClasses
    simp only [howners]
    revert hfirst
    rcases (l.classContext h id).checkBodies collectAll (l.classContext h id).owners
      { lookups := facts.lookups, targets := facts.targets } with ⟨violations, st⟩
    rcases (l'.classContext h id).checkBodies collectAll (l.classContext h id).owners
      { lookups := facts'.lookups, targets := facts'.targets } with ⟨violations', st'⟩
    rintro ⟨hviolations, hst⟩
    have hnext := hpaired.finish id facts facts' st st' hfacts hst
    have hsame : violations'.isEmpty = violations.isEmpty := by
      cases hviolations <;> rfl
    simp only [hsame]
    split
    · obtain ⟨hrest, hlast⟩ :=
        ih ⟨hpaired.start, hpaired.finish, hothers, hbodies⟩ hnext
      exact ⟨List.rel_append hviolations hrest, hlast⟩
    · exact ⟨hviolations, hnext⟩

/-- Type checking finds violations that correspond, and else facts that do. -/
theorem checkBodies (hpaired : PairedChecks I E J l l' h l.symbols.programIds)
    (hids : l'.symbols.programIds = l.symbols.programIds)
    (hlookups : J { lookups := l.lookups } { lookups := l'.lookups }) (collectAll : Bool) :
    Alike (List.Forall₂ E) J (l.checkBodies h collectAll) (l'.checkBodies h collectAll) := by
  have hclasses := hpaired.checkClasses collectAll hlookups
  unfold Linked.checkBodies
  rw [hids]
  revert hclasses
  rcases l.checkClasses h collectAll l.symbols.programIds { lookups := l.lookups } with ⟨vs, facts⟩
  rcases l'.checkClasses h collectAll l.symbols.programIds { lookups := l'.lookups } with
    ⟨vs', facts'⟩
  rintro ⟨hviolations, hfacts⟩
  cases hviolations with
  | nil => exact .ok hfacts
  | cons hv hvs => exact .error (.cons hv hvs)

end PairedChecks

end Linked

end JoosStatics
