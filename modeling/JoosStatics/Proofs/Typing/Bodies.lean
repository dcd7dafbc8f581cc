/-
JoosStatics.Proofs.Typing.Bodies — the facts of an accepted program describe
its bodies.

A body starts with its parameters in scope, and a constructor body with the
invocation of another constructor. The bodies of a type write to distinct slots
of its facts, so what the check of one body has found out still holds of the
facts in the end.

* `ClassContext.Typed` — the facts of a type describe its bodies, and nothing
  else is recorded in them.
* `Passes.typed` — this holds of all types of an accepted program.
-/
import JoosStatics.Proofs.Analysis
import JoosStatics.Proofs.Bodies.Targets
import JoosStatics.Proofs.Typing.Statements

namespace JoosStatics

/-! ## §1 Bodies that are described -/

/-- The `this(...)` or `super(...)` that a constructor body starts with. -/
def Stmt.invocation? (body : Stmt Mark) : Option (Stmt Mark) :=
  body.statements.head?.filter Stmt.isInvocation

/-- A body whose first statement is no invocation. -/
theorem Stmt.invocation?_eq_none {body : Stmt Mark} (h : ∀ mark call args rest,
    body.statements = .constructorCall mark call args :: rest → False) :
    body.invocation? = none := by
  unfold invocation?
  cases hstatements : body.statements with
  | nil => rfl
  | cons s rest =>
    cases s with
    | constructorCall mark call args => exact (h mark call args rest hstatements).elim
    | _ => rfl

/-- The slots of a constructor body are those of its statements. -/
theorem Stmt.slots_eq_statements (body : Stmt Mark) :
    body.slots = body.statements.flatMap Stmt.slots := by
  unfold Stmt.slots
  rw [Stmt.exprIds_eq_statements, List.flatMap_assoc]

namespace TypeDecl

/-- The `this(...)` or `super(...)` that the body of a member starts with. -/
def invocation? (d : TypeDecl) : BodyOwner → Option (Stmt Mark)
  | .constructor index => (d.constructorTree? index).bind Stmt.invocation?
  | _ => none

/-- The slots of the body of a member. -/
def bodySlots (d : TypeDecl) (owner : BodyOwner) : List Slot :=
  (d.bodyIds owner).flatMap Slot.both

variable {d : TypeDecl}

theorem bodySlots_field (d : TypeDecl) (index : Nat) :
    d.bodySlots (.field index) = (d.initializerTree? index).toList.flatMap Expr.slots := by
  rw [bodySlots, bodyIds_field]
  cases d.initializerTree? index <;> simp [Expr.slots]

theorem bodySlots_method {index : Nat} {body : Stmt Mark} (h : d.methodTree? index = some body) :
    d.bodySlots (.method index) = body.slots := by
  rw [bodySlots, bodyIds_method, h]
  rfl

theorem bodySlots_constructor {index : Nat} {body : Stmt Mark}
    (h : d.constructorTree? index = some body) :
    d.bodySlots (.constructor index) = body.slots := by
  rw [bodySlots, bodyIds_constructor, h]
  rfl

end TypeDecl

namespace ClassContext

/-- Facts describe the body of a member: the parameters have distinct names, the
initializer of a field fits the type of the field, every statement keeps its rule,
where an invocation may only start a constructor, and every expression is described
where it stands. -/
structure BodyTyped (cls : ClassContext) (facts : ClassFacts) (owner : BodyOwner) : Prop where
  params : ∀ body, cls.decl.bodyTree? owner = some body →
    ((cls.params owner).map LocalVar.name).Nodup
  initializer : ∀ index e, owner = .field index → cls.decl.initializerTree? index = some e →
    (cls.bodyContext owner).HasAssignable facts e (cls.table.fieldAt ⟨cls.classId, index⟩).type
  stmts : ∀ entry ∈ cls.placedStmts owner,
    (cls.bodyContext owner).Admits facts entry.1 entry.2 ∨
      cls.decl.invocation? owner = some entry.2
  exprs : ∀ entry ∈ cls.placedExprs owner,
    (cls.bodyContext owner).Describes facts entry.1 entry.2

/-- Facts describe the bodies of a type, and nothing else is recorded. -/
structure Typed (cls : ClassContext) (facts : ClassFacts) : Prop where
  bodies : ∀ owner ∈ cls.owners, cls.BodyTyped facts owner
  others : ∀ id, (∀ owner ∈ cls.owners, id ∉ cls.decl.bodyIds owner) →
    facts.types.find? id = none ∧ facts.resolutions.find? id = none

variable {cls : ClassContext} {owner : BodyOwner} {facts : ClassFacts}

/-- A statement keeps its rule where it stands, or it is the invocation that a constructor
starts with. -/
theorem BodyTyped.stmt (h : cls.BodyTyped facts owner) {s : Stmt Mark}
    (hs : s ∈ cls.decl.stmtsOf owner) :
    (∃ visible, (cls.bodyContext owner).Admits facts visible s) ∨
      cls.decl.invocation? owner = some s := by
  rw [← ClassContext.map_snd_placedStmts] at hs
  obtain ⟨⟨visible, _⟩, hentry, rfl⟩ := List.mem_map.mp hs
  exact (h.stmts _ hentry).imp_left (fun hadmits => ⟨visible, hadmits⟩)

/-- A member without a body. -/
theorem BodyTyped.of_none (howner : ∀ index, owner ≠ .field index)
    (hnone : cls.decl.bodyTree? owner = none) : cls.BodyTyped facts owner := by
  have hstmts : cls.placedStmts owner = [] := by
    rw [placedStmts, hnone]
    rfl
  refine ⟨fun body hbody => ?_, fun index _ heq => absurd heq (howner index), ?_, ?_⟩
  · rw [hnone] at hbody
    cases hbody
  · rw [hstmts]
    exact List.forall_mem_nil _
  · rw [placedExprs_eq howner, hstmts]
    exact List.forall_mem_nil _

/-- A body whose statements are accepted, but for the rule of the invocation that it
starts with. -/
theorem BodyTyped.of_stmts {body : Stmt Mark} (howner : ∀ index, owner ≠ .field index)
    (hbody : cls.decl.bodyTree? owner = some body)
    (hparams : ((cls.params owner).map LocalVar.name).Nodup)
    (h : ∀ entry ∈ cls.placed (cls.params owner) body,
      ((cls.bodyContext owner).Admits facts entry.1 entry.2 ∨
        cls.decl.invocation? owner = some entry.2) ∧
      ∀ e ∈ entry.2.exprChildren, (cls.bodyContext owner).Describes facts
        ⟨cls.visibleInside entry.1 entry.2, entry.2.isInvocation⟩ e) :
    cls.BodyTyped facts owner := by
  have hstmts : cls.placedStmts owner = cls.placed (cls.params owner) body := by
    rw [placedStmts, hbody]
    rfl
  refine ⟨fun _ _ => hparams, fun index _ heq => absurd heq (howner index), ?_, ?_⟩
  · rw [hstmts]
    exact fun entry hentry => (h entry hentry).1
  · rw [placedExprs_eq howner, hstmts]
    intro entry hentry
    obtain ⟨stmt, hstmt, hentry⟩ := List.mem_flatMap.mp hentry
    obtain ⟨e, he, rfl⟩ := List.mem_map.mp hentry
    exact (h stmt hstmt).2 e he

end ClassContext

/-! ## §2 The start of a body -/

open Establishes

/-- The parameters of a member become visible, and have distinct names. -/
theorem declareParams_establishes (ctx : BodyContext) (scope : Scope) (params : List (Param × Ty)) :
    Establishes ctx.symbols [] (declareParams ctx scope params)
      (fun facts after => after.vars = ClassContext.paramVars params ++ scope.vars ∧
        (scope.Within facts → after.Within facts) ∧
        ((scope.vars.map LocalVar.name).Nodup → (after.vars.map LocalVar.name).Nodup)) := by
  induction params generalizing scope with
  | nil => exact .pure _ (fun _ => ⟨rfl, id, id⟩)
  | cons param params ih =>
    obtain ⟨param, type⟩ := param
    rw [← List.append_nil ([] : List Slot)]
    refine (BodyContext.declare_establishes ctx scope _).bind (fun after => (ih after).mono ?_)
    rintro facts last ⟨hvars, hwithin, hnodup⟩ ⟨hfresh, id, rfl, hid⟩
    refine ⟨?_, fun hscope => hwithin (List.forall_mem_cons.mpr ⟨hid, hscope⟩), fun hscope => ?_⟩
    · rw [hvars]
      simp [ClassContext.paramVars, Scope.vars]
    · refine hnodup (List.nodup_cons.mpr ⟨fun hmem => ?_, hscope⟩)
      obtain ⟨other, hother, hname⟩ := List.mem_map.mp hmem
      exact hfresh other hother hname

theorem inferConstructorArgs_establishes (ctx : BodyContext) (scope : Scope)
    (args : List (Expr Mark)) :
    Establishes ctx.symbols (args.flatMap Expr.slots) (inferConstructorArgs ctx scope args)
      (fun facts _ => scope.Within facts →
        ∀ e ∈ args, ctx.Describes facts ⟨scope.vars, true⟩ e) := by
  refine (inferExprs_establishes { ctx with thisForbidden := true } scope args).mono ?_
  rintro facts types ⟨htypes, hin⟩ hscope e he
  have htype : facts.typeOf? e ∈ types.map some := htypes ▸ List.mem_map_of_mem he
  obtain ⟨type, -, htype⟩ := List.mem_map.mp htype
  exact ⟨⟨type, htype.symm⟩, scope, rfl, hscope, hin e he⟩

theorem checkSuperInvocation_establishes (ctx : BodyContext) (scope : Scope)
    (args : List (Expr Mark)) (range : Span) :
    Establishes ctx.symbols (args.flatMap Expr.slots) (checkSuperInvocation ctx scope args range)
      (fun facts _ => scope.Within facts →
        ∀ e ∈ args, ctx.Describes facts ⟨scope.vars, true⟩ e) := by
  rw [← List.append_nil (args.flatMap Expr.slots)]
  refine (inferConstructorArgs_establishes ctx scope args).bind (fun types => ?_)
  split
  · split
    · exact .pure _ (fun _ hargs => hargs)
    · exact .rule_fails
  · exact rule.bind_pure (fun _ _ _ hargs => hargs)

theorem checkThisInvocation_establishes (ctx : BodyContext) (scope : Scope)
    (constructor : ConstructorRef) (args : List (Expr Mark)) (range : Span) :
    Establishes ctx.symbols (args.flatMap Expr.slots)
      (checkThisInvocation ctx scope constructor args range)
      (fun facts _ => scope.Within facts →
        ∀ e ∈ args, ctx.Describes facts ⟨scope.vars, true⟩ e) := by
  rw [← List.append_nil (args.flatMap Expr.slots)]
  refine (inferConstructorArgs_establishes ctx scope args).bind (fun types =>
    .rule_bind (fun target _ => ?_))
  exact (recordTarget constructor target).mono (fun _ _ _ hargs => hargs)

/-- What the check of a constructor body finds out: the invocation that it starts with
need not keep a rule. -/
def BodyContext.AcceptsStart (ctx : BodyContext) (facts : ClassFacts) (body : Stmt Mark)
    (entry : List LocalVar × Stmt Mark) : Prop :=
  (ctx.Admits facts entry.1 entry.2 ∨ body.invocation? = some entry.2) ∧
    ∀ e ∈ entry.2.exprChildren, ctx.Describes facts
      ⟨ctx.visibleInside entry.1 entry.2, entry.2.isInvocation⟩ e

theorem BodyContext.Accepts.start {ctx : BodyContext} {facts : ClassFacts} {body : Stmt Mark}
    {entry : List LocalVar × Stmt Mark} (h : ctx.Accepts facts entry.1 entry.2) :
    ctx.AcceptsStart facts body entry :=
  ⟨.inl h.rule, h.operands⟩

/-- The check of a constructor body goes through the invocation that it starts with, or
through `super()` when it starts with none, and then through the other statements. -/
theorem checkConstructorBody_of {ctx : BodyContext} {scope : Scope} {constructor : ConstructorRef}
    {body : Stmt Mark} {P : List (Expr Mark) → ClassFacts → Prop} {R : ClassFacts → Prop}
    (hsuper : ∀ args range, Establishes ctx.symbols (args.flatMap Expr.slots)
      (checkSuperInvocation ctx scope args range) (fun facts _ => P args facts))
    (hthis : ∀ args range, Establishes ctx.symbols (args.flatMap Expr.slots)
      (checkThisInvocation ctx scope constructor args range) (fun facts _ => P args facts))
    (hstart : ∀ facts mark call args rest,
      body.statements = .constructorCall mark call args :: rest →
      body.invocation? = some (.constructorCall mark call args) → P args facts →
      (scope.Within facts → ∀ entry ∈ ctx.listPlaced scope.vars rest,
        ctx.Accepts facts entry.1 entry.2) → R facts)
    (hplain : ∀ facts, body.invocation? = none →
      (scope.Within facts → ∀ entry ∈ ctx.listPlaced scope.vars body.statements,
        ctx.Accepts facts entry.1 entry.2) → R facts) :
    Establishes ctx.symbols body.slots (checkConstructorBody ctx scope constructor body)
      (fun facts _ => R facts) := by
  rw [Stmt.slots_eq_statements]
  unfold checkConstructorBody
  split
  · rename_i mark call args rest hstatements
    have hhead : body.invocation? = some (.constructorCall mark call args) := by
      rw [Stmt.invocation?, hstatements]
      rfl
    have hchecks {invocation : CheckM Unit} (hinvocation : Establishes ctx.symbols
        (args.flatMap Expr.slots) invocation (fun facts _ => P args facts)) :
        Establishes ctx.symbols (body.statements.flatMap Stmt.slots)
          (invocation >>= fun _ => checkStmts ctx scope rest >>= fun _ => Pure.pure ())
          (fun facts _ => R facts) := by
      rw [hstatements, List.flatMap_cons, Stmt.slots_of_leaf rfl, Stmt.exprChildren]
      refine hinvocation.bind (fun _ => (checkStmts_establishes ctx scope rest).bind_pure ?_)
      intro facts _ hrest hargs
      exact hstart facts mark call args rest hstatements hhead hargs hrest
    cases call with
    | this => exact hchecks (hthis args mark.range)
    | super => exact hchecks (hsuper args mark.range)
  · rename_i hother
    refine (hsuper [] body.range).bind (fun _ =>
      (checkStmts_establishes ctx scope body.statements).bind_pure ?_)
    exact fun facts _ hstmts _ => hplain facts (Stmt.invocation?_eq_none hother) hstmts

/-- The statements of a constructor body are accepted. -/
theorem checkConstructorBody_establishes (ctx : BodyContext) (scope : Scope)
    (constructor : ConstructorRef) (body : Stmt Mark) :
    Establishes ctx.symbols body.slots (checkConstructorBody ctx scope constructor body)
      (fun facts _ => scope.Within facts →
        ∀ entry ∈ ctx.placed scope.vars body, ctx.AcceptsStart facts body entry) := by
  -- The block itself has no operands and no rule.
  have hbody {facts : ClassFacts} (h : ∀ entry ∈ ctx.listPlaced scope.vars body.statements,
      ctx.AcceptsStart facts body entry) :
      ∀ entry ∈ ctx.placed scope.vars body, ctx.AcceptsStart facts body entry := by
    intro entry hentry
    rcases ctx.mem_placed_statements hentry with ⟨mark, stmts, rfl⟩ | hentry
    · exact ⟨.inl trivial, List.forall_mem_nil _⟩
    · exact h entry hentry
  refine checkConstructorBody_of (checkSuperInvocation_establishes ctx scope)
    (checkThisInvocation_establishes ctx scope constructor) ?_ ?_
  · intro facts mark call args rest hstatements hhead hargs hrest hscope
    refine hbody ?_
    rw [hstatements]
    exact List.forall_mem_cons.mpr ⟨⟨.inr hhead, hargs hscope⟩,
      fun entry hentry => (hrest hscope entry hentry).start⟩
  · intro facts _ hstmts hscope
    exact hbody (fun entry hentry => (hstmts hscope entry hentry).start)

/-! ## §3 The bodies of one type -/

namespace ClassContext

variable {cls : ClassContext} {owner : BodyOwner}

theorem checkField_establishes (cls : ClassContext) (index : Nat) :
    Establishes cls.symbols (cls.decl.bodySlots (.field index)) (cls.checkField index)
      (fun facts _ => cls.BodyTyped facts (.field index)) := by
  rw [TypeDecl.bodySlots_field]
  refine (BodyContext.checkInitializer_establishes (cls.bodyContext (.field index)) [] _ _).mono ?_
  intro facts _ hvalue
  refine ⟨nofun, ?_, List.forall_mem_nil _, List.forall_mem_map.mpr fun e he => ?_⟩
  · intro other e howner he
    cases howner
    exact (hvalue e (Option.mem_toList.mpr he)).1
  · exact (hvalue e he).describes (Scope.within_nil facts)

theorem checkMethod_establishes (cls : ClassContext) (index : Nat) :
    Establishes cls.symbols (cls.decl.bodySlots (.method index)) (cls.checkMethod index)
      (fun facts _ => cls.BodyTyped facts (.method index)) := by
  simp only [checkMethod]
  split
  · rename_i hnone
    rw [TypeDecl.bodySlots, TypeDecl.bodyIds_method, hnone]
    exact .pure _ (fun _ => .of_none nofun hnone)
  · rename_i body hbody
    rw [TypeDecl.bodySlots_method hbody, ← List.nil_append body.slots]
    refine (declareParams_establishes (cls.bodyContext (.method index)) [] _).bind (fun scope =>
      (checkStmt_establishes (cls.bodyContext (.method index)) scope body).bind_pure ?_)
    rintro facts _ ⟨-, hstmts⟩ ⟨hvars, hwithin, hnodup⟩
    have hparams : scope.vars = cls.params (.method index) := hvars.trans (List.append_nil _)
    rw [hparams] at hstmts hnodup
    refine .of_stmts nofun hbody (hnodup List.nodup_nil) (fun entry hentry => ?_)
    have haccepts := (hstmts (hwithin (Scope.within_nil facts))).2 entry hentry
    exact ⟨.inl haccepts.rule, haccepts.operands⟩

/-- The check of a constructor goes through the written body, if there is one, with the
parameters in scope. -/
theorem checkConstructor_of (hdefaults : cls.DefaultsUnwritten) {index : Nat}
    (howner : .constructor index ∈ cls.owners) {R : ClassFacts → Prop}
    (hnone : cls.decl.constructorTree? index = none → ∀ facts, R facts)
    (hbody : ∀ scope body, cls.decl.constructorTree? index = some body →
      Establishes cls.symbols body.slots
        (checkConstructorBody (cls.bodyContext (.constructor index)) scope ⟨cls.classId, index⟩
          body)
        (fun facts _ => scope.vars = cls.params (.constructor index) → scope.Within facts →
          (scope.vars.map LocalVar.name).Nodup → R facts)) :
    Establishes cls.symbols (cls.decl.bodySlots (.constructor index)) (cls.checkConstructor index)
      (fun facts _ => R facts) := by
  simp only [checkConstructor, hdefaults.isDefault_eq howner]
  split
  · rename_i hempty
    have htree : cls.decl.constructorTree? index = none := by
      rw [TypeDecl.constructorTree?, List.isEmpty_iff.mp hempty]
      rfl
    rw [TypeDecl.bodySlots, TypeDecl.bodyIds_constructor, htree]
    refine (checkSuperInvocation_establishes (cls.bodyContext (.constructor index)) [] [] _).mono ?_
    exact fun facts _ _ => hnone htree facts
  · split
    · rename_i htree
      rw [TypeDecl.bodySlots, TypeDecl.bodyIds_constructor, htree]
      exact .pure _ (hnone htree)
    · rename_i body htree
      rw [TypeDecl.bodySlots_constructor htree, ← List.nil_append body.slots]
      refine (declareParams_establishes (cls.bodyContext (.constructor index)) [] _).bind
        (fun scope => (hbody scope body htree).mono ?_)
      rintro facts _ hfound ⟨hvars, hwithin, hnodup⟩
      exact hfound (hvars.trans (List.append_nil _)) (hwithin (Scope.within_nil facts))
        (hnodup List.nodup_nil)

theorem checkConstructor_establishes (hdefaults : cls.DefaultsUnwritten) {index : Nat}
    (howner : .constructor index ∈ cls.owners) :
    Establishes cls.symbols (cls.decl.bodySlots (.constructor index)) (cls.checkConstructor index)
      (fun facts _ => cls.BodyTyped facts (.constructor index)) := by
  have hne (other : Nat) : BodyOwner.constructor index ≠ .field other := by simp
  refine checkConstructor_of hdefaults howner (fun hnone _ => .of_none hne hnone)
    (fun scope body hbody => (checkConstructorBody_establishes
      (cls.bodyContext (.constructor index)) scope _ body).mono ?_)
  intro facts _ hstmts hparams hscope hnodup
  rw [hparams] at hstmts hnodup
  refine .of_stmts hne hbody hnodup (fun entry hentry => ?_)
  obtain ⟨hrule, hoperands⟩ := hstmts hscope entry hentry
  refine ⟨hrule.imp_right (fun hhead => ?_), hoperands⟩
  rw [TypeDecl.invocation?, hbody]
  exact hhead

/-- The check of a member describes its body. -/
theorem checkBody_establishes (hdefaults : cls.DefaultsUnwritten) (howner : owner ∈ cls.owners) :
    Establishes cls.symbols (cls.decl.bodySlots owner) (cls.checkBody owner)
      (fun facts _ => cls.BodyTyped facts owner) := by
  cases owner with
  | field index => exact cls.checkField_establishes index
  | method index => exact cls.checkMethod_establishes index
  | constructor index => exact checkConstructor_establishes hdefaults howner

/-- Bodies are checked without a violation when their checks succeed one after the
other. -/
theorem checkBodies_eq_nil_iff {collectAll : Bool} {owners : List BodyOwner}
    {st st' : CheckState} :
    cls.checkBodies collectAll owners st = ([], st') ↔
      owners.forM cls.checkBody st = (.ok (), st') := by
  induction owners generalizing st with
  | nil =>
    constructor
    · rintro ⟨⟩
      rfl
    · rintro ⟨⟩
      rfl
  | cons owner owners ih =>
    show _ ↔ (cls.checkBody owner >>= fun _ => owners.forM cls.checkBody) st = _
    rw [run_bind, checkBodies]
    rcases cls.checkBody owner st with ⟨violation | _, st₁⟩
    · cases collectAll <;> exact ⟨nofun, nofun⟩
    · exact ih

/-- The slots of distinct bodies are distinct. -/
theorem nodup_bodySlots (hwf : cls.decl.isWellFormed = true) :
    (cls.owners.flatMap cls.decl.bodySlots).Nodup := by
  have hids : (cls.owners.flatMap cls.decl.bodyIds).Nodup :=
    List.nodup_flatMap.mpr ⟨fun owner _ => TypeDecl.bodyIds_nodup hwf owner,
      cls.nodup_owners.imp (fun hne => TypeDecl.bodyIds_disjoint hwf hne)⟩
  have hslots := Slot.nodup_flatMap_both hids
  rwa [List.flatMap_assoc] at hslots

/-- When no body of a type breaks a rule, what the check of each body finds out holds of the
facts in the end, and nothing is recorded outside of the bodies. -/
theorem checkBodies_each {R : ClassFacts → BodyOwner → Prop} {collectAll : Bool}
    {st st' : CheckState} (hwf : cls.decl.isWellFormed = true)
    (hR : ∀ owner ∈ cls.owners, Establishes cls.symbols (cls.decl.bodySlots owner)
      (cls.checkBody owner) (fun facts _ => R facts owner))
    (hst : cls.symbols.Recorded st.lookups) (hfacts : st.facts = {})
    (hrun : cls.checkBodies collectAll cls.owners st = ([], st')) :
    cls.symbols.Recorded st'.lookups ∧ (∀ owner ∈ cls.owners, R st'.facts owner) ∧
    ∀ id, (∀ owner ∈ cls.owners, id ∉ cls.decl.bodyIds owner) →
      st'.facts.types.find? id = none ∧ st'.facts.resolutions.find? id = none := by
  have hblank (slot : Slot) : st.facts.IsBlank slot := hfacts ▸ ClassFacts.isBlank_empty slot
  obtain ⟨hst', hframe, hfound⟩ := Establishes.forM hR (nodup_bodySlots hwf) st () st' hst
    (fun slot _ => hblank slot) (checkBodies_eq_nil_iff.mp hrun)
  refine ⟨hst', hfound st'.facts (.refl _ _), fun id hid => ?_⟩
  have hslot (slot : Slot) (hmem : slot ∈ Slot.both id) : st'.facts.IsBlank slot := by
    refine (hframe.slots slot (fun hbodies => ?_)).isBlank_iff.mpr (hblank slot)
    obtain ⟨owner, howner, hslot⟩ := List.mem_flatMap.mp hbodies
    obtain ⟨other, hother, hslot⟩ := List.mem_flatMap.mp hslot
    obtain rfl : id = other := by
      simp only [Slot.both, List.mem_cons, List.not_mem_nil, or_false] at hmem hslot
      grind
    exact hid owner howner hother
  exact ⟨hslot (.type id) (by simp [Slot.both]), hslot (.resolution id) (by simp [Slot.both])⟩

/-- When no body of a type breaks a rule, the facts describe its bodies. -/
theorem checkBodies_typed {collectAll : Bool} {st st' : CheckState}
    (hwf : cls.decl.isWellFormed = true) (hdefaults : cls.DefaultsUnwritten)
    (hst : cls.symbols.Recorded st.lookups) (hfacts : st.facts = {})
    (hrun : cls.checkBodies collectAll cls.owners st = ([], st')) :
    cls.symbols.Recorded st'.lookups ∧ cls.Typed st'.facts := by
  obtain ⟨hst', hbodies, hothers⟩ := checkBodies_each hwf
    (fun _ howner => checkBody_establishes hdefaults howner) hst hfacts hrun
  exact ⟨hst', hbodies, hothers⟩

end ClassContext

/-! ## §4 The types of the program -/

namespace Linked

variable {l : Linked} {h : Hierarchy}

/-- What the check of each type finds out about its facts holds of the facts in the
end. -/
theorem checkClasses_each {P : ClassId → ClassFacts → Prop} {collectAll : Bool}
    {ids : List ClassId} {facts facts' : ProgramFacts}
    (hP : ∀ id ∈ ids, ∀ st st', l.symbols.Recorded st.lookups → st.facts = {} →
      (l.classContext h id).checkBodies collectAll (l.classContext h id).owners st = ([], st') →
      l.symbols.Recorded st'.lookups ∧ P id st'.facts)
    (hnodup : ids.Nodup) (hfacts : l.symbols.Recorded facts.lookups)
    (hrun : l.checkClasses h collectAll ids facts = ([], facts')) :
    (∀ id ∈ ids, P id (facts'.classFacts id)) ∧
    ∀ id ∉ ids, facts'.classFacts id = facts.classFacts id := by
  induction ids generalizing facts with
  | nil =>
    cases hrun
    exact ⟨List.forall_mem_nil _, fun _ _ => rfl⟩
  | cons id ids ih =>
    obtain ⟨hnew, hnodup⟩ := List.nodup_cons.mp hnodup
    obtain ⟨hfirst, hP⟩ := List.forall_mem_cons.mp hP
    obtain ⟨st, hclass, hrest⟩ := checkClasses_cons_eq_nil.mp hrun
    obtain ⟨hst, hfound⟩ := hfirst _ st (by exact hfacts) rfl hclass
    obtain ⟨hclasses, hothers⟩ := ih hP hnodup (by exact hst) hrest
    refine ⟨List.forall_mem_cons.mpr ⟨?_, hclasses⟩, fun other hother => ?_⟩
    · rw [hothers id hnew, ProgramFacts.classFacts, OrderedMap.find?_insert_self]
      exact hfound
    · obtain ⟨hne, hother⟩ := not_or.mp (fun hmem => hother (List.mem_cons.mpr hmem))
      rw [hothers other hother, ProgramFacts.classFacts, ProgramFacts.classFacts,
        OrderedMap.find?_insert_of_ne _ (Ne.symm hne)]

theorem checkBodies_each {P : ClassId → ClassFacts → Prop} {collectAll : Bool}
    {facts : ProgramFacts}
    (hP : ∀ id < l.symbols.programSize, ∀ st st', l.symbols.Recorded st.lookups → st.facts = {} →
      (l.classContext h id).checkBodies collectAll (l.classContext h id).owners st = ([], st') →
      l.symbols.Recorded st'.lookups ∧ P id st'.facts)
    (hlookups : l.symbols.Recorded l.lookups)
    (hrun : l.checkBodies h collectAll = .ok facts) :
    ∀ id < l.symbols.programSize, P id (facts.classFacts id) := by
  have heach := (checkClasses_each (fun id hid => hP id (List.mem_range.mp hid))
    List.nodup_range hlookups (checkBodies_eq_ok.mp hrun)).1
  exact fun id hid => heach id (List.mem_range.mpr hid)

end Linked

/-- What linking remembers is what a search finds. -/
theorem HasHierarchy.recorded {program library : List CompilationUnit} {l : Linked} {h : Hierarchy}
    (hh : HasHierarchy program library l h) : l.symbols.Recorded l.lookups :=
  (SymbolTable.link_lowers hh.link).2.1

namespace Passes

variable {program : Program} {config : Configuration} {a : Analysis}

/-- The facts of an accepted program describe the bodies of its types. -/
theorem typed (hp : Passes program config a) {id : ClassId}
    (hid : id < a.linked.symbols.programSize) :
    (a.linked.classContext a.hierarchy id).Typed (a.facts.classFacts id) := by
  refine Linked.checkBodies_each
    (P := fun id facts => (a.linked.classContext a.hierarchy id).Typed facts)
    (fun other hother st st' hst hfacts hrun => ?_) hp.hierarchy.recorded hp.bodies id hid
  obtain ⟨hwf, hdefaults⟩ := hp.checkable hother
  exact ClassContext.checkBodies_typed hwf hdefaults hst hfacts hrun

end Passes

end JoosStatics
