/-
JoosStatics.Proofs.Typing.LexicalScoping — the variables of an accepted
program are scoped by its text.

The variables recorded for a type are those that its bodies declare, body after
body (`declaredVariables`). Wherever an expression refers to one of them, it is
the name of a declaration of the same member in whose scope it stands, and no
other declaration with that name has it in scope (`lexical_scoping`). The
scopes themselves are those of `TypeDecl.InScope` and `TypeDecl.ScopesOverlap`,
which look at the text alone.

The constructors that are written in an interface are left out: an interface
has none, and their bodies are not type-checked
(`interface_constructor_redeclares`).
-/
import JoosStatics.Proofs.Bodies.Escapes
import JoosStatics.Proofs.Typing.Numbering

namespace JoosStatics

open BodyContext EstablishesFrom

/-! ## §1 The start of a body -/

/-- The parameters of a member become visible, from left to right. -/
theorem declareParams_scopes (ctx : BodyContext) (holds : LocalId → Declaration → Prop)
    (n : LocalId) (scope : Scope) (params : List Param) (position : Nat → Nat) :
    EstablishesFrom ctx.symbols n []
      ((params.mapIdx (fun i => Declaration.param (position i))).map ctx.variable)
      (declareParams ctx scope
        (params.map (fun p => (p, p.type.typeIn (ctx.symbols.denotation ctx.classId)))))
      (fun _ after => Numbers holds n (params.mapIdx (fun i => Declaration.param (position i))) →
        ∀ visible, ctx.Sees holds visible scope →
          ctx.Sees holds
            ((params.mapIdx (fun i => Declaration.param (position i))).reverse ++ visible) after) := by
  induction params generalizing n scope position with
  | nil => exact .pure _ (fun _ _ _ hsees => hsees)
  | cons param params ih =>
    rw [List.mapIdx_cons, List.map_cons, ← List.singleton_append,
      ← List.append_nil ([] : List Slot)]
    refine (ctx.declare_sees holds n scope (.param (position 0) param)).bind (fun after =>
      (ih _ after (fun i => position (i + 1))).mono ?_)
    intro facts last hothers hfirst hnumbers visible hsees
    rw [← List.singleton_append, numbers_append] at hnumbers
    rw [List.reverse_cons, List.append_assoc]
    exact hothers hnumbers.2 _ (hfirst hnumbers.1 visible hsees)

namespace BodyContext

variable (ctx : BodyContext) (holds : LocalId → Declaration → Prop) (n : LocalId) (scope : Scope)

theorem inferConstructorArgs_refersIn (args : List (Expr Mark)) :
    EstablishesFrom ctx.symbols n (args.flatMap Expr.slots) []
      (inferConstructorArgs ctx scope args)
      (fun facts _ => ctx.RefersIn holds scope args facts) := by
  refine refersIn_of_establishes { ctx with thisForbidden := true } holds n scope
    (inferExprs_establishes { ctx with thisForbidden := true } scope args)
    (inferExprs_has (LeavesLocals.steps { ctx with thisForbidden := true }) scope args
      (fun _ _ _ _ => trivial)) ?_
  exact fun _ _ hfinds => hfinds.2

theorem checkSuperInvocation_refersIn (args : List (Expr Mark)) (range : Span) :
    EstablishesFrom ctx.symbols n (args.flatMap Expr.slots) []
      (checkSuperInvocation ctx scope args range)
      (fun facts _ => ctx.RefersIn holds scope args facts) := by
  rw [← List.append_nil (args.flatMap Expr.slots)]
  refine (ctx.inferConstructorArgs_refersIn holds n scope args).bind (fun types => ?_)
  split
  · split
    · exact .pure _ (fun _ hargs => hargs)
    · exact .rule_fails
  · exact (of_establishes .rule (fun _ => rfl)).bind_pure (fun _ _ _ hargs => hargs)

theorem checkThisInvocation_refersIn (constructor : ConstructorRef) (args : List (Expr Mark))
    (range : Span) :
    EstablishesFrom ctx.symbols n (args.flatMap Expr.slots) []
      (checkThisInvocation ctx scope constructor args range)
      (fun facts _ => ctx.RefersIn holds scope args facts) := by
  rw [← List.append_nil (args.flatMap Expr.slots)]
  refine (ctx.inferConstructorArgs_refersIn holds n scope args).bind (fun types => ?_)
  rw [← List.append_nil ([] : List Slot), ← List.append_nil ([] : List LocalVar)]
  refine (of_establishes .rule (fun _ => rfl)).bind (fun target => .of_establishes ?_ (fun _ => rfl))
  exact (Establishes.recordTarget constructor target).mono (fun _ _ _ _ hargs => hargs)

end BodyContext

/-- The scopes in a body are kept when they are in each of its statements. -/
theorem ClassFacts.ScopedIn.of_statements {facts : ClassFacts}
    {holds : LocalId → Declaration → Prop} {visible : List Declaration} {body : Stmt Mark}
    (hvisible : (visible.map Declaration.name).Nodup)
    (h : ∀ entry ∈ Stmt.listScoped visible body.statements,
      facts.ScopedIn holds entry.1 entry.2) :
    facts.ScopedIn holds visible body := by
  cases body with
  | block mark stmts => exact .intro ⟨hvisible, List.forall_mem_nil _⟩ h
  | _ => exact h _ (List.mem_singleton_self _)

/-- The scopes in the body of a constructor are kept, those in the invocation that it starts
with included. -/
theorem checkConstructorBody_scopes (ctx : BodyContext) (holds : LocalId → Declaration → Prop)
    (n : LocalId) (scope : Scope) (constructor : ConstructorRef) (body : Stmt Mark) :
    EstablishesFrom ctx.symbols n body.slots (body.declarations.map ctx.variable)
      (checkConstructorBody ctx scope constructor body)
      (fun facts _ => Numbers holds n body.declarations → ∀ visible,
        ctx.Sees holds visible scope → facts.ScopedIn holds visible body) := by
  rw [Stmt.slots_eq_statements, Stmt.declarations_eq_statements]
  unfold checkConstructorBody
  split
  · rename_i mark call args rest hstatements
    have hdeclarations : body.statements.flatMap Stmt.declarations =
        rest.flatMap Stmt.declarations := by
      rw [hstatements, List.flatMap_cons, Stmt.declarations_eq]
      rfl
    have hchecks {invocation : CheckM Unit} (hinvocation : EstablishesFrom ctx.symbols n
        (args.flatMap Expr.slots) [] invocation (fun facts _ =>
          ctx.RefersIn holds scope args facts)) :
        EstablishesFrom ctx.symbols n (body.statements.flatMap Stmt.slots)
          ((body.statements.flatMap Stmt.declarations).map ctx.variable)
          (invocation >>= fun _ => checkStmts ctx scope rest >>= fun _ => Pure.pure ())
          (fun facts _ => Numbers holds n (body.statements.flatMap Stmt.declarations) →
            ∀ visible, ctx.Sees holds visible scope → facts.ScopedIn holds visible body) := by
      rw [hdeclarations, hstatements, List.flatMap_cons, Stmt.slots_of_leaf rfl, Stmt.exprChildren]
      refine hinvocation.bind (fun _ => (checkStmts_scopes ctx holds n scope rest).bind_pure ?_)
      intro facts _ hrest hargs hnumbers visible hsees
      refine .of_statements hsees.distinct ?_
      rw [hstatements]
      refine List.forall_mem_cons.mpr ⟨?_, hrest hnumbers visible hsees⟩
      exact .intro ⟨hsees.distinct, hargs visible hsees⟩ (List.forall_mem_nil _)
    cases call with
    | this =>
      exact hchecks (ctx.checkThisInvocation_refersIn holds n scope constructor args mark.range)
    | super => exact hchecks (ctx.checkSuperInvocation_refersIn holds n scope args mark.range)
  · refine (ctx.checkSuperInvocation_refersIn holds n scope [] body.range).bind (fun _ =>
      (checkStmts_scopes ctx holds n scope body.statements).bind_pure ?_)
    intro facts _ hstmts _ hnumbers visible hsees
    exact .of_statements hsees.distinct (hstmts hnumbers visible hsees)

/-! ## §2 The bodies of one type -/

namespace ClassContext

/-- The table has the signature of the declaration. -/
structure IsLinked (cls : ClassContext) : Prop where
  decl_eq : cls.decl = (cls.symbols.unitAt cls.classId).decl
  classAt_eq : cls.table.classAt cls.classId = cls.symbols.signatureOf cls.classId

/-- The facts keep the scopes in the body of a member. A field has no variables. -/
structure BodyScoped (cls : ClassContext) (facts : ClassFacts)
    (holds : LocalId → Declaration → Prop) (owner : BodyOwner) : Prop where
  body : ∀ body, cls.decl.bodyTree? owner = some body →
    facts.ScopedIn holds (cls.decl.paramDeclarations owner).reverse body
  initializer : ∀ index e, owner = .field index → cls.decl.initializerTree? index = some e →
    facts.RefersAmong holds [] e

variable {cls : ClassContext} {owner : BodyOwner}

theorem IsLinked.methodAt_params (h : cls.IsLinked) (index : Nat) :
    (cls.table.methodAt ⟨cls.classId, index⟩).params =
      (cls.decl.methodParams index).map
        (fun p => p.type.typeIn (cls.symbols.denotation cls.classId)) := by
  rw [TypeTable.methodAt, h.classAt_eq, h.decl_eq, List.getD_eq_getElem?_getD,
    SymbolTable.signatureOf, CompilationUnit.signature, List.getElem?_map, TypeDecl.methodParams]
  cases (cls.symbols.unitAt cls.classId).decl.methods[index]? <;> rfl

theorem IsLinked.constructorAt_params (h : cls.IsLinked) {index : Nat}
    (howner : .constructor index ∈ cls.owners) :
    (cls.table.constructorAt ⟨cls.classId, index⟩).params =
      (cls.decl.constructorParams index).map
        (fun p => p.type.typeIn (cls.symbols.denotation cls.classId)) := by
  have hconstructors : (cls.table.classAt cls.classId).constructors =
      cls.decl.constructorSignatures (cls.symbols.denotation cls.classId) := by
    rw [h.classAt_eq, h.decl_eq]
    rfl
  have hindex := constructor_mem_owners.mp howner
  rw [TypeTable.constructorAt, List.getD_eq_getElem?_getD, TypeDecl.constructorParams]
  rw [hconstructors] at hindex ⊢
  unfold TypeDecl.constructorSignatures at hindex ⊢
  split at hindex
  · cases hindex
  · split at hindex
    · -- The default constructor has no parameters, and no other one is written.
      rename_i hclass hempty
      rw [if_neg hclass, if_pos hempty, List.isEmpty_iff.mp hempty]
      obtain rfl : index = 0 := Nat.lt_one_iff.mp hindex
      rfl
    · rename_i hclass hempty
      rw [if_neg hclass, if_neg hempty, List.getElem?_map]
      cases cls.decl.constructors[index]? <;> rfl

/-- The parameters that become visible are those that are declared. -/
theorem declareParams_declares (ctx : BodyContext) (holds : LocalId → Declaration → Prop)
    (n : LocalId) {types : List Ty} (owner : BodyOwner)
    (htypes : types = (ctx.decl.paramsOf owner).map
      (fun p => p.type.typeIn (ctx.symbols.denotation ctx.classId))) :
    EstablishesFrom ctx.symbols n [] ((ctx.decl.paramDeclarations owner).map ctx.variable)
      (declareParams ctx [] ((ctx.decl.paramsOf owner).zip types))
      (fun _ after => Numbers holds n (ctx.decl.paramDeclarations owner) →
        ctx.Sees holds (ctx.decl.paramDeclarations owner).reverse after) := by
  have hzip : (ctx.decl.paramsOf owner).zip types = (ctx.decl.paramsOf owner).map
      (fun p => (p, p.type.typeIn (ctx.symbols.denotation ctx.classId))) := by
    rw [htypes, List.map_prod_left_eq_zip]
  rw [hzip]
  refine (declareParams_scopes ctx holds n [] (ctx.decl.paramsOf owner) id).mono ?_
  intro facts after h hnumbers
  have hsees := h hnumbers [] .nil
  rwa [List.append_nil] at hsees

/-- Where there is no body, there are no scopes to keep. -/
theorem BodyScoped.of_none {facts : ClassFacts} {holds : LocalId → Declaration → Prop}
    (howner : ∀ index, owner ≠ .field index) (hnone : cls.decl.bodyTree? owner = none) :
    cls.BodyScoped facts holds owner := by
  refine ⟨fun body hbody => ?_, fun index _ heq => absurd heq (howner index)⟩
  rw [hnone] at hbody
  cases hbody

/-- A body that is checked with its parameters in scope. -/
theorem BodyScoped.of_body {facts : ClassFacts} {holds : LocalId → Declaration → Prop}
    {body : Stmt Mark} (howner : ∀ index, owner ≠ .field index)
    (hbody : cls.decl.bodyTree? owner = some body)
    (h : facts.ScopedIn holds (cls.decl.paramDeclarations owner).reverse body) :
    cls.BodyScoped facts holds owner := by
  refine ⟨fun other hother => ?_, fun index _ heq => absurd heq (howner index)⟩
  cases hbody.symm.trans hother
  exact h

theorem checkField_scopes (cls : ClassContext) (holds : LocalId → Declaration → Prop)
    (n : LocalId) (index : Nat) :
    EstablishesFrom cls.symbols n (cls.decl.bodySlots (.field index))
      ((cls.decl.declarationsOf (.field index)).map cls.variable) (cls.checkField index)
      (fun facts _ => cls.BodyScoped facts holds (.field index)) := by
  rw [TypeDecl.bodySlots_field]
  refine ((cls.bodyContext (.field index)).checkInitializer_refersIn holds n [] _ _).mono ?_
  intro facts _ hvalue
  constructor
  · intro body hbody
    cases hbody
  · intro other e howner he
    cases howner
    exact hvalue [] .nil e (Option.mem_toList.mpr he)

theorem checkMethod_scopes (hl : cls.IsLinked) (holds : LocalId → Declaration → Prop)
    (n : LocalId) (index : Nat) :
    EstablishesFrom cls.symbols n (cls.decl.bodySlots (.method index))
      ((cls.decl.declarationsOf (.method index)).map cls.variable) (cls.checkMethod index)
      (fun facts _ => Numbers holds n (cls.decl.declarationsOf (.method index)) →
        cls.BodyScoped facts holds (.method index)) := by
  have hne (other : Nat) : BodyOwner.method index ≠ .field other := by simp
  simp only [checkMethod]
  split
  · rename_i hnone
    rw [TypeDecl.bodySlots, TypeDecl.bodyIds_method, hnone,
      TypeDecl.declarationsOf_eq_nil (.method index) hnone]
    exact .pure _ (fun _ _ => .of_none hne hnone)
  · rename_i body hbody
    rw [TypeDecl.bodySlots_method hbody, ← List.nil_append body.slots,
      TypeDecl.declarationsOf_eq (.method index) hbody, List.map_append]
    refine (declareParams_declares (cls.bodyContext (.method index)) holds n (.method index)
      (hl.methodAt_params index)).bind (fun scope =>
        (checkStmt_scopes (cls.bodyContext (.method index)) holds _ scope body).bind_pure ?_)
    intro facts _ hstmt hparams hnumbers
    rw [numbers_append] at hnumbers
    obtain ⟨hdeclared, hbelow⟩ := hnumbers
    rw [List.length_map] at hstmt
    exact .of_body hne hbody (hstmt hbelow _ (hparams hdeclared)).2

theorem checkConstructor_scopes (hl : cls.IsLinked) (hdefaults : cls.DefaultsUnwritten)
    (holds : LocalId → Declaration → Prop) (n : LocalId) {index : Nat}
    (howner : .constructor index ∈ cls.owners) :
    EstablishesFrom cls.symbols n (cls.decl.bodySlots (.constructor index))
      ((cls.decl.declarationsOf (.constructor index)).map cls.variable) (cls.checkConstructor index)
      (fun facts _ => Numbers holds n (cls.decl.declarationsOf (.constructor index)) →
        cls.BodyScoped facts holds (.constructor index)) := by
  have hne (other : Nat) : BodyOwner.constructor index ≠ .field other := by simp
  simp only [checkConstructor, hdefaults.isDefault_eq howner]
  split
  · rename_i hempty
    have hnone : cls.decl.constructorTree? index = none := by
      rw [TypeDecl.constructorTree?, List.isEmpty_iff.mp hempty]
      rfl
    rw [TypeDecl.bodySlots, TypeDecl.bodyIds_constructor, hnone,
      TypeDecl.declarationsOf_eq_nil (.constructor index) hnone]
    refine ((cls.bodyContext (.constructor index)).checkSuperInvocation_refersIn holds n [] []
      _).mono ?_
    exact fun _ _ _ _ => .of_none hne hnone
  · split
    · rename_i hnone
      rw [TypeDecl.bodySlots, TypeDecl.bodyIds_constructor, hnone,
        TypeDecl.declarationsOf_eq_nil (.constructor index) hnone]
      exact .pure _ (fun _ _ => .of_none hne hnone)
    · rename_i body hbody
      rw [TypeDecl.bodySlots_constructor hbody, ← List.nil_append body.slots,
        TypeDecl.declarationsOf_eq (.constructor index) hbody, List.map_append]
      refine (declareParams_declares (cls.bodyContext (.constructor index)) holds n
        (.constructor index) (hl.constructorAt_params howner)).bind (fun scope =>
          (checkConstructorBody_scopes (cls.bodyContext (.constructor index)) holds _ scope _
            body).mono ?_)
      intro facts _ hstmts hparams hnumbers
      rw [numbers_append] at hnumbers
      obtain ⟨hdeclared, hbelow⟩ := hnumbers
      rw [List.length_map] at hstmts
      exact .of_body hne hbody (hstmts hbelow _ (hparams hdeclared))

/-- A body that is checked records its declarations, in order, and keeps their scopes. -/
theorem checkBody_scopes (hl : cls.IsLinked) (hdefaults : cls.DefaultsUnwritten)
    (holds : LocalId → Declaration → Prop) (n : LocalId) (howner : owner ∈ cls.owners) :
    EstablishesFrom cls.symbols n (cls.decl.bodySlots owner)
      ((cls.decl.declarationsOf owner).map cls.variable) (cls.checkBody owner)
      (fun facts _ => Numbers holds n (cls.decl.declarationsOf owner) →
        cls.BodyScoped facts holds owner) := by
  cases owner with
  | field index =>
    exact (cls.checkField_scopes holds n index).mono (fun _ _ hscoped _ => hscoped)
  | method index => exact checkMethod_scopes hl holds n index
  | constructor index => exact checkConstructor_scopes hl hdefaults holds n howner

/-- Where the scopes in a body are kept, an expression that refers to a variable is the name of
the only declaration with that name in whose scope it stands. -/
theorem BodyScoped.refersTo (hwf : cls.decl.isWellFormed = true) {facts : ClassFacts}
    {holds : LocalId → Declaration → Prop} (h : cls.BodyScoped facts holds owner) {e : Expr Mark}
    (he : e ∈ cls.decl.exprsOf owner) {l : LocalId}
    (hl : facts.resolutionOf? e = some (.localVar l)) :
    ∃ d, holds l d ∧ (∃ mark, e = .named mark (.single d.name)) ∧ cls.decl.InScope owner d e ∧
      ∀ other, cls.decl.InScope owner other e → other.name = d.name → other = d := by
  rcases TypeDecl.mem_exprsOf he with ⟨index, root, rfl, hroot, hpart⟩ | ⟨body, hbody, hexpr⟩
  · obtain ⟨d, hd, -⟩ := h.initializer index root rfl hroot e hpart l hl
    cases hd
  · have hstmts : body.parts.Nodup :=
      TypeDecl.stmtsOf_of_body hbody ▸ TypeDecl.stmtsOf_nodup hwf owner
    have hexprs : body.exprs.Nodup :=
      TypeDecl.exprsOf_of_body hbody ▸ (TypeDecl.bodyIds_nodup hwf owner).of_map
    obtain ⟨s, hs, hexpr⟩ := List.mem_flatMap.mp hexpr
    obtain ⟨root, hroot, hpart⟩ := List.mem_flatMap.mp hexpr
    obtain ⟨seen, hseen, -⟩ := Stmt.exists_descends (cls.decl.paramDeclarations owner).reverse hs
    have hscoped := h.body body hbody seen s hseen
    obtain ⟨d, hd, hheld, hnamed⟩ := hscoped.operands root hroot e hpart l hl
    refine ⟨d, hheld, hnamed, ?_, fun other hother hname => ?_⟩
    · rcases hseen.coversExpr hroot hpart hd with hparam | hcovers
      · exact .param (List.mem_reverse.mp hparam) he
      · exact .localVar hbody hcovers
    · have hmem := hother.mem_scopeInside hbody hstmts hexprs hseen hroot hpart
      exact List.inj_on_of_nodup_map hscoped.distinct (List.mem_append_right _ hmem)
        (List.mem_append_right _ hd) hname

/-- No two declarations with overlapping scopes have the same name. -/
theorem BodyScoped.distinct (hwf : cls.decl.isWellFormed = true) {facts : ClassFacts}
    {holds : LocalId → Declaration → Prop} (h : cls.BodyScoped facts holds owner)
    {d other : Declaration} (hoverlap : cls.decl.ScopesOverlap owner d other)
    (hname : d.name = other.name) : d = other :=
  hoverlap.eq (TypeDecl.stmtsOf_nodup hwf owner)
    (fun body hbody seen part hpart => (h.body body hbody seen part hpart).distinct) hname

/-- The declarations in the bodies of a type, each with its member. -/
def declarations (cls : ClassContext) : List (BodyOwner × Declaration) :=
  cls.owners.flatMap (fun owner => (cls.decl.declarationsOf owner).map (Prod.mk owner))

/-- The facts of a type list the variables that its bodies declare, and keep their scopes. -/
structure Scoped (cls : ClassContext) (facts : ClassFacts) : Prop where
  locals : facts.locals.toList = cls.declarations.map (fun entry => cls.variable entry.2)
  bodies : ∀ owner ∈ cls.owners,
    cls.BodyScoped facts (fun l d => cls.declarations[l]? = some (owner, d)) owner

/-- The declarations of a member stand one after the other among those of its type. -/
theorem numbers_declarations {before after : List BodyOwner}
    (howners : cls.owners = before ++ owner :: after) :
    Numbers (fun l d => cls.declarations[l]? = some (owner, d))
      (before.flatMap cls.decl.declarationsOf).length (cls.decl.declarationsOf owner) := by
  intro i d hd
  have hbefore : (before.flatMap (fun owner =>
      (cls.decl.declarationsOf owner).map (Prod.mk owner))).length =
      (before.flatMap cls.decl.declarationsOf).length := by
    simp [List.length_flatMap]
  have hlt := (List.getElem?_eq_some_iff.mp hd).1
  rw [declarations, howners, List.flatMap_append, List.flatMap_cons, ← hbefore,
    List.getElem?_append_right (Nat.le_add_right ..), Nat.add_sub_cancel_left,
    List.getElem?_append_left (by rwa [List.length_map]), List.getElem?_map, hd]
  rfl

/-- When no body of a type breaks a rule, the facts keep the scopes of its bodies. -/
theorem checkBodies_scoped {collectAll : Bool} {st st' : CheckState} (hl : cls.IsLinked)
    (hwf : cls.decl.isWellFormed = true) (hdefaults : cls.DefaultsUnwritten)
    (hst : cls.symbols.Recorded st.lookups) (hfacts : st.facts = {})
    (hrun : cls.checkBodies collectAll cls.owners st = ([], st')) :
    cls.symbols.Recorded st'.lookups ∧ cls.Scoped st'.facts := by
  obtain ⟨hst', hlocals, -, hscoped⟩ := EstablishesFrom.forM
    (fun n owner howner => checkBody_scopes hl hdefaults
      (fun l d => cls.declarations[l]? = some (owner, d)) n howner) 0 (nodup_bodySlots hwf) st ()
    st' hst (fun slot _ => hfacts ▸ ClassFacts.isBlank_empty slot) (by rw [hfacts]; rfl)
    (checkBodies_eq_nil_iff.mp hrun)
  refine ⟨hst', ?_, fun owner howner => ?_⟩
  · rw [hlocals, hfacts, declarations, List.map_flatMap]
    simp [Function.comp_def]
  · obtain ⟨before, after, howners⟩ := List.append_of_mem howner
    refine hscoped st'.facts (.refl _ _) before owner after howners ?_
    have hnumbers := numbers_declarations howners
    rwa [Nat.zero_add, ← List.map_flatMap, List.length_map]

end ClassContext

/-! ## §3 Accepted programs -/

variable {program : Program} {config : Configuration} {a : Analysis} {id : ClassId}
  {owner : BodyOwner}

namespace Passes

theorem isLinked (hp : Passes program config a) (hid : id < a.linked.symbols.programSize) :
    (a.classContext id).IsLinked := by
  refine ⟨rfl, SymbolTable.link_classAt hp.hierarchy.link ?_⟩
  exact Nat.lt_of_lt_of_le hid hp.hierarchy.programSize_le

/-- The facts of an accepted program keep the scopes of its bodies. -/
theorem keepsScopes (hp : Passes program config a) (hid : id < a.linked.symbols.programSize) :
    (a.classContext id).Scoped (a.facts.classFacts id) := by
  refine Linked.checkBodies_each (P := fun id facts => (a.classContext id).Scoped facts)
    (fun other hother st st' hst hfacts hrun => ?_) hp.hierarchy.recorded hp.bodies id hid
  obtain ⟨hwf, hdefaults⟩ := hp.checkable hother
  exact ClassContext.checkBodies_scoped (hp.isLinked hother) hwf hdefaults hst hfacts hrun

end Passes

/-- A member with a body is checked, unless it is a constructor that is written in an
interface. -/
theorem ClassContext.IsLinked.mem_owners {cls : ClassContext} (h : cls.IsLinked)
    {body : Stmt Mark} (hbody : cls.decl.bodyTree? owner = some body)
    (hclass : cls.decl.isInterface = true → ∀ index, owner ≠ .constructor index) :
    owner ∈ cls.owners := by
  have hsignature : cls.table.classAt cls.classId = (cls.symbols.unitAt cls.classId).signature
      (cls.symbols.denotation cls.classId) (cls.symbols.lookup SymbolTable.objectName) :=
    h.classAt_eq
  rw [ClassContext.mem_owners, hsignature]
  cases owner with
  | field index => cases hbody
  | method index =>
    obtain ⟨method, hmethod, -⟩ := Option.bind_eq_some_iff.mp hbody
    rw [h.decl_eq] at hmethod
    refine .inr (.inl ⟨index, ?_, rfl⟩)
    rw [CompilationUnit.signature, List.length_map]
    exact (List.getElem?_eq_some_iff.mp hmethod).1
  | constructor index =>
    obtain ⟨constructor, hconstructor, -⟩ := Option.bind_eq_some_iff.mp hbody
    have hlt := (List.getElem?_eq_some_iff.mp hconstructor).1
    have hinterface : ¬ cls.decl.isInterface = true := fun hinterface => hclass hinterface index rfl
    have hwritten : ¬ cls.decl.constructors.isEmpty = true := by
      rw [List.isEmpty_iff]
      rintro hnil
      rw [hnil] at hlt
      cases hlt
    rw [h.decl_eq] at hinterface hwritten hlt
    refine .inr (.inr ⟨index, ?_, rfl⟩)
    rw [CompilationUnit.signature, TypeDecl.constructorSignatures, if_neg hinterface,
      if_neg hwritten, List.length_map]
    exact hlt

/-- In an accepted program the variables of a type are those that its bodies declare. An
expression that refers to one of them is the name of a declaration of the same member in whose
scope it stands, and the only one with that name. And in no body of the program, those of
constructors written in an interface apart, do two declarations with overlapping scopes have
the same name. -/
theorem lexical_scoping (h : analyze program config = .accepted a) :
    (∀ id < a.linked.symbols.programSize,
      (a.facts.classFacts id).locals.toList =
        (a.classContext id).declarations.map (fun entry => (a.classContext id).variable entry.2) ∧
      ∀ owner, a.HasMember id owner → ∀ e ∈ (a.classContext id).decl.exprsOf owner,
        ∀ l, a.resolutionOf? id e = some (.localVar l) →
          ∃ d, (a.classContext id).declarations[l]? = some (owner, d) ∧
            (∃ mark, e = .named mark (.single d.name)) ∧
            (a.classContext id).decl.InScope owner d e ∧
            ∀ other, (a.classContext id).decl.InScope owner other e → other.name = d.name →
              other = d) ∧
    ∀ unit ∈ program.units, ∀ owner,
      (unit.decl.isInterface = true → ∀ index, owner ≠ .constructor index) →
      ∀ d other, unit.decl.ScopesOverlap owner d other → d.name = other.name → d = other := by
  have hp := analyze_eq_accepted_iff.mp h
  refine ⟨fun id hid => ?_, fun unit hunit owner hclass d other hoverlap hname => ?_⟩
  · have hwf : (a.classContext id).decl.isWellFormed = true := (hp.checkable hid).1
    obtain ⟨hlocals, hbodies⟩ := hp.keepsScopes hid
    exact ⟨hlocals, fun owner hmember e he l hl => (hbodies owner hmember.2).refersTo hwf he hl⟩
  · obtain ⟨id, hid, rfl⟩ := hp.hierarchy.exists_unitAt hunit
    have hwf : (a.classContext id).decl.isWellFormed = true := (hp.checkable hid).1
    obtain ⟨body, hbody⟩ := hoverlap.exists_body
    have howner : owner ∈ (a.classContext id).owners := (hp.isLinked hid).mem_owners hbody hclass
    exact ((hp.keepsScopes hid).bodies owner howner).distinct hwf hoverlap hname

/-- A class with a method that copies its parameter to a local variable and returns it. -/
def copier : Program :=
  { units := unitsOf [{ Library.classNamed "Copier" with
      methods := [{ Library.method "copy" Library.int [(Library.int, "value")] with
        body := some [.localVar () Library.int "result" (some (.named () (.single "value"))),
          .returnValue () (some (.named () (.single "result")))] }] }] ++ coreUnits }

/-- The method has two variables. The name in its return statement refers to the second
one, and stands in its scope. -/
theorem copier_scopes : ∃ a, analyze copier { includeStdlib := false } = .accepted a ∧
    (a.classContext 0).declarations.length = 2 ∧
    ∃ e ∈ (a.classContext 0).decl.exprsOf (.method 0), a.resolutionOf? 0 e = some (.localVar 1) ∧
    ∃ d, (a.classContext 0).declarations[1]? = some (.method 0, d) ∧ d.name = "result" ∧
      (a.classContext 0).decl.InScope (.method 0) d e := by
  obtain ⟨a, haccepted, htest⟩ := exists_accepted copier { includeStdlib := false }
    (fun a => decide (a.HasMember 0 (.method 0)) &&
      decide ((a.classContext 0).declarations.map (fun entry => entry.2.name) =
        ["value", "result"]) &&
      ((a.classContext 0).decl.exprsOf (.method 0)).any
        (fun e => a.resolutionOf? 0 e = some (.localVar 1)))
    (by decide +kernel)
  obtain ⟨hfirst, hany⟩ := Bool.and_eq_true .. ▸ htest
  obtain ⟨hmember, hnames⟩ := Bool.and_eq_true .. ▸ hfirst
  have hmember := of_decide_eq_true hmember
  have hnames := of_decide_eq_true hnames
  obtain ⟨e, he, hl⟩ := List.any_eq_true.mp hany
  have hl := of_decide_eq_true hl
  obtain ⟨d, hd, -, hscope, -⟩ :=
    ((lexical_scoping haccepted).1 0 hmember.1).2 (.method 0) hmember e he 1 hl
  refine ⟨a, haccepted, by simpa using congrArg List.length hnames, e, he, hl, d, hd, ?_, hscope⟩
  have hname := congrArg (·[1]?) hnames
  simpa [hd] using hname

/-- An interface with a constructor, whose body declares a variable twice. -/
def shapeRedeclaring : Program :=
  { units := unitsOf [{ Library.interfaceNamed "Shape" with
      constructors := [{ body := [.localVar () Library.int "size" none,
        .localVar () Library.int "size" none] }] }] ++ coreUnits }

/-- The constructors that an interface is given are not type-checked: in an accepted program
two declarations of one name have overlapping scopes. -/
theorem interface_constructor_redeclares :
    ∃ a, analyze shapeRedeclaring { includeStdlib := false } = .accepted a ∧
      ∃ unit ∈ shapeRedeclaring.units, ∃ owner d other,
        unit.decl.ScopesOverlap owner d other ∧ d.name = other.name ∧ d ≠ other := by
  obtain ⟨a, haccepted, htest⟩ := exists_accepted shapeRedeclaring { includeStdlib := false }
    (fun _ => shapeRedeclaring.units.any (fun unit =>
      (unit.decl.bodyTree? (.constructor 0)).any (fun body : Stmt Mark =>
        decide (body.statements.map (fun s : Stmt Mark => s.declares.map Declaration.name) =
          [["size"], ["size"]] ∧ (body.statements.flatMap Stmt.declares).Nodup))))
    (by decide +kernel)
  obtain ⟨unit, hunit, htest⟩ := List.any_eq_true.mp htest
  obtain ⟨body, hbody, htest⟩ := (Option.any_eq_true ..).mp htest
  obtain ⟨hnames, hnodup⟩ := of_decide_eq_true htest
  cases body with
  | block mark stmts =>
    obtain ⟨first, rest, rfl, hfirst, hrest⟩ := List.map_eq_cons_iff.mp hnames
    obtain ⟨second, last, rfl, hsecond, hlast⟩ := List.map_eq_cons_iff.mp hrest
    obtain rfl := List.map_eq_nil_iff.mp hlast
    obtain ⟨d, hd, hdname⟩ := List.map_eq_singleton_iff.mp hfirst
    obtain ⟨other, hother, hothername⟩ := List.map_eq_singleton_iff.mp hsecond
    have hreaches : second ∈ unit.decl.stmtsOf (.constructor 0) := by
      rw [TypeDecl.stmtsOf_of_body hbody, Stmt.parts_eq]
      simp [Stmt.stmtChildren, Stmt.self_mem_parts]
    have hblock : .block mark ([] ++ first :: [second]) ∈ (Stmt.block mark [first, second]).parts :=
      Stmt.self_mem_parts _
    refine ⟨a, haccepted, unit, hunit, .constructor 0, d, other, ⟨second, ?_, ?_⟩, ?_, ?_⟩
    · refine .covered hbody (.rest hblock ?_ (List.mem_singleton_self _) (Stmt.self_mem_parts _))
      rw [hd]
      exact List.mem_singleton_self _
    · refine .self ?_ hreaches
      rw [hother]
      exact List.mem_singleton_self _
    · rw [hdname, hothername]
    · rintro rfl
      simp [Stmt.statements, hd, hother] at hnodup
  | _ => cases hnames

end JoosStatics
