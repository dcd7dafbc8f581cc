/-
JoosStatics.Proofs.Typing.VoidValues — no accepted program uses a void value.

An expression of a body is used, or its value is discarded: it is the expression
of a statement, or the update of a loop (`TypeDecl.uses_or_discards`). The
expressions that are used are never void, so a void expression is a call whose
value is discarded (`void_values_discarded`).

Expressions and statements are checked one by one against what is recorded for
their operands. The arguments of `this(...)` and `super(...)` are compared with
the parameters of the constructor that is invoked, which is not recorded, so the
check of the constructor body itself is looked at once more
(`checkConstructor_passesValues`).
-/
import JoosStatics.Proofs.Typing.Denotable
import JoosStatics.Proofs.Typing.LexicalScoping

namespace JoosStatics

/-! ## §1 Used and discarded values -/

/-- The operands of a statement whose values are used, from left to right. -/
def Stmt.usedOperands {α : Type} : Stmt α → List (Expr α)
  | .localVar _ _ _ initializer => initializer.toList
  | .branch _ condition _ _ | .whileLoop _ condition _ => [condition]
  | .forLoop _ _ condition _ _ => condition.toList
  | .returnValue _ value => value.toList
  | .throwValue _ value => [value]
  | .constructorCall _ _ args => args
  | .block .. | .expression .. | .breakLoop _ | .empty _ => []

/-- The operand of a statement whose value is discarded: the expression of an expression
statement, or the update of a loop. -/
def Stmt.discardedOperand? {α : Type} : Stmt α → Option (Expr α)
  | .expression _ value => some value
  | .forLoop _ _ _ update _ => update
  | _ => none

theorem Stmt.mem_exprChildren_iff {α : Type} {s : Stmt α} {e : Expr α} :
    e ∈ s.exprChildren ↔ e ∈ s.usedOperands ∨ s.discardedOperand? = some e := by
  cases s <;> simp [exprChildren, usedOperands, discardedOperand?, eq_comm]

namespace TypeDecl

/-- The value of an expression in the body of a member is used: by the expression or the
statement that it is an operand of, or to initialize the field. -/
inductive Uses (decl : TypeDecl) (owner : BodyOwner) (e : Expr Mark) : Prop
  | operand {parent : Expr Mark} (hparent : parent ∈ decl.exprsOf owner)
      (he : e ∈ parent.children)
  | statement {s : Stmt Mark} (hs : s ∈ decl.stmtsOf owner) (he : e ∈ s.usedOperands)
  | initializer {index : Nat} (howner : owner = .field index)
      (he : decl.initializerTree? index = some e)

/-- The value of an expression in the body of a member is discarded by a statement. -/
def Discards (decl : TypeDecl) (owner : BodyOwner) (e : Expr Mark) : Prop :=
  ∃ s ∈ decl.stmtsOf owner, s.discardedOperand? = some e

variable {decl : TypeDecl} {owner : BodyOwner} {e : Expr Mark}

/-- The value of every expression in a body is used or discarded. -/
theorem uses_or_discards (he : e ∈ decl.exprsOf owner) :
    decl.Uses owner e ∨ decl.Discards owner e := by
  rcases mem_exprsOf he with ⟨index, root, rfl, hroot, hpart⟩ | ⟨body, hbody, hexpr⟩
  · rcases Expr.eq_or_mem_children hpart with rfl | ⟨parent, hparent, hchild⟩
    · exact .inl (.initializer rfl hroot)
    · exact .inl (.operand (mem_elim_nil.mpr ⟨root, hroot, hparent⟩) hchild)
  · obtain ⟨s, hs, hexpr⟩ := List.mem_flatMap.mp hexpr
    obtain ⟨root, hroot, hpart⟩ := List.mem_flatMap.mp hexpr
    have hs' : s ∈ decl.stmtsOf owner := stmtsOf_of_body hbody ▸ hs
    rcases Expr.eq_or_mem_children hpart with rfl | ⟨parent, hparent, hchild⟩
    · rcases Stmt.mem_exprChildren_iff.mp hroot with hused | hdiscarded
      · exact .inl (.statement hs' hused)
      · exact .inr ⟨s, hs', hdiscarded⟩
    · refine .inl (.operand ?_ hchild)
      rw [exprsOf_of_body hbody]
      exact List.mem_flatMap.mpr ⟨s, hs, List.mem_flatMap.mpr ⟨root, hroot, hparent⟩⟩

end TypeDecl

/-! ## §2 Statements -/

namespace BodyContext

variable {ctx : BodyContext} {facts : ClassFacts} {e : Expr Mark}

/-- What can be assigned to a type other than void is not void. -/
theorem HasAssignable.ne_void {expected : Ty} (h : ctx.HasAssignable facts e expected)
    (hexpected : expected ≠ .void) : facts.typeOf? e ≠ some .void := by
  obtain ⟨found, hfound, hassign⟩ := h
  rw [hfound]
  exact fun heq => TypeTable.ne_void_of_isAssignable hassign hexpected (Option.some.inj heq)

/-- A statement does not use a void value. -/
theorem Admits.used_ne_void {visible : List LocalVar} {s : Stmt Mark}
    (h : ctx.Admits facts visible s) (he : e ∈ s.usedOperands) : facts.typeOf? e ≠ some .void := by
  have hboolean : Ty.boolean ≠ .void := by simp [Ty.boolean]
  cases s with
  | localVar mark type name initializer =>
    obtain ⟨-, declared, ⟨-, rfl⟩, -, hvalue⟩ := h
    exact (hvalue e he).ne_void (Ty.ne_void_of_isDenotable (type.isDenotable_typeIn _))
  | branch mark condition thenBranch elseBranch =>
    obtain rfl := List.mem_singleton.mp he
    exact HasAssignable.ne_void h hboolean
  | whileLoop mark condition body =>
    obtain rfl := List.mem_singleton.mp he
    exact HasAssignable.ne_void h hboolean
  | forLoop mark init condition update body => exact (h e he).ne_void hboolean
  | returnValue mark value =>
    obtain rfl := Option.mem_toList.mp he
    exact HasAssignable.ne_void h.2 h.1
  | throwValue mark value =>
    obtain rfl := List.mem_singleton.mp he
    obtain ⟨found, hfound, hthrown⟩ := h
    rw [hfound]
    rintro ⟨⟩
    cases hthrown
  | constructorCall mark call args => exact h.elim
  | block | expression | breakLoop | empty => cases he

end BodyContext

/-! ## §3 Invocations of constructors -/

section Invocations

open Establishes

variable (ctx : BodyContext) (hsignatures : ctx.table.TypesDenotable)

include hsignatures

/-- The arguments of `super(...)` are not void. -/
theorem checkSuperInvocation_passesValues (scope : Scope) (args : List (Expr Mark))
    (range : Span) :
    Establishes ctx.symbols (args.flatMap Expr.slots) (checkSuperInvocation ctx scope args range)
      (fun facts _ => ∀ e ∈ args, facts.typeOf? e ≠ some .void) := by
  rw [← List.append_nil (args.flatMap Expr.slots)]
  refine (inferExprs_establishes { ctx with thisForbidden := true } scope args).bind
    (fun types => ?_)
  split
  · split
    · rename_i hempty
      rw [List.isEmpty_iff.mp hempty]
      exact .pure _ (fun _ _ => List.forall_mem_nil _)
    · exact .rule_fails
  · refine rule.bind_pure ?_
    rintro facts _ hinvoke ⟨htypes, -⟩ e he
    exact BodyContext.invokedConstructor_ne_void hsignatures hinvoke htypes he

/-- The arguments of `this(...)` are not void. -/
theorem checkThisInvocation_passesValues (scope : Scope) (constructor : ConstructorRef)
    (args : List (Expr Mark)) (range : Span) :
    Establishes ctx.symbols (args.flatMap Expr.slots)
      (checkThisInvocation ctx scope constructor args range)
      (fun facts _ => ∀ e ∈ args, facts.typeOf? e ≠ some .void) := by
  rw [← List.append_nil (args.flatMap Expr.slots)]
  refine (inferExprs_establishes { ctx with thisForbidden := true } scope args).bind
    (fun types => .rule_bind (fun target hinvoke => ?_))
  refine (recordTarget constructor target).mono ?_
  rintro facts _ - ⟨htypes, -⟩ e he
  exact BodyContext.invokedConstructor_ne_void hsignatures hinvoke htypes he

/-- A constructor body starts with an invocation without void arguments. -/
theorem checkConstructorBody_passesValues (scope : Scope) (constructor : ConstructorRef)
    (body : Stmt Mark) :
    Establishes ctx.symbols body.slots (checkConstructorBody ctx scope constructor body)
      (fun facts _ => ∀ s, body.invocation? = some s → ∀ e ∈ s.exprChildren,
        facts.typeOf? e ≠ some .void) := by
  refine checkConstructorBody_of (checkSuperInvocation_passesValues ctx hsignatures scope)
    (checkThisInvocation_passesValues ctx hsignatures scope constructor) ?_ ?_
  · intro facts mark call args rest _ hhead hargs _ s hs
    cases hhead.symm.trans hs
    exact hargs
  · intro facts hnone _ s hs
    cases hnone.symm.trans hs

end Invocations

namespace ClassContext

variable {cls : ClassContext} {owner : BodyOwner} {facts : ClassFacts} {e : Expr Mark}

/-- The `this(...)` or `super(...)` that a member starts with has no void argument. -/
def PassesValues (cls : ClassContext) (facts : ClassFacts) (owner : BodyOwner) : Prop :=
  ∀ s, cls.decl.invocation? owner = some s → ∀ e ∈ s.exprChildren, facts.typeOf? e ≠ some .void

theorem checkConstructor_passesValues (hsignatures : cls.table.TypesDenotable)
    (hdefaults : cls.DefaultsUnwritten) {index : Nat} (howner : .constructor index ∈ cls.owners) :
    Establishes cls.symbols (cls.decl.bodySlots (.constructor index)) (cls.checkConstructor index)
      (fun facts _ => cls.PassesValues facts (.constructor index)) := by
  refine checkConstructor_of hdefaults howner (fun hnone facts s hs => ?_)
    (fun scope body hbody => (checkConstructorBody_passesValues
      (cls.bodyContext (.constructor index)) hsignatures scope _ body).mono ?_)
  · rw [TypeDecl.invocation?, hnone] at hs
    cases hs
  · intro facts _ hvalues _ _ _
    rw [PassesValues, TypeDecl.invocation?, hbody]
    exact hvalues

/-- A body that is checked starts with an invocation without void arguments, if any. -/
theorem checkBody_passesValues (hsignatures : cls.table.TypesDenotable)
    (hdefaults : cls.DefaultsUnwritten) (howner : owner ∈ cls.owners) :
    Establishes cls.symbols (cls.decl.bodySlots owner) (cls.checkBody owner)
      (fun facts _ => cls.PassesValues facts owner) := by
  have hother {facts : ClassFacts} (hnone : cls.decl.invocation? owner = none) :
      cls.PassesValues facts owner := by
    intro s hs
    cases hnone.symm.trans hs
  cases owner with
  | field index => exact (cls.checkField_establishes index).mono (fun _ _ _ => hother rfl)
  | method index => exact (cls.checkMethod_establishes index).mono (fun _ _ _ => hother rfl)
  | constructor index => exact checkConstructor_passesValues hsignatures hdefaults howner

/-! ## §4 Bodies -/

/-- The type of an expression in a body is one that its form allows. -/
theorem BodyTyped.mayHave (hd : cls.DeclaresTypes facts) (h : cls.BodyTyped facts owner)
    (he : e ∈ cls.decl.exprsOf owner) {type : Ty} (htype : facts.typeOf? e = some type) :
    e.MayHave type := by
  obtain ⟨place, hplace⟩ := mem_exprsOf_iff.mp he
  obtain ⟨root, scope, hpart, -, hscope, hin⟩ := h.explains hplace
  exact (hin.part hpart).mayHave (by rwa [inPlace_bodyContext]) hscope htype

/-- No expression whose value is used is void. -/
theorem BodyTyped.used_ne_void (hd : cls.DeclaresTypes facts) (h : cls.BodyTyped facts owner)
    (hvalues : cls.PassesValues facts owner) (howner : owner ∈ cls.owners)
    (huses : cls.decl.Uses owner e) : facts.typeOf? e ≠ some .void := by
  cases huses with
  | operand hparent hchild =>
    obtain ⟨place, hplace⟩ := mem_exprsOf_iff.mp hparent
    obtain ⟨root, scope, hpart, -, hscope, hin⟩ := h.explains hplace
    exact hin.operand_ne_void (by rwa [inPlace_bodyContext]) hscope hpart hchild
  | statement hs hused =>
    rcases h.stmt hs with ⟨visible, hadmits⟩ | hinvocation
    · exact hadmits.used_ne_void hused
    · exact hvalues _ hinvocation e (Stmt.mem_exprChildren_iff.mpr (.inl hused))
  | @initializer index hfield hinitializer =>
    obtain rfl := hfield
    have hlt : index < (cls.table.classAt cls.classId).fields.length := by
      rcases mem_owners.mp howner with ⟨_, hlt, ⟨⟩⟩ | ⟨_, -, ⟨⟩⟩ | ⟨_, -, ⟨⟩⟩
      exact hlt
    have hfield : (cls.table.fieldAt ⟨cls.classId, index⟩).type.isDenotable = true := by
      rw [TypeTable.fieldAt_of_getElem? (List.getElem?_eq_getElem hlt)]
      exact (hd.signatures cls.classId).field _ (List.getElem_mem hlt)
    exact (h.initializer index e rfl hinitializer).ne_void (Ty.ne_void_of_isDenotable hfield)

/-- Types are recorded in the bodies that are checked. -/
theorem Typed.mem_owners (hwf : cls.decl.isWellFormed = true) (h : cls.Typed facts)
    (he : e ∈ cls.decl.exprsOf owner) {type : Ty} (htype : facts.typeOf? e = some type) :
    owner ∈ cls.owners := by
  by_contra howner
  have hnone := (h.others e.note.id (fun other hother hmem => ?_)).1
  · cases hnone.symm.trans htype
  · have hne : owner ≠ other := fun heq => howner (heq ▸ hother)
    exact TypeDecl.bodyIds_disjoint hwf hne (List.mem_map_of_mem he) hmem

/-- Every recorded type is that of an expression in a body that is checked. -/
theorem Typed.exists_expr (h : cls.Typed facts) {n : ExprId} {type : Ty}
    (htype : facts.types.find? n = some type) :
    ∃ owner ∈ cls.owners, ∃ e ∈ cls.decl.exprsOf owner, facts.typeOf? e = some type := by
  by_contra! hnone
  have hn := (h.others n (fun owner howner hmem => ?_)).1
  · cases hn.symm.trans htype
  · obtain ⟨e, he, rfl⟩ := List.mem_map.mp hmem
    exact hnone owner howner e he htype

end ClassContext

/-! ## §5 Accepted programs -/

variable {program : Program} {config : Configuration} {a : Analysis} {id : ClassId}

namespace Passes

/-- In an accepted program no constructor passes a void value on. -/
theorem passesValues (hp : Passes program config a) (hid : id < a.linked.symbols.programSize) :
    ∀ owner ∈ (a.classContext id).owners,
      (a.classContext id).PassesValues (a.facts.classFacts id) owner := by
  refine Linked.checkBodies_each (P := fun id facts => ∀ owner ∈ (a.classContext id).owners,
    (a.classContext id).PassesValues facts owner)
    (fun other hother st st' hst hfacts hrun => ?_) hp.hierarchy.recorded hp.bodies id hid
  obtain ⟨hwf, hdefaults⟩ := hp.checkable hother
  obtain ⟨hst', hvalues, -⟩ := ClassContext.checkBodies_each hwf
    (fun _ howner => ClassContext.checkBody_passesValues hp.hierarchy.typesDenotable hdefaults
      howner) hst hfacts hrun
  exact ⟨hst', hvalues⟩

/-- In an accepted program all variables and members have types that can be written. -/
theorem declaresTypes (hp : Passes program config a) (hid : id < a.linked.symbols.programSize) :
    (a.classContext id).DeclaresTypes (a.facts.classFacts id) where
  signatures := hp.hierarchy.typesDenotable
  members := hp.hierarchy.areDeclared
  locals := by
    intro var hvar
    rw [← Array.mem_toList_iff, (hp.keepsScopes hid).locals] at hvar
    obtain ⟨⟨owner, d⟩, -, rfl⟩ := List.mem_map.mp hvar
    cases d <;> exact TypeSyntax.isDenotable_typeIn ..

end Passes

/-- In an accepted program a void expression is a method call, and its value is discarded: it
is the expression of an expression statement or the update of a loop, and nothing uses it.
Other recorded types are the null type and those that can be written, which have neither void
nor the null type inside, and all variables have types that can be written. -/
theorem void_values_discarded (h : analyze program config = .accepted a)
    (hid : id < a.linked.symbols.programSize) :
    (∀ owner, ∀ e ∈ (a.classContext id).decl.exprsOf owner, a.typeOf? id e = some .void →
      e.isCall = true ∧ (a.classContext id).decl.Discards owner e ∧
        ¬ (a.classContext id).decl.Uses owner e) ∧
    (∀ n type, (a.facts.classFacts id).types.find? n = some type →
      type.isDenotable = true ∨ type = .null ∨ type = .void) ∧
    ∀ var ∈ (a.facts.classFacts id).locals, var.type.isDenotable = true := by
  have hp := analyze_eq_accepted_iff.mp h
  have htyped : (a.classContext id).Typed (a.facts.classFacts id) := hp.typed hid
  have hd := hp.declaresTypes hid
  refine ⟨fun owner e he htype => ?_, fun n type htype => ?_, hd.locals⟩
  · have howner := htyped.mem_owners (hp.checkable hid).1 he htype
    have hbody := htyped.bodies owner howner
    have hunused : ¬ (a.classContext id).decl.Uses owner e := fun huses =>
      hbody.used_ne_void hd (hp.passesValues hid owner howner) howner huses htype
    refine ⟨?_, (TypeDecl.uses_or_discards he).resolve_left hunused, hunused⟩
    cases hbody.mayHave hd he htype with
    | denotable h => cases h
    | void hcall => exact hcall
  · obtain ⟨owner, howner, e, he, htype⟩ := htyped.exists_expr htype
    cases (htyped.bodies owner howner).mayHave hd he htype with
    | denotable h => exact .inl h
    | null => exact .inr (.inl rfl)
    | void => exact .inr (.inr rfl)

/-- A class with a method that returns nothing, and another one that calls it. -/
def switcher : Program :=
  { units := unitsOf [{ Library.classNamed "Switcher" with
      methods := [{ Library.procedure "flip" with body := some [] },
        { Library.procedure "flipOnce" with
          body := some [.expression () (.call () "flip" [])] }] }] ++ coreUnits }

/-- The call is void, and its value is discarded. -/
theorem switcher_discards : ∃ a, analyze switcher { includeStdlib := false } = .accepted a ∧
    0 < a.linked.symbols.programSize ∧
    ∃ e ∈ (a.classContext 0).decl.exprsOf (.method 1), a.typeOf? 0 e = some .void ∧
      e.isCall = true ∧ (a.classContext 0).decl.Discards (.method 1) e ∧
      ¬ (a.classContext 0).decl.Uses (.method 1) e := by
  obtain ⟨a, haccepted, htest⟩ := exists_accepted switcher { includeStdlib := false }
    (fun a => decide (0 < a.linked.symbols.programSize) &&
      ((a.classContext 0).decl.exprsOf (.method 1)).any
        (fun e => decide (a.typeOf? 0 e = some .void)))
    (by decide +kernel)
  obtain ⟨hid, hany⟩ := Bool.and_eq_true .. ▸ htest
  obtain ⟨e, he, hvoid⟩ := List.any_eq_true.mp hany
  have hid := of_decide_eq_true hid
  have hvoid := of_decide_eq_true hvoid
  exact ⟨a, haccepted, hid, e, he, hvoid,
    (void_values_discarded haccepted hid).1 (.method 1) e he hvoid⟩

end JoosStatics
