/-
JoosStatics.Proofs.Bodies.Rules — the rules that a body check applies.

§1 says what the rule on throws clauses makes sure of; an invocation passes
it before it is recorded. §2 says what the rules have in common: none of
them is a rule of linking (`IsBodyRule`), so a violation of linking can come
out of a body only where the body looks a name up.
-/
import JoosStatics.Bodies.Statements
import JoosStatics.Proofs.Hierarchy.Replacement
import JoosStatics.Proofs.StatefulRuns

namespace JoosStatics

variable {ctx : BodyContext}

/-! ## §1 Throws clauses -/

namespace BodyContext

/-- The throws clause of the member covers the checked exceptions of a list. -/
def Handles (ctx : BodyContext) (thrown : List ClassId) : Prop :=
  ∀ e ∈ thrown, ctx.table.isCheckedException e = true → ctx.table.isCovered e ctx.throws = true

theorem checkThrows_eq_ok {thrown : List ClassId} {range : Span} :
    ctx.checkThrows thrown range = .ok () ↔ ctx.Handles thrown := by
  unfold checkThrows Handles
  rw [← TypeTable.find?_uncovered_eq_none]
  cases thrown.find? (fun e =>
    ctx.table.isCheckedException e && !ctx.table.isCovered e ctx.throws) with
  | none => simp
  | some exception => simp [broken]

/-- The throws clause of the member covers what an invoked member throws. -/
def Allows (ctx : BodyContext) : Resolution → Prop
  | .method ref => ctx.Handles (ctx.table.methodAt ref).throws
  | .constructor ref => ctx.Handles (ctx.table.constructorAt ref).throws
  | _ => True

theorem allows_valueKind (kind : ValueKind) : ctx.Allows kind.resolution := by
  cases kind <;> trivial

/-- A method that is called passes the throws clause. -/
theorem calledMethod_eq_ok {id : ClassId} {kind : CallKind} {name : Name} {args : List Ty}
    {range : Span} {ref : MethodRef} (h : ctx.calledMethod id kind name args range = .ok ref) :
    ctx.Handles (ctx.table.methodAt ref).throws := by
  unfold calledMethod at h
  obtain ⟨found, -, h⟩ := bind_eq_ok.mp h
  obtain ⟨_, -, h⟩ := bind_eq_ok.mp h
  obtain ⟨_, hthrows, h⟩ := bind_eq_ok.mp h
  cases h
  exact checkThrows_eq_ok.mp hthrows

/-- A constructor that is invoked is selected, and passes the throws clause. -/
theorem invokedConstructor_eq_ok {id : ClassId} {args : List Ty} {range : Span}
    {ref : ConstructorRef} (h : ctx.invokedConstructor id args range = .ok ref) :
    ctx.selectConstructor id args range = .ok ref ∧
      ctx.Handles (ctx.table.constructorAt ref).throws := by
  unfold invokedConstructor at h
  obtain ⟨found, hfound, h⟩ := bind_eq_ok.mp h
  obtain ⟨_, hthrows, h⟩ := bind_eq_ok.mp h
  cases h
  exact ⟨hfound, checkThrows_eq_ok.mp hthrows⟩

end BodyContext

/-! ## §2 Rules that are not about linking -/

/-- Whatever violation a rule reports, it belongs to another phase than linking. -/
def IsBodyRule {α : Type} (result : Except Violation α) : Prop :=
  ∀ e, result = .error e → e.phase ≠ .typeLinking

namespace IsBodyRule

variable {α β : Type}

theorem ok (a : α) : IsBodyRule (.ok a) := by
  intro e heq
  cases heq

theorem pure (a : α) : IsBodyRule (Pure.pure a) := .ok a

theorem broken {cause : Cause} {range : Span} (h : cause.phase ≠ .typeLinking) :
    IsBodyRule (ctx.broken cause range : Except Violation α) := by
  intro e heq
  cases heq
  exact h

theorem bind {x : Except Violation α} {f : α → Except Violation β} (hx : IsBodyRule x)
    (hf : ∀ a, IsBodyRule (f a)) : IsBodyRule (x >>= f) := by
  cases x with
  | error e =>
    intro e' heq
    cases heq
    exact hx e rfl
  | ok a => exact hf a

theorem map {x : Except Violation α} (hx : IsBodyRule x) (f : α → β) : IsBodyRule (x.map f) := by
  cases x with
  | error e =>
    intro e' heq
    cases heq
    exact hx e rfl
  | ok a => exact .ok (f a)

end IsBodyRule

namespace BodyContext

variable (ctx : BodyContext) (range : Span)

theorem requireThis_isBodyRule : IsBodyRule (ctx.requireThis range) := by
  unfold requireThis
  split
  · exact .broken nofun
  · exact .ok ()

theorem requireAssignable_isBodyRule (found expected : Ty) :
    IsBodyRule (ctx.requireAssignable found expected range) := by
  unfold requireAssignable
  split
  · exact .ok ()
  · exact .broken nofun

theorem requireNumeric_isBodyRule (found : Ty) : IsBodyRule (ctx.requireNumeric found range) := by
  unfold requireNumeric
  split
  · exact .ok ()
  · exact .broken nofun

theorem checkThrows_isBodyRule (thrown : List ClassId) :
    IsBodyRule (ctx.checkThrows thrown range) := by
  unfold checkThrows
  split
  · exact .broken nofun
  · exact .ok ()

theorem fieldOf_isBodyRule (id : ClassId) (name : Name) :
    IsBodyRule (ctx.fieldOf id name range) := by
  unfold fieldOf
  split
  · exact .ok _
  · exact .broken nofun

theorem instanceField_isBodyRule (type : Ty) (name : Name) :
    IsBodyRule (ctx.instanceField type name range) := by
  unfold instanceField
  simp only
  split
  · split
    · exact .ok _
    · exact .broken nofun
  · refine .bind (ctx.fieldOf_isBodyRule range _ name) (fun ref => ?_)
    split
    · exact .broken nofun
    · exact .pure _
  · exact .broken nofun

theorem staticField_isBodyRule (id : ClassId) (name : Name) :
    IsBodyRule (ctx.staticField id name range) := by
  refine .bind (ctx.fieldOf_isBodyRule range id name) (fun ref => ?_)
  simp only
  split
  · exact .pure _
  · exact .broken nofun

theorem selectField_isBodyRule (receiver : Receiver) (name : Name) :
    IsBodyRule (ctx.selectField receiver name range) := by
  cases receiver with
  | type id => exact ctx.staticField_isBodyRule range id name
  | value type => exact ctx.instanceField_isBodyRule range type name

theorem extend_isBodyRule (meaning : NameMeaning) (name : Name) :
    IsBodyRule (ctx.extend range meaning name) := by
  cases meaning with
  | value type kind => exact .map (ctx.instanceField_isBodyRule range type name) _
  | type id => exact .map (ctx.staticField_isBodyRule range id name) _
  | package package =>
    unfold extend
    simp only
    split <;> exact .ok _

theorem extendAll_isBodyRule (meaning : NameMeaning) (names : List Name) :
    IsBodyRule (ctx.extendAll range meaning names) := by
  induction names generalizing meaning with
  | nil => exact .ok meaning
  | cons name names ih => exact .bind (ctx.extend_isBodyRule range meaning name) ih

theorem requireWritable_isBodyRule (kind : ValueKind) :
    IsBodyRule (ctx.requireWritable kind range) := by
  cases kind with
  | arrayLength => exact .broken nofun
  | field ref =>
    unfold requireWritable
    simp only
    split
    · exact .broken nofun
    · exact .ok ()
  | localVar id => exact .ok ()

theorem selected_isBodyRule {α : Type} (selection : Selection α) (name : Name) (args : List Ty) :
    IsBodyRule (ctx.selected selection name args range) := by
  cases selection with
  | found choice => exact .ok choice
  | notFound => exact .broken nofun
  | ambiguous choices => exact .broken nofun

theorem callee_isBodyRule (receiver : Receiver) : IsBodyRule (ctx.callee receiver range) := by
  unfold callee
  split
  · exact .ok _
  · exact .ok _
  · exact .ok _
  · exact .broken nofun

theorem checkCallKind_isBodyRule (kind : CallKind) (method : MethodDef) :
    IsBodyRule (ctx.checkCallKind kind method range) := by
  unfold checkCallKind
  split
  · exact ctx.requireThis_isBodyRule range
  · exact .broken nofun
  · exact .broken nofun
  · exact .ok ()

theorem calledMethod_isBodyRule (id : ClassId) (kind : CallKind) (name : Name) (args : List Ty) :
    IsBodyRule (ctx.calledMethod id kind name args range) :=
  .bind (ctx.selected_isBodyRule range _ name args) (fun _ =>
    .bind (ctx.checkCallKind_isBodyRule range kind _) (fun _ =>
      .bind (ctx.checkThrows_isBodyRule range _) (fun _ => .pure _)))

theorem invokedConstructor_isBodyRule (id : ClassId) (args : List Ty) :
    IsBodyRule (ctx.invokedConstructor id args range) :=
  .bind (ctx.selected_isBodyRule range _ _ args) (fun _ =>
    .bind (ctx.checkThrows_isBodyRule range _) (fun _ => .pure _))

theorem elementType_isBodyRule (array index : Ty) (indexRange : Span) :
    IsBodyRule (ctx.elementType array index range indexRange) := by
  unfold elementType
  split
  · exact .broken nofun
  · exact .bind (ctx.requireNumeric_isBodyRule indexRange index) (fun _ => .pure _)

theorem checkCast_isBodyRule (source target : Ty) :
    IsBodyRule (ctx.checkCast source target range) := by
  unfold checkCast
  split
  · exact .ok ()
  · exact .broken nofun

theorem checkInstanceOf_isBodyRule (source target : Ty) :
    IsBodyRule (ctx.checkInstanceOf source target range) := by
  unfold checkInstanceOf
  split
  · exact ctx.checkCast_isBodyRule range source target
  · exact .broken nofun

theorem binaryType_isBodyRule (op : BinaryOp) (lhs rhs : Ty) :
    IsBodyRule (ctx.binaryType op lhs rhs range) := by
  unfold binaryType
  split
  · exact .ok _
  · exact .broken nofun

theorem unaryType_isBodyRule (op : UnaryOp) (operand : Ty) :
    IsBodyRule (ctx.unaryType op operand range) := by
  cases op with
  | neg => exact .bind (ctx.requireNumeric_isBodyRule range operand) (fun _ => .pure _)
  | not => exact .bind (ctx.requireAssignable_isBodyRule range operand .boolean) (fun _ => .pure _)

theorem checkIncDec_isBodyRule (operand : Ty) : IsBodyRule (ctx.checkIncDec operand range) := by
  unfold checkIncDec
  split
  · exact .ok ()
  · exact .broken nofun

end BodyContext

theorem checkThrown_isBodyRule (ctx : BodyContext) (found : Ty) (range : Span) :
    IsBodyRule (checkThrown ctx found range) := by
  unfold checkThrown
  simp only
  split
  · split
    · exact ctx.checkThrows_isBodyRule range _
    · exact .broken nofun
  · exact .ok ()
  · exact .broken nofun

end JoosStatics
