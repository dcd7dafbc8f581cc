/-
JoosStatics.Proofs.Typing.Denotable — where the null type and void occur.

A written type is a primitive type, a class or interface, or an array over such
a type (`Ty.isDenotable`). So these are the types of all variables, fields and
parameters, and of all results but those of methods that return nothing.

From the declarations this spreads to the expressions of a body, rule by rule.
`Expr.MayHave` says which expressions have another type: the null literal has
the null type, and a call may be void. No operand is void, since no rule
accepts a void operand (`Explains.operand_ne_void`).
-/
import JoosStatics.Proofs.Typing.Results

namespace JoosStatics

/-! ## §1 Types that can be written -/

namespace Ty

/-- Whether a type can be written: it is neither void nor the null type, nor an array over
one of them. -/
def isDenotable : Ty → Bool
  | .primitive _ | .declared _ => true
  | .array element => element.isDenotable
  | .null | .void => false

theorem ne_void_of_isDenotable {type : Ty} (h : type.isDenotable = true) : type ≠ .void := by
  rintro rfl
  cases h

theorem isDenotable_of_isNumeric {type : Ty} (h : type.isNumeric = true) :
    type.isDenotable = true := by
  cases type with
  | primitive p => rfl
  | _ => cases h

theorem ne_void_of_isBoolean {type : Ty} (h : type.isBoolean = true) : type ≠ .void := by
  rintro rfl
  cases h

theorem ne_void_of_isNumeric {type : Ty} (h : type.isNumeric = true) : type ≠ .void :=
  ne_void_of_isDenotable (isDenotable_of_isNumeric h)

theorem isDenotable_arrayOf (dims : Nat) (base : Ty) :
    (arrayOf dims base).isDenotable = base.isDenotable := by
  induction dims with
  | zero => rfl
  | succ dims ih => exact ih

end Ty

theorem TypeSyntax.isDenotable_typeIn (denote : QualifiedName → ClassId) (type : TypeSyntax) :
    (type.typeIn denote).isDenotable = true := by
  induction type with
  | primitive | named => rfl
  | array element ih => exact ih

theorem TypeSyntax.isDenotable_result (denote : QualifiedName → ClassId)
    (result : Option TypeSyntax) : (result.elim Ty.void (typeIn denote)).isDenotable = true ∨
      result.elim Ty.void (typeIn denote) = .void := by
  cases result with
  | none => exact .inr rfl
  | some type => exact .inl (type.isDenotable_typeIn denote)

/-- The types in a signature can be written, void apart as a result. -/
structure ClassDef.TypesDenotable (d : ClassDef) : Prop where
  field : ∀ f ∈ d.fields, f.type.isDenotable = true
  methodParam : ∀ m ∈ d.methods, ∀ param ∈ m.params, param.isDenotable = true
  result : ∀ m ∈ d.methods, m.returnType.isDenotable = true ∨ m.returnType = .void
  constructorParam : ∀ c ∈ d.constructors, ∀ param ∈ c.params, param.isDenotable = true

theorem CompilationUnit.signature_typesDenotable (denote : QualifiedName → ClassId)
    (object : Option ClassId) (u : CompilationUnit) :
    (u.signature denote object).TypesDenotable := by
  have hparams (params : List Param) :
      ∀ type ∈ params.map (fun param => param.type.typeIn denote), type.isDenotable = true :=
    List.forall_mem_map.mpr (fun param _ => param.type.isDenotable_typeIn denote)
  constructor
  · exact List.forall_mem_map.mpr (fun f _ => f.type.isDenotable_typeIn denote)
  · exact List.forall_mem_map.mpr (fun m _ => hparams m.params)
  · exact List.forall_mem_map.mpr (fun m _ => TypeSyntax.isDenotable_result denote m.returnType)
  · show ∀ c ∈ u.decl.constructorSignatures denote, ∀ param ∈ c.params, param.isDenotable = true
    unfold TypeDecl.constructorSignatures
    split
    · exact List.forall_mem_nil _
    · split
      · exact List.forall_mem_singleton.mpr (List.forall_mem_nil _)
      · exact List.forall_mem_map.mpr (fun c _ => hparams c.params)

/-- The types in all signatures of a table can be written. -/
def TypeTable.TypesDenotable (t : TypeTable) : Prop := ∀ id, (t.classAt id).TypesDenotable

/-- The signatures of an accepted hierarchy are those that are written. -/
theorem HasHierarchy.typesDenotable {program library : List CompilationUnit} {l : Linked}
    {h : Hierarchy} (hh : HasHierarchy program library l h) : l.table.TypesDenotable := by
  obtain ⟨-, hsize, -⟩ := SymbolTable.link_eq_ok hh.indexed hh.link
  intro id
  by_cases hid : id < l.symbols.size
  · rw [SymbolTable.link_classAt hh.link hid]
    exact CompilationUnit.signature_typesDenotable ..
  · rw [TypeTable.classAt_of_size_le _ (hsize ▸ Nat.le_of_not_lt hid)]
    exact ⟨List.forall_mem_nil _, List.forall_mem_nil _, List.forall_mem_nil _,
      List.forall_mem_nil _⟩

namespace TypeTable

variable {t : TypeTable}

/-- Only void is assigned from void. -/
theorem isAssignable_void {target : Ty} : t.isAssignable .void target = true ↔ target = .void := by
  cases target <;> simp [isAssignable]

/-- What can be assigned to a type that can be written is not void. -/
theorem ne_void_of_isAssignable {source target : Ty} (h : t.isAssignable source target = true)
    (htarget : target ≠ .void) : source ≠ .void := by
  rintro rfl
  exact htarget (isAssignable_void.mp h)

theorem isCastable_void (target : Ty) : t.isCastable .void target = false := by
  simp [isCastable]

/-- Accepted arguments are not void. -/
theorem ne_void_of_isApplicable {params args : List Ty} (h : t.isApplicable params args = true)
    (hparams : ∀ param ∈ params, param.isDenotable = true) {arg : Ty} (harg : arg ∈ args) :
    arg ≠ .void := by
  obtain ⟨param, hparam, hassign⟩ := isApplicable_assignable h harg
  exact ne_void_of_isAssignable hassign (Ty.ne_void_of_isDenotable (hparams param hparam))

end TypeTable

/-! ## §2 The types of expressions -/

/-- Whether an expression is a method call. -/
def Expr.isCall {α : Type} : Expr α → Bool
  | .call .. | .callOn .. => true
  | _ => false

/-- The types that the form of an expression allows: only the null literal has the null type,
and only a call is void. -/
inductive Expr.MayHave {α : Type} : Expr α → Ty → Prop
  | denotable {e : Expr α} {type : Ty} (h : type.isDenotable = true) : MayHave e type
  | null {note : α} : MayHave (.literal note .null) .null
  | void {e : Expr α} (h : e.isCall = true) : MayHave e .void

/-- An array has elements with a type that can be written. -/
theorem Expr.MayHave.element {α : Type} {e : Expr α} {type : Ty}
    (h : e.MayHave (.array type)) : type.isDenotable = true := by
  cases h with
  | denotable h => exact h

/-- The variables, fields and members that a body refers to have types that can be written. -/
structure ClassContext.DeclaresTypes (cls : ClassContext) (facts : ClassFacts) : Prop where
  signatures : cls.table.TypesDenotable
  members : Hierarchy.AreDeclared cls.table cls.hierarchy
  locals : ∀ var ∈ facts.locals, var.type.isDenotable = true

namespace ClassContext.DeclaresTypes

variable {cls : ClassContext} {facts : ClassFacts} (h : cls.DeclaresTypes facts)

include h

theorem field {id : ClassId} {name : Name} {ref : FieldRef}
    (hfield : (cls.hierarchy.members id).field? name = some ref) :
    (cls.table.fieldAt ref).type.isDenotable = true := by
  obtain ⟨f, hf, -⟩ := h.members.field hfield
  rw [TypeTable.fieldAt_of_getElem? hf]
  exact (h.signatures ref.owner).field f (List.mem_of_getElem? hf)

theorem method {id : ClassId} {name : Name} {ref : MethodRef}
    (hmethod : ref ∈ cls.hierarchy.methodsNamed id name) :
    cls.table.methodAt ref ∈ (cls.table.classAt ref.owner).methods := by
  obtain ⟨m, hm, -⟩ := h.members.method hmethod
  rw [TypeTable.methodAt_of_getElem? hm]
  exact List.mem_of_getElem? hm

end ClassContext.DeclaresTypes

namespace BodyContext

variable {ctx : BodyContext} {facts : ClassFacts} {scope : Scope} {e : Expr Mark}

theorem SelectsField.isDenotable (hd : ctx.toClassContext.DeclaresTypes facts) {left : Receiver}
    {name : Name} {type : Ty} {kind : ValueKind} (h : ctx.SelectsField left name type kind) :
    type.isDenotable = true := by
  cases h with
  | length => rfl
  | ofValue hfield _ | ofType hfield _ => exact hd.field hfield

/-- Nothing is selected from a void value. -/
theorem SelectsField.ne_void {left type : Ty} {name : Name} {kind : ValueKind}
    (h : ctx.SelectsField (.value left) name type kind) : left ≠ .void := by
  rintro rfl
  cases h

theorem Denotes.isDenotable (hd : ctx.toClassContext.DeclaresTypes facts)
    (hscope : scope.Within facts) {names : List Name} {type : Ty} {kind : ValueKind}
    (h : ctx.Denotes scope names (.value type kind)) : type.isDenotable = true := by
  cases h with
  | first hfirst =>
    cases hfirst with
    | localVar hvar =>
      exact hd.locals _ (Array.mem_of_getElem? (hscope _ (Scope.find?_mem hvar)))
    | field _ hfield _ => exact hd.field hfield
  | select _ hselect =>
    cases extend_eq_ok hselect with
    | value hselect | type hselect => exact hselect.isDenotable hd

theorem literalType_mayHave (mark : Mark) (value : Literal) :
    (Expr.literal mark value).MayHave (ctx.literalType value) := by
  cases value with
  | null => exact .null
  | _ => exact .denotable rfl

theorem calledMethod_mayHave (hd : ctx.toClassContext.DeclaresTypes facts) {id : ClassId}
    {kind : CallKind} {name : Name} {args : List Ty} {range : Span} {ref : MethodRef}
    (hcall : ctx.calledMethod id kind name args range = .ok ref) (he : e.isCall = true) :
    e.MayHave (ctx.table.methodAt ref).returnType := by
  rcases (hd.signatures ref.owner).result _ (hd.method (calledMethod_accepts hcall).1) with h | h
  · exact .denotable h
  · exact h ▸ .void he

theorem elementType_eq_ok {array index element : Ty} {range indexRange : Span}
    (h : ctx.elementType array index range indexRange = .ok element) :
    array = .array element ∧ index.isNumeric = true := by
  unfold elementType at h
  cases array with
  | array found =>
    obtain ⟨_, hindex, h⟩ := bind_eq_ok.mp h
    cases h
    exact ⟨rfl, requireNumeric_eq_ok.mp hindex⟩
  | _ => cases h

theorem binaryType_eq_ok {op : BinaryOp} {lhs rhs type : Ty} {range : Span} :
    ctx.binaryType op lhs rhs range = .ok type ↔ ctx.binaryResult? op lhs rhs = some type := by
  unfold binaryType
  cases ctx.binaryResult? op lhs rhs <;> simp [broken]

theorem areComparable_ne_void {lhs rhs : Ty} (h : ctx.areComparable lhs rhs = true) :
    lhs ≠ .void ∧ rhs ≠ .void := by
  constructor <;> rintro rfl <;>
    simp [areComparable, Ty.isNumeric, Ty.isBoolean, Ty.isReference] at h

/-- An operator has a result that can be written, and no void operand. -/
theorem binaryResult?_eq_some {op : BinaryOp} {lhs rhs type : Ty}
    (h : ctx.binaryResult? op lhs rhs = some type) :
    type.isDenotable = true ∧ lhs ≠ .void ∧ rhs ≠ .void := by
  have hnumeric {result : Ty} (hresult : result.isDenotable = true)
      (h : (if lhs.isNumeric && rhs.isNumeric then some result else none) = some type) :
      type.isDenotable = true ∧ lhs ≠ .void ∧ rhs ≠ .void := by
    obtain ⟨hoperands, heq⟩ := Option.ite_none_right_eq_some.mp h
    cases heq
    obtain ⟨hlhs, hrhs⟩ := Bool.and_eq_true .. ▸ hoperands
    exact ⟨hresult, Ty.ne_void_of_isNumeric hlhs, Ty.ne_void_of_isNumeric hrhs⟩
  cases op with
  | add =>
    simp only [binaryResult?] at h
    split at h
    · obtain ⟨hoperands, heq⟩ := Option.ite_none_right_eq_some.mp h
      cases heq
      exact ⟨rfl, hoperands⟩
    · exact hnumeric rfl h
  | sub | mul | div | rem | lt | le | gt | ge => exact hnumeric rfl h
  | eq | ne =>
    obtain ⟨hoperands, heq⟩ := Option.ite_none_right_eq_some.mp h
    cases heq
    exact ⟨rfl, areComparable_ne_void hoperands⟩
  | and | or | bitAnd | bitOr =>
    obtain ⟨hoperands, heq⟩ := Option.ite_none_right_eq_some.mp h
    cases heq
    obtain ⟨hlhs, hrhs⟩ := Bool.and_eq_true .. ▸ hoperands
    exact ⟨rfl, Ty.ne_void_of_isBoolean hlhs, Ty.ne_void_of_isBoolean hrhs⟩

/-- An operator has a result that can be written, and no void operand. -/
theorem unaryType_eq_ok {op : UnaryOp} {operand type : Ty} {range : Span}
    (h : ctx.unaryType op operand range = .ok type) :
    type.isDenotable = true ∧ operand ≠ .void := by
  cases op with
  | neg =>
    obtain ⟨_, hnumeric, heq⟩ := bind_eq_ok.mp h
    cases heq
    exact ⟨rfl, Ty.ne_void_of_isNumeric (requireNumeric_eq_ok.mp hnumeric)⟩
  | not =>
    obtain ⟨_, hassign, heq⟩ := bind_eq_ok.mp h
    cases heq
    exact ⟨rfl, TypeTable.ne_void_of_isAssignable (requireAssignable_eq_ok.mp hassign) nofun⟩

theorem checkIncDec_eq_ok {operand : Ty} {range : Span} :
    ctx.checkIncDec operand range = .ok () ↔ operand.isNumeric = true := by
  unfold checkIncDec
  split <;> simp_all [broken]

/-- No void value is cast. -/
theorem checkCast_ne_void {source target : Ty} {range : Span}
    (h : ctx.checkCast source target range = .ok ()) : source ≠ .void := by
  rintro rfl
  unfold checkCast at h
  rw [TypeTable.isCastable_void] at h
  cases h

theorem checkInstanceOf_ne_void {source target : Ty} {range : Span}
    (h : ctx.checkInstanceOf source target range = .ok ()) : source ≠ .void := by
  unfold checkInstanceOf at h
  split at h
  · exact checkCast_ne_void h
  · cases h

theorem callee_ne_void {left : Ty} {range : Span} {target : ClassId × CallKind}
    (h : ctx.callee (.value left) range = .ok target) : left ≠ .void := by
  rintro rfl
  cases h

theorem MayAssign.isCall_eq_false (h : ctx.MayAssign facts e) : e.isCall = false := by
  cases e <;> first | rfl | cases h

/-- An expression that may be assigned has a type that can be written. -/
theorem MayAssign.isDenotable {type : Ty} (h : ctx.MayAssign facts e) (he : e.MayHave type) :
    type.isDenotable = true := by
  cases he with
  | denotable h => exact h
  | null => cases h
  | void hcall => cases h.isCall_eq_false.symm.trans hcall

/-- The type of an expression is one that its form allows, when this holds of its
operands. -/
theorem Explains.mayHave (hd : ctx.toClassContext.DeclaresTypes facts)
    (hscope : scope.Within facts) (h : ctx.Explains facts scope e)
    (hchildren : ∀ child ∈ e.children, ∀ type, facts.typeOf? child = some type →
      child.MayHave type) {type : Ty} (htype : facts.typeOf? e = some type) : e.MayHave type := by
  have hsays {found : Ty} {r : Option Resolution} (h : facts.Says e.note (some found) r)
      (hfound : e.MayHave found) : e.MayHave type := by
    cases h.type.symm.trans htype
    exact hfound
  cases h with
  | literal h => exact hsays h (literalType_mayHave _ _)
  | valueName hname h => exact hsays h (.denotable (hname.isDenotable hd hscope))
  | typeName _ h => cases h.type.symm.trans htype
  | this _ h => exact hsays h (.denotable rfl)
  | fieldAccess _ hselect h =>
    exact hsays h (.denotable ((selectField_eq_ok hselect).isDenotable hd))
  | call _ hcall h => exact hsays h (calledMethod_mayHave hd hcall rfl)
  | callOn _ _ _ hcall h => exact hsays h (calledMethod_mayHave hd hcall rfl)
  | create _ _ _ _ h => exact hsays h (.denotable rfl)
  | createArray hbase _ h =>
    refine hsays h (.denotable ?_)
    rw [Ty.isDenotable_arrayOf, hbase.2]
    exact TypeSyntax.isDenotable_typeIn ..
  | arrayAccess harray _ helement h =>
    refine hsays h (.denotable ?_)
    obtain ⟨rfl, -⟩ := elementType_eq_ok helement
    exact (hchildren _ (List.mem_cons_self ..) _ harray).element
  | cast htarget _ _ h =>
    refine hsays h (.denotable ?_)
    rw [htarget.2]
    exact TypeSyntax.isDenotable_typeIn ..
  | instanceOf _ _ _ h => exact hsays h (.denotable rfl)
  | binary _ _ hop h =>
    exact hsays h (.denotable (binaryResult?_eq_some (binaryType_eq_ok.mp hop)).1)
  | unary _ hop h => exact hsays h (.denotable (unaryType_eq_ok hop).1)
  | incDec _ _ hnumeric h =>
    exact hsays h (.denotable (Ty.isDenotable_of_isNumeric (checkIncDec_eq_ok.mp hnumeric)))
  | assign hexpected htarget _ _ h =>
    exact hsays h (.denotable (htarget.isDenotable
      (hchildren _ (List.mem_cons_self ..) _ hexpected)))

/-- The types inside an expression are those that the forms allow. -/
theorem ExplainsIn.mayHave (hd : ctx.toClassContext.DeclaresTypes facts)
    (hscope : scope.Within facts) (h : ctx.ExplainsIn facts scope e) {type : Ty}
    (htype : facts.typeOf? e = some type) : e.MayHave type := by
  induction e using Expr.induction generalizing type with
  | h e ih =>
    refine (h e e.self_mem_parts).mayHave hd hscope (fun child hchild found hfound => ?_) htype
    exact ih child hchild (h.child hchild) hfound

/-- Accepted arguments are not void. -/
theorem ne_void_of_args {args : List (Expr Mark)} {types params : List Ty}
    (htypes : args.map facts.typeOf? = types.map some)
    (haccepts : ctx.table.isApplicable params types = true)
    (hparams : ∀ param ∈ params, param.isDenotable = true) {arg : Expr Mark} (harg : arg ∈ args) :
    facts.typeOf? arg ≠ some .void := by
  have hmem : facts.typeOf? arg ∈ types.map some := htypes ▸ List.mem_map_of_mem harg
  obtain ⟨type, htype, hsome⟩ := List.mem_map.mp hmem
  rw [← hsome]
  exact fun heq => TypeTable.ne_void_of_isApplicable haccepts hparams htype (Option.some.inj heq)

theorem calledMethod_ne_void (hd : ctx.toClassContext.DeclaresTypes facts) {id : ClassId}
    {kind : CallKind} {name : Name} {args : List (Expr Mark)} {types : List Ty} {range : Span}
    {ref : MethodRef} (hcall : ctx.calledMethod id kind name types range = .ok ref)
    (htypes : args.map facts.typeOf? = types.map some) {arg : Expr Mark} (harg : arg ∈ args) :
    facts.typeOf? arg ≠ some .void := by
  obtain ⟨hmem, -, haccepts⟩ := calledMethod_accepts hcall
  exact ne_void_of_args htypes haccepts
    ((hd.signatures ref.owner).methodParam _ (hd.method hmem)) harg

theorem invokedConstructor_ne_void (hsignatures : ctx.table.TypesDenotable) {id : ClassId}
    {args : List (Expr Mark)} {types : List Ty} {range : Span} {ref : ConstructorRef}
    (hinvoke : ctx.invokedConstructor id types range = .ok ref)
    (htypes : args.map facts.typeOf? = types.map some) {arg : Expr Mark} (harg : arg ∈ args) :
    facts.typeOf? arg ≠ some .void := by
  obtain ⟨-, c, hc, haccepts⟩ := selectConstructor_accepts (invokedConstructor_eq_ok hinvoke).1
  exact ne_void_of_args htypes haccepts
    ((hsignatures id).constructorParam c (List.mem_of_getElem? hc)) harg

/-- What stands to the left of a selection is the name of a type or a value, and such a
value is not void. -/
theorem ne_void_of_receives {receiver : Expr Mark} {left : Receiver}
    (h : facts.Receives receiver left) (hvalue : ∀ type, left = .value type → type ≠ .void) :
    facts.typeOf? receiver ≠ some .void := by
  cases left with
  | type id =>
    intro heq
    cases h.type.symm.trans heq
  | value type =>
    intro heq
    exact hvalue type rfl (Option.some.inj (h.symm.trans heq))

/-- No operand of an expression is void. -/
theorem Explains.operand_ne_void (hd : ctx.toClassContext.DeclaresTypes facts)
    (h : ctx.Explains facts scope e)
    (hchildren : ∀ child ∈ e.children, ∀ type, facts.typeOf? child = some type →
      child.MayHave type) {child : Expr Mark} (hchild : child ∈ e.children) :
    facts.typeOf? child ≠ some .void := by
  have hne {operand : Expr Mark} {found : Ty} (hfound : facts.typeOf? operand = some found)
      (h : found ≠ .void) : facts.typeOf? operand ≠ some .void := by
    rw [hfound]
    exact fun heq => h (Option.some.inj heq)
  cases h with
  | literal _ | valueName _ _ | typeName _ _ | this _ _ => cases hchild
  | fieldAccess hleft hselect _ =>
    obtain rfl := List.mem_singleton.mp hchild
    refine ne_void_of_receives hleft ?_
    rintro type rfl
    exact (selectField_eq_ok hselect).ne_void
  | call htypes hcall _ => exact calledMethod_ne_void hd hcall htypes hchild
  | callOn hleft hcallee htypes hcall _ =>
    rcases List.mem_cons.mp hchild with rfl | harg
    · refine ne_void_of_receives hleft ?_
      rintro type rfl
      exact callee_ne_void hcallee
    · exact calledMethod_ne_void hd hcall htypes harg
  | create _ _ htypes hcreate _ =>
    exact invokedConstructor_ne_void hd.signatures hcreate htypes hchild
  | createArray _ hdims _ =>
    obtain ⟨type, htype, hnumeric⟩ := hdims child hchild
    exact hne htype (Ty.ne_void_of_isNumeric hnumeric)
  | arrayAccess harray hindex helement _ =>
    obtain ⟨rfl, hnumeric⟩ := elementType_eq_ok helement
    rcases List.mem_pair.mp hchild with rfl | rfl
    · exact hne harray nofun
    · exact hne hindex (Ty.ne_void_of_isNumeric hnumeric)
  | cast _ hoperand hcast _ =>
    obtain rfl := List.mem_singleton.mp hchild
    exact hne hoperand (checkCast_ne_void hcast)
  | instanceOf hoperand _ htest _ =>
    obtain rfl := List.mem_singleton.mp hchild
    exact hne hoperand (checkInstanceOf_ne_void htest)
  | binary hlhs hrhs hop _ =>
    obtain ⟨-, hleft, hright⟩ := binaryResult?_eq_some (binaryType_eq_ok.mp hop)
    rcases List.mem_pair.mp hchild with rfl | rfl
    · exact hne hlhs hleft
    · exact hne hrhs hright
  | unary hoperand hop _ =>
    obtain rfl := List.mem_singleton.mp hchild
    exact hne hoperand (unaryType_eq_ok hop).2
  | incDec hoperand _ hnumeric _ =>
    obtain rfl := List.mem_singleton.mp hchild
    exact hne hoperand (Ty.ne_void_of_isNumeric (checkIncDec_eq_ok.mp hnumeric))
  | assign hexpected htarget hvalue hassign _ =>
    have htype := Ty.ne_void_of_isDenotable
      (htarget.isDenotable (hchildren _ (List.mem_cons_self ..) _ hexpected))
    rcases List.mem_pair.mp hchild with rfl | rfl
    · exact hne hexpected htype
    · exact hne hvalue
        (TypeTable.ne_void_of_isAssignable (requireAssignable_eq_ok.mp hassign) htype)

/-- No operand inside an expression is void. -/
theorem ExplainsIn.operand_ne_void (hd : ctx.toClassContext.DeclaresTypes facts)
    (hscope : scope.Within facts) (h : ctx.ExplainsIn facts scope e) {parent child : Expr Mark}
    (hparent : parent ∈ e.parts) (hchild : child ∈ parent.children) :
    facts.typeOf? child ≠ some .void := by
  have hin := h.part hparent
  refine (hin parent parent.self_mem_parts).operand_ne_void hd (fun other hother type htype => ?_)
    hchild
  exact (hin.child hother).mayHave hd hscope htype

end BodyContext

end JoosStatics
