/-
JoosStatics.Proofs.Typing.Judgement — when recorded facts describe a body.

The facts of a type hold a type, a resolution or both for an expression.
They describe a body when they agree at every node with what stands below
it: the rule for the form of the node accepts the types recorded for its
operands, and gives what is recorded at the node itself. None of this looks at a
run of the checker, and no node looks further than its operands.

* `BodyContext.Denotes` — what a qualified name denotes, from left to right.
* `BodyContext.Explains` — what is recorded at an expression follows from
  what is recorded at its operands.
* `BodyContext.Admits` — a statement keeps its rule.
-/
import JoosStatics.Bodies.Statements
import JoosStatics.Proofs.Linking.Signatures
import JoosStatics.Proofs.Syntax.Trees

namespace JoosStatics

/-! ## §1 Recorded facts -/

namespace ClassFacts

/-- The type recorded for an expression. -/
def typeOf? (facts : ClassFacts) (e : Expr Mark) : Option Ty := facts.types.find? e.note.id

/-- What an expression refers to. -/
def resolutionOf? (facts : ClassFacts) (e : Expr Mark) : Option Resolution :=
  facts.resolutions.find? e.note.id

/-- What is recorded at a node. -/
structure Says (facts : ClassFacts) (mark : Mark) (type : Option Ty)
    (resolution : Option Resolution) : Prop where
  type : facts.types.find? mark.id = type
  resolution : facts.resolutions.find? mark.id = resolution

/-- What an expression to the left of a selection is recorded as: the name of a
type, which has no type itself, or a value. -/
def Receives (facts : ClassFacts) (e : Expr Mark) : Receiver → Prop
  | .type id => facts.Says e.note none (some (.type id))
  | .value type => facts.typeOf? e = some type

end ClassFacts

/-- The variables of a scope are those recorded at their positions. -/
def Scope.Within (scope : Scope) (facts : ClassFacts) : Prop :=
  ∀ entry ∈ scope, facts.locals[entry.1]? = some entry.2

/-- The variables of a scope without their positions. -/
def Scope.vars (scope : Scope) : List LocalVar := scope.map Prod.snd

theorem Scope.within_nil (facts : ClassFacts) : Scope.Within [] facts := List.forall_mem_nil _

theorem Scope.find?_mem {scope : Scope} {name : Name} {entry : LocalId × LocalVar}
    (h : scope.find? name = some entry) : entry ∈ scope := List.mem_of_find?_eq_some h

/-! ## §2 Names -/

namespace BodyContext

/-- There is a value `this`: the member is not static, and the place is not among
the arguments of `this(...)` or `super(...)`. -/
def HasThis (ctx : BodyContext) : Prop := ctx.isStatic = false ∧ ctx.thisForbidden = false

theorem requireThis_eq_ok {ctx : BodyContext} {range : Span} :
    ctx.requireThis range = .ok () ↔ ctx.HasThis := by
  unfold requireThis HasThis
  rw [← Bool.or_eq_false_iff]
  cases ctx.isStatic || ctx.thisForbidden with
  | false => simp
  | true => simp [broken]

theorem requireNumeric_eq_ok {ctx : BodyContext} {found : Ty} {range : Span} :
    ctx.requireNumeric found range = .ok () ↔ found.isNumeric = true := by
  unfold requireNumeric
  split <;> simp_all [broken]

theorem requireAssignable_eq_ok {ctx : BodyContext} {found expected : Ty} {range : Span} :
    ctx.requireAssignable found expected range = .ok () ↔
      ctx.table.isAssignable found expected = true := by
  unfold requireAssignable
  split <;> simp_all [broken]

/-- What the first identifier of a name denotes: a variable, else a field of the
enclosing type, else a type, else a package. -/
inductive DenotesFirst (ctx : BodyContext) (scope : Scope) (name : Name) : NameMeaning → Prop
  | localVar {id : LocalId} {var : LocalVar} (hvar : scope.find? name = some (id, var)) :
      DenotesFirst ctx scope name (.value var.type (.localVar id))
  | field {ref : FieldRef} (hvar : scope.find? name = none)
      (hfield : (ctx.hierarchy.members ctx.classId).field? name = some ref)
      (hthis : (ctx.table.fieldAt ref).modifiers.isStatic = false → ctx.HasThis) :
      DenotesFirst ctx scope name (.value (ctx.table.fieldAt ref).type (.field ref))
  | type {id : ClassId} (hvar : scope.find? name = none)
      (hfield : (ctx.hierarchy.members ctx.classId).field? name = none)
      (htype : ctx.symbols.simpleType? ctx.classId name = some id) :
      DenotesFirst ctx scope name (.type id)
  | package (hvar : scope.find? name = none)
      (hfield : (ctx.hierarchy.members ctx.classId).field? name = none)
      (htype : ctx.symbols.simpleType? ctx.classId name = none) :
      DenotesFirst ctx scope name (.package (.single name))

/-- What a qualified name denotes: each further identifier is selected from what
stands before it. -/
inductive Denotes (ctx : BodyContext) (scope : Scope) : List Name → NameMeaning → Prop
  | first {name : Name} {meaning : NameMeaning} (h : ctx.DenotesFirst scope name meaning) :
      Denotes ctx scope [name] meaning
  | select {names : List Name} {name : Name} {range : Span} {before meaning : NameMeaning}
      (h : Denotes ctx scope names before) (hselect : ctx.extend range before name = .ok meaning) :
      Denotes ctx scope (names ++ [name]) meaning

theorem Denotes.extendAll {ctx : BodyContext} {scope : Scope} {range : Span} {names : List Name}
    {before meaning : NameMeaning} (h : ctx.Denotes scope names before) {others : List Name}
    (hextend : ctx.extendAll range before others = .ok meaning) :
    ctx.Denotes scope (names ++ others) meaning := by
  induction others generalizing names before with
  | nil =>
    cases hextend
    rwa [List.append_nil]
  | cons name others ih =>
    obtain ⟨next, hnext, hothers⟩ := bind_eq_ok.mp hextend
    have hall := ih (h.select hnext) hothers
    rwa [List.append_assoc] at hall

/-! ## §3 Expressions -/

/-- A written type denotes a type: all names in it do. -/
def DenotesType (ctx : BodyContext) (type : TypeSyntax) (found : Ty) : Prop :=
  (∀ name ∈ type.names, (ctx.symbols.namedType? ctx.classId name).isSome = true) ∧
    found = type.typeIn (ctx.symbols.denotation ctx.classId)

/-- An expression may be assigned: it is an array element, or refers to a variable
that is neither a final field nor the length of an array. -/
def MayAssign (ctx : BodyContext) (facts : ClassFacts) : Expr Mark → Prop
  | .named mark _ | .fieldAccess mark _ _ =>
    ∃ kind : ValueKind, facts.resolutions.find? mark.id = some kind.resolution ∧
      ctx.requireWritable kind mark.range = .ok ()
  | .arrayAccess .. => True
  | _ => False

/-- What is recorded at an expression follows from what is recorded at its
operands. -/
inductive Explains (ctx : BodyContext) (facts : ClassFacts) (scope : Scope) : Expr Mark → Prop
  | literal {mark : Mark} {value : Literal}
      (h : facts.Says mark (some (ctx.literalType value)) none) :
      Explains ctx facts scope (.literal mark value)
  | valueName {mark : Mark} {path : QualifiedName} {type : Ty} {kind : ValueKind}
      (hname : ctx.Denotes scope path.segments (.value type kind))
      (h : facts.Says mark (some type) (some kind.resolution)) :
      Explains ctx facts scope (.named mark path)
  | typeName {mark : Mark} {path : QualifiedName} {id : ClassId}
      (hname : ctx.Denotes scope path.segments (.type id))
      (h : facts.Says mark none (some (.type id))) :
      Explains ctx facts scope (.named mark path)
  | this {mark : Mark} (hthis : ctx.HasThis)
      (h : facts.Says mark (some (.declared ctx.classId)) none) :
      Explains ctx facts scope (.this mark)
  | fieldAccess {mark : Mark} {receiver : Expr Mark} {name : Name} {left : Receiver} {type : Ty}
      {kind : ValueKind} (hreceiver : facts.Receives receiver left)
      (hselect : ctx.selectField left name mark.range = .ok (type, kind))
      (h : facts.Says mark (some type) (some kind.resolution)) :
      Explains ctx facts scope (.fieldAccess mark receiver name)
  | call {mark : Mark} {name : Name} {args : List (Expr Mark)} {types : List Ty} {ref : MethodRef}
      (hargs : args.map facts.typeOf? = types.map some)
      (hcall : ctx.calledMethod ctx.classId .unqualified name types mark.range = .ok ref)
      (h : facts.Says mark (some (ctx.table.methodAt ref).returnType) (some (.method ref))) :
      Explains ctx facts scope (.call mark name args)
  | callOn {mark : Mark} {receiver : Expr Mark} {name : Name} {args : List (Expr Mark)}
      {left : Receiver} {id : ClassId} {kind : CallKind} {types : List Ty} {ref : MethodRef}
      (hreceiver : facts.Receives receiver left)
      (hcallee : ctx.callee left mark.range = .ok (id, kind))
      (hargs : args.map facts.typeOf? = types.map some)
      (hcall : ctx.calledMethod id kind name types mark.range = .ok ref)
      (h : facts.Says mark (some (ctx.table.methodAt ref).returnType) (some (.method ref))) :
      Explains ctx facts scope (.callOn mark receiver name args)
  | create {mark : Mark} {type : TypeRef} {args : List (Expr Mark)} {id : ClassId}
      {types : List Ty} {ref : ConstructorRef}
      (htype : ctx.symbols.namedType? ctx.classId type.name = some id)
      (hclass : (ctx.table.classAt id).isAbstract = false)
      (hargs : args.map facts.typeOf? = types.map some)
      (hcreate : ctx.invokedConstructor id types mark.range = .ok ref)
      (h : facts.Says mark (some (.declared id)) (some (.constructor ref))) :
      Explains ctx facts scope (.create mark type args)
  | createArray {mark : Mark} {element : TypeSyntax} {dims : List (Expr Mark)} {base : Ty}
      (htype : ctx.DenotesType element base)
      (hdims : ∀ dim ∈ dims, ∃ type, facts.typeOf? dim = some type ∧ type.isNumeric = true)
      (h : facts.Says mark (some (Ty.arrayOf dims.length base)) none) :
      Explains ctx facts scope (.createArray mark element dims)
  | arrayAccess {mark : Mark} {array index : Expr Mark} {arrayType indexType element : Ty}
      (harray : facts.typeOf? array = some arrayType) (hindex : facts.typeOf? index = some indexType)
      (helement : ctx.elementType arrayType indexType mark.range index.range = .ok element)
      (h : facts.Says mark (some element) none) :
      Explains ctx facts scope (.arrayAccess mark array index)
  | cast {mark : Mark} {type : TypeSyntax} {operand : Expr Mark} {found target : Ty}
      (htype : ctx.DenotesType type target) (hoperand : facts.typeOf? operand = some found)
      (hcast : ctx.checkCast found target mark.range = .ok ())
      (h : facts.Says mark (some target) none) :
      Explains ctx facts scope (.cast mark type operand)
  | instanceOf {mark : Mark} {operand : Expr Mark} {type : TypeSyntax} {found target : Ty}
      (hoperand : facts.typeOf? operand = some found) (htype : ctx.DenotesType type target)
      (htest : ctx.checkInstanceOf found target mark.range = .ok ())
      (h : facts.Says mark (some .boolean) none) :
      Explains ctx facts scope (.instanceOf mark operand type)
  | binary {mark : Mark} {op : BinaryOp} {lhs rhs : Expr Mark} {lhsType rhsType type : Ty}
      (hlhs : facts.typeOf? lhs = some lhsType) (hrhs : facts.typeOf? rhs = some rhsType)
      (hop : ctx.binaryType op lhsType rhsType mark.range = .ok type)
      (h : facts.Says mark (some type) none) :
      Explains ctx facts scope (.binary mark op lhs rhs)
  | unary {mark : Mark} {op : UnaryOp} {operand : Expr Mark} {found type : Ty}
      (hoperand : facts.typeOf? operand = some found)
      (hop : ctx.unaryType op found mark.range = .ok type)
      (h : facts.Says mark (some type) none) :
      Explains ctx facts scope (.unary mark op operand)
  | incDec {mark : Mark} {op : IncDecOp} {operand : Expr Mark} {found : Ty}
      (hoperand : facts.typeOf? operand = some found) (htarget : ctx.MayAssign facts operand)
      (hnumeric : ctx.checkIncDec found mark.range = .ok ())
      (h : facts.Says mark (some found) none) :
      Explains ctx facts scope (.incDec mark op operand)
  | assign {mark : Mark} {target value : Expr Mark} {expected found : Ty}
      (hexpected : facts.typeOf? target = some expected) (htarget : ctx.MayAssign facts target)
      (hvalue : facts.typeOf? value = some found)
      (hassign : ctx.requireAssignable found expected value.range = .ok ())
      (h : facts.Says mark (some expected) none) :
      Explains ctx facts scope (.assign mark target value)

/-- Everything inside an expression is explained. -/
def ExplainsIn (ctx : BodyContext) (facts : ClassFacts) (scope : Scope) (e : Expr Mark) : Prop :=
  ∀ part ∈ e.parts, ctx.Explains facts scope part

theorem ExplainsIn.intro {ctx : BodyContext} {facts : ClassFacts} {scope : Scope} {e : Expr Mark}
    (h : ctx.Explains facts scope e) (hchildren : ∀ child ∈ e.children,
      ctx.ExplainsIn facts scope child) : ctx.ExplainsIn facts scope e := by
  intro part hpart
  rw [Expr.parts_eq] at hpart
  rcases List.mem_cons.mp hpart with rfl | hpart
  · exact h
  · obtain ⟨child, hchild, hpart⟩ := List.mem_flatMap.mp hpart
    exact hchildren child hchild part hpart

theorem ExplainsIn.child {ctx : BodyContext} {facts : ClassFacts} {scope : Scope} {e : Expr Mark}
    (h : ctx.ExplainsIn facts scope e) {child : Expr Mark} (hchild : child ∈ e.children) :
    ctx.ExplainsIn facts scope child := by
  intro part hpart
  refine h part ?_
  rw [Expr.parts_eq]
  exact List.mem_cons_of_mem _ (List.mem_flatMap.mpr ⟨child, hchild, hpart⟩)

theorem ExplainsIn.part {ctx : BodyContext} {facts : ClassFacts} {scope : Scope}
    {e part : Expr Mark} (h : ctx.ExplainsIn facts scope e) (hpart : part ∈ e.parts) :
    ctx.ExplainsIn facts scope part := by
  induction e using Expr.induction with
  | h e ih =>
    rw [Expr.parts_eq] at hpart
    rcases List.mem_cons.mp hpart with rfl | hpart
    · exact h
    · obtain ⟨child, hchild, hpart⟩ := List.mem_flatMap.mp hpart
      exact ih child hchild (h.child hchild) hpart

/-! ## §4 Statements -/

/-- An expression is recorded with a type that may be assigned where another is
expected. -/
def HasAssignable (ctx : BodyContext) (facts : ClassFacts) (e : Expr Mark) (expected : Ty) :
    Prop :=
  ∃ found, facts.typeOf? e = some found ∧ ctx.table.isAssignable found expected = true

/-- A statement keeps its rule where the given variables are visible, by the types
recorded for its operands. An invocation of a constructor is no statement among
others. -/
def Admits (ctx : BodyContext) (facts : ClassFacts) (visible : List LocalVar) :
    Stmt Mark → Prop
  | .localVar mark type name initializer =>
    (∀ var ∈ visible, var.name ≠ name) ∧ ∃ declared, ctx.DenotesType type declared ∧
      (∃ id : LocalId, facts.locals[id]? =
        some { name, type := declared, span := mark.range, isParam := false }) ∧
      ∀ value ∈ initializer.toList, ctx.HasAssignable facts value declared
  | .branch _ condition _ _ | .whileLoop _ condition _ =>
    ctx.HasAssignable facts condition .boolean
  | .forLoop _ _ condition _ _ =>
    ∀ e ∈ condition.toList, ctx.HasAssignable facts e .boolean
  | .returnValue _ none => ctx.expectedReturn = .void
  | .returnValue _ (some value) =>
    ctx.expectedReturn ≠ .void ∧ ctx.HasAssignable facts value ctx.expectedReturn
  | .throwValue mark value =>
    ∃ found, facts.typeOf? value = some found ∧ checkThrown ctx found mark.range = .ok ()
  | .constructorCall .. => False
  | .block .. | .expression .. | .breakLoop _ | .empty _ => True

end BodyContext

end JoosStatics
