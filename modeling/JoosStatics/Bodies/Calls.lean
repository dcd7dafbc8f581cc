/-
JoosStatics.Bodies.Calls — method calls, creations and operators, given
the types of their operands.
-/
import JoosStatics.Bodies.Names
import JoosStatics.Types.Overload

namespace JoosStatics

/-- How a method is named at its call. -/
inductive CallKind where
  /-- A call `m(...)`, with an implied `this` for instance methods. -/
  | unqualified
  /-- A call `Type.m(...)`. -/
  | viaType
  /-- A call `value.m(...)`. -/
  | viaValue
  deriving DecidableEq, Repr

namespace BodyContext

/-- The outcome of a selection, or the rule that it breaks. -/
def selected {α : Type} (ctx : BodyContext) (selection : Selection α) (name : Name)
    (args : List Ty) (range : Span) : Except Violation α :=
  match selection with
  | .found choice => .ok choice
  | .notFound => ctx.broken (.noMatchingMethod name (ctx.table.displayList args)) range
  | .ambiguous _ => ctx.broken (.ambiguousOverload name (ctx.table.displayList args)) range

/-- The constructor of a class for the given argument types. -/
def selectConstructor (ctx : BodyContext) (id : ClassId) (args : List Ty) (range : Span) :
    Except Violation ConstructorRef :=
  let d := ctx.table.classAt id
  let candidates := d.constructors.zipIdx.map (fun (c, index) =>
    ((⟨id, index⟩ : ConstructorRef), c.params))
  ctx.selected (ctx.table.selectOverload candidates args) d.simpleName args range

/-- The method of a type for a name and argument types. -/
def selectMethod (ctx : BodyContext) (id : ClassId) (name : Name) (args : List Ty)
    (range : Span) : Except Violation MethodRef :=
  let candidates := (ctx.hierarchy.methodsNamed id name).map (fun ref =>
    (ref, (ctx.table.methodAt ref).params))
  ctx.selected (ctx.table.selectOverload candidates args) name args range

/-- The type whose methods a call selects from, and the form of the call.
Arrays have the methods of `java.lang.Object`. -/
def callee (ctx : BodyContext) (receiver : Receiver) (range : Span) :
    Except Violation (ClassId × CallKind) :=
  match receiver with
  | .type id => .ok (id, .viaType)
  | .value (.declared id) => .ok (id, .viaValue)
  | .value (.array _) => .ok (ctx.table.wellKnown.object, .viaValue)
  | .value type => ctx.broken (.typeMismatch "a reference type" (ctx.table.display type)) range

/-- Static methods are called through a type, instance methods through a
value; an unqualified call of an instance method needs `this`. -/
def checkCallKind (ctx : BodyContext) (kind : CallKind) (method : MethodDef) (range : Span) :
    Except Violation Unit :=
  match kind, method.isStatic with
  | .unqualified, false => ctx.requireThis range
  | .viaType, false | .viaValue, true =>
    ctx.broken (.illegalStaticAccess (ctx.table.methodSignature method)) range
  | _, _ => .ok ()

/-- The method that a call addresses. -/
def calledMethod (ctx : BodyContext) (id : ClassId) (kind : CallKind) (name : Name)
    (args : List Ty) (range : Span) : Except Violation MethodRef := do
  let ref ← ctx.selectMethod id name args range
  let method := ctx.table.methodAt ref
  ctx.checkCallKind kind method range
  ctx.checkThrows method.throws range
  return ref

/-- The constructor that is invoked for given argument types. -/
def invokedConstructor (ctx : BodyContext) (id : ClassId) (args : List Ty) (range : Span) :
    Except Violation ConstructorRef := do
  let ref ← ctx.selectConstructor id args range
  ctx.checkThrows (ctx.table.constructorAt ref).throws range
  return ref

/-- Records the method that a call addresses, and returns its result type. -/
def inferCall (ctx : BodyContext) (mark : Mark) (id : ClassId) (kind : CallKind) (name : Name)
    (args : List Ty) : CheckM Ty := do
  let ref ← CheckM.rule (ctx.calledMethod id kind name args mark.range)
  CheckM.recordResolution mark (.method ref)
  return (ctx.table.methodAt ref).returnType

/-- The class that a creation names, which may not be abstract. -/
def createdClass (ctx : BodyContext) (mark : Mark) (type : TypeRef) : CheckM ClassId := do
  let id ← CheckM.lookup (ctx.symbols.resolveRef ctx.classId type)
  if (ctx.table.classAt id).isAbstract then
    .rule (ctx.broken (.instantiateAbstract (ctx.table.nameOf id)) mark.range)
  else return id

/-- Records the constructor that a creation invokes, and returns the type of
the new object. -/
def inferCreation (ctx : BodyContext) (mark : Mark) (id : ClassId) (args : List Ty) :
    CheckM Ty := do
  let ref ← CheckM.rule (ctx.invokedConstructor id args mark.range)
  CheckM.recordResolution mark (.constructor ref)
  return .declared id

/-- The type of a literal. -/
def literalType (ctx : BodyContext) : Literal → Ty
  | .int _ => .int
  | .bool _ => .boolean
  | .char _ => .char
  | .string _ => .declared ctx.table.wellKnown.string
  | .null => .null

/-- The type of the element of an array at an index. -/
def elementType (ctx : BodyContext) (array index : Ty) (range indexRange : Span) :
    Except Violation Ty :=
  match array.element? with
  | none => ctx.broken (.typeMismatch "an array" (ctx.table.display array)) range
  | some element => do
    ctx.requireNumeric index indexRange
    return element

/-- The rule on a cast. -/
def checkCast (ctx : BodyContext) (source target : Ty) (range : Span) : Except Violation Unit :=
  if ctx.table.isCastable source target then .ok ()
  else ctx.broken (.invalidCast (ctx.table.display source) (ctx.table.display target)) range

/-- The rule on a type test, which is for references only. -/
def checkInstanceOf (ctx : BodyContext) (source target : Ty) (range : Span) :
    Except Violation Unit :=
  if source.isReference && target.isReference then ctx.checkCast source target range
  else ctx.broken (.invalidCast (ctx.table.display source) (ctx.table.display target)) range

/-- Whether two values can be compared for equality. -/
def areComparable (ctx : BodyContext) (lhs rhs : Ty) : Bool :=
  (lhs.isNumeric && rhs.isNumeric) || (lhs.isBoolean && rhs.isBoolean) ||
    (lhs.isReference && rhs.isReference &&
      (ctx.table.isCastable lhs rhs || ctx.table.isCastable rhs lhs))

/-- The result type of a binary operator, if it accepts its operands. Addition
with a string on one side joins texts. -/
def binaryResult? (ctx : BodyContext) (op : BinaryOp) (lhs rhs : Ty) : Option Ty :=
  let string := Ty.declared ctx.table.wellKnown.string
  let areNumeric := lhs.isNumeric && rhs.isNumeric
  match op with
  | .add =>
    if lhs = string ∨ rhs = string then
      if lhs ≠ .void ∧ rhs ≠ .void then some string else none
    else if areNumeric then some .int else none
  | .sub | .mul | .div | .rem => if areNumeric then some .int else none
  | .lt | .le | .gt | .ge => if areNumeric then some .boolean else none
  | .eq | .ne => if ctx.areComparable lhs rhs then some .boolean else none
  | .and | .or | .bitAnd | .bitOr =>
    if lhs.isBoolean && rhs.isBoolean then some .boolean else none

/-- The type of a binary operation. -/
def binaryType (ctx : BodyContext) (op : BinaryOp) (lhs rhs : Ty) (range : Span) :
    Except Violation Ty :=
  match ctx.binaryResult? op lhs rhs with
  | some type => .ok type
  | none =>
    ctx.broken (.typeMismatch ("operands of `" ++ op.symbol ++ "`")
      (ctx.table.display lhs ++ ", " ++ ctx.table.display rhs)) range

/-- The type of a unary operation. -/
def unaryType (ctx : BodyContext) (op : UnaryOp) (operand : Ty) (range : Span) :
    Except Violation Ty :=
  match op with
  | .neg => do
    ctx.requireNumeric operand range
    return .int
  | .not => do
    ctx.requireAssignable operand .boolean range
    return .boolean

/-- Only numbers are incremented and decremented. -/
def checkIncDec (ctx : BodyContext) (operand : Ty) (range : Span) : Except Violation Unit :=
  if operand.isNumeric then .ok ()
  else ctx.broken (.nonNumericIncDec (ctx.table.display operand)) range

end BodyContext

end JoosStatics
