/-
JoosStatics.Bodies.Members — the body of one member.

A `BodyOwner` is a field, method or constructor of a type. A member
without a body is accepted; a constructor without an explicit invocation
invokes the constructor of the superclass without arguments, and so does a
default constructor.
-/
import JoosStatics.Bodies.Statements

namespace JoosStatics

/-- The member that a body belongs to, by its position in the declaration. -/
inductive BodyOwner where
  | field (index : Nat)
  | method (index : Nat)
  | constructor (index : Nat)
  deriving DecidableEq, Repr

namespace TypeDecl

/-- The initializer of a field as a tree. -/
def initializerTree? (d : TypeDecl) (index : Nat) : Option (Expr Mark) := do
  let field ← d.fields[index]?
  let root ← field.initializer
  d.bodies.expr? root

/-- The body of a method as a tree. -/
def methodTree? (d : TypeDecl) (index : Nat) : Option (Stmt Mark) := do
  let method ← d.methods[index]?
  let root ← method.body
  d.bodies.stmt? root

/-- The body of a constructor as a tree. -/
def constructorTree? (d : TypeDecl) (index : Nat) : Option (Stmt Mark) := do
  let constructor ← d.constructors[index]?
  d.bodies.stmt? constructor.body

/-- The written parameters of a method. -/
def methodParams (d : TypeDecl) (index : Nat) : List Param :=
  (d.methods[index]?).elim [] MethodDecl.params

/-- The written parameters of a constructor. -/
def constructorParams (d : TypeDecl) (index : Nat) : List Param :=
  (d.constructors[index]?).elim [] ConstructorDecl.params

end TypeDecl

/-- Makes parameters visible, from left to right. -/
def declareParams (ctx : BodyContext) (scope : Scope) : List (Param × Ty) → CheckM Scope
  | [] => return scope
  | (param, type) :: rest => do
    let scope ← ctx.declare scope { name := param.name, type, span := param.range, isParam := true }
    declareParams ctx scope rest

/-- The types of the arguments of `this(...)` or `super(...)`, which may not
use `this`. -/
def inferConstructorArgs (ctx : BodyContext) (scope : Scope) (args : List (Expr Mark)) :
    CheckM (List Ty) :=
  inferExprs { ctx with thisForbidden := true } scope args

/-- An explicit or implied `super(...)`. A type without a superclass accepts
none with arguments. -/
def checkSuperInvocation (ctx : BodyContext) (scope : Scope) (args : List (Expr Mark))
    (range : Span) : CheckM Unit := do
  let argTypes ← inferConstructorArgs ctx scope args
  match (ctx.table.classAt ctx.classId).superclass with
  | none =>
    if args.isEmpty then return ()
    else .rule (ctx.broken (.noMatchingMethod "super" (ctx.table.displayList argTypes)) range)
  | some superclass => do
    let _ ← CheckM.rule (ctx.invokedConstructor superclass argTypes range)

/-- An explicit `this(...)`. -/
def checkThisInvocation (ctx : BodyContext) (scope : Scope) (constructor : ConstructorRef)
    (args : List (Expr Mark)) (range : Span) : CheckM Unit := do
  let argTypes ← inferConstructorArgs ctx scope args
  let target ← CheckM.rule (ctx.invokedConstructor ctx.classId argTypes range)
  CheckM.recordTarget constructor target

/-- The statements of a constructor body. -/
def Stmt.statements : Stmt Mark → List (Stmt Mark)
  | .block _ stmts => stmts
  | stmt => [stmt]

/-- The body of a written constructor: its explicit or implied constructor
invocation, then the other statements. -/
def checkConstructorBody (ctx : BodyContext) (scope : Scope) (constructor : ConstructorRef)
    (body : Stmt Mark) : CheckM Unit := do
  match body.statements with
  | .constructorCall mark call args :: rest => do
    match call with
    | .this => checkThisInvocation ctx scope constructor args mark.range
    | .super => checkSuperInvocation ctx scope args mark.range
    let _ ← checkStmts ctx scope rest
  | stmts => do
    checkSuperInvocation ctx scope [] body.range
    let _ ← checkStmts ctx scope stmts

namespace ClassContext

/-- What the check of a member's body knows about the member. -/
def bodyContext (cls : ClassContext) : BodyOwner → BodyContext
  | .field index =>
    let field := cls.table.fieldAt ⟨cls.classId, index⟩
    { cls with member := field.name, isStatic := field.modifiers.isStatic }
  | .method index =>
    let method := cls.table.methodAt ⟨cls.classId, index⟩
    { cls with
      member := cls.table.methodSignature method
      isStatic := method.isStatic
      expectedReturn := method.returnType
      throws := method.throws }
  | .constructor index =>
    let constructor := cls.table.constructorAt ⟨cls.classId, index⟩
    { cls with
      member := cls.table.signature (cls.table.classAt cls.classId).simpleName constructor.params
      throws := constructor.throws }

/-- All checks in the bodies of a type have the type in common. -/
@[simp] theorem toClassContext_bodyContext (cls : ClassContext) (owner : BodyOwner) :
    (cls.bodyContext owner).toClassContext = cls := by
  cases owner <;> rfl

/-- The initializer of a field. -/
def checkField (cls : ClassContext) (index : Nat) : CheckM Unit :=
  checkInitializer (cls.bodyContext (.field index)) [] (cls.table.fieldAt ⟨cls.classId, index⟩).type
    (cls.decl.initializerTree? index)

/-- The body of a method, which may be missing. -/
def checkMethod (cls : ClassContext) (index : Nat) : CheckM Unit :=
  let ctx := cls.bodyContext (.method index)
  match cls.decl.methodTree? index with
  | none => return ()
  | some body => do
    let params := (cls.table.methodAt ⟨cls.classId, index⟩).params
    let scope ← declareParams ctx [] ((cls.decl.methodParams index).zip params)
    let _ ← checkStmt ctx scope body

/-- A written constructor, or the default one. -/
def checkConstructor (cls : ClassContext) (index : Nat) : CheckM Unit :=
  let ctx := cls.bodyContext (.constructor index)
  let ref : ConstructorRef := ⟨cls.classId, index⟩
  let constructor := cls.table.constructorAt ref
  if constructor.isDefault then checkSuperInvocation ctx [] [] constructor.span
  else
    match cls.decl.constructorTree? index with
    | none => return ()
    | some body => do
      let scope ← declareParams ctx [] ((cls.decl.constructorParams index).zip constructor.params)
      checkConstructorBody ctx scope ref body

/-- The body of a member. -/
def checkBody (cls : ClassContext) : BodyOwner → CheckM Unit
  | .field index => cls.checkField index
  | .method index => cls.checkMethod index
  | .constructor index => cls.checkConstructor index

/-- The members of a type in the order in which their bodies are checked:
fields, methods, constructors. -/
def owners (cls : ClassContext) : List BodyOwner :=
  let d := cls.table.classAt cls.classId
  (List.range d.fields.length).map .field ++ (List.range d.methods.length).map .method ++
    (List.range d.constructors.length).map .constructor

theorem mem_owners {cls : ClassContext} {owner : BodyOwner} :
    owner ∈ cls.owners ↔
      (∃ index < (cls.table.classAt cls.classId).fields.length, owner = .field index) ∨
      (∃ index < (cls.table.classAt cls.classId).methods.length, owner = .method index) ∨
      (∃ index < (cls.table.classAt cls.classId).constructors.length,
        owner = .constructor index) := by
  simp only [owners, List.mem_append, List.mem_map, List.mem_range, or_assoc, eq_comm]

end ClassContext

end JoosStatics
