/-
JoosStatics.Bodies.Context — what a body check knows, records and reports.

* `Scope` — the variables visible at a point, innermost first.
* `ClassFacts` — the results for one type: its variables, the type of each
  expression and what each name, access, call and creation refers to.
* `BodyContext` — what stays fixed while a body is checked.
* `CheckM` — computations that look names up and record facts. What has
  been recorded outlives a failure.

A `LocalId` is a natural number without a bound. It is assumed that the bodies of one
type declare fewer than 2^32 variables, so that 32 bits are enough for one.
-/
import JoosStatics.Hierarchy.Check
import JoosStatics.Linking.Packages
import JoosStatics.Syntax.Tree

namespace JoosStatics

/-! ## Variables -/

/-- The position of a variable among the variables of its type. -/
abbrev LocalId := Nat

/-- A parameter or local variable. -/
structure LocalVar where
  name : Name
  type : Ty
  span : Span
  isParam : Bool
  deriving DecidableEq, Repr

/-- The variables visible at a point of a body, innermost first. -/
abbrev Scope := List (LocalId × LocalVar)

/-- The innermost visible variable with a name. -/
def Scope.find? (scope : Scope) (name : Name) : Option (LocalId × LocalVar) :=
  List.find? (fun entry => entry.2.name == name) scope

/-! ## Facts -/

/-- What an expression refers to. -/
inductive Resolution where
  | localVar (id : LocalId)
  | field (ref : FieldRef)
  /-- The length of an array. -/
  | arrayLength
  /-- A type that qualifies a static member. -/
  | type (id : ClassId)
  | method (ref : MethodRef)
  | constructor (ref : ConstructorRef)
  deriving DecidableEq, Repr

/-- The facts recorded for the bodies of one type. -/
structure ClassFacts where
  locals : Array LocalVar := #[]
  types : OrderedMap ExprId Ty := ∅
  resolutions : OrderedMap ExprId Resolution := ∅

instance : Inhabited ClassFacts := ⟨{}⟩

/-- The constructor that each `this(...)` invocation addresses, by the
constructor that contains it. -/
abbrev ConstructorTargets := OrderedMap ConstructorRef ConstructorRef

/-- What a body check reads and changes. -/
structure CheckState where
  lookups : LookupState := {}
  facts : ClassFacts := {}
  targets : ConstructorTargets := ∅

instance : Inhabited CheckState := ⟨{}⟩

/-- Computations of a body check. -/
abbrev CheckM := ExceptT Violation (StateM CheckState)

namespace CheckM

/-- Runs a lookup on the lookups made so far. -/
def lookup {α : Type} (action : LookupM α) : CheckM α := fun state =>
  let (result, lookups) := action state.lookups
  (result, { state with lookups })

/-- A rule that needs no lookup. -/
def rule {α : Type} (result : Except Violation α) : CheckM α := fun state => (result, state)

/-- Records the type of an expression, and returns it. -/
def recordType (mark : Mark) (type : Ty) : CheckM Ty := fun state =>
  (.ok type,
    { state with facts := { state.facts with types := state.facts.types.insert mark.id type } })

/-- Records what an expression refers to. -/
def recordResolution (mark : Mark) (resolution : Resolution) : CheckM Unit := fun state =>
  (.ok (), { state with
    facts := { state.facts with
      resolutions := state.facts.resolutions.insert mark.id resolution } })

/-- Records a variable, and returns its position. -/
def recordLocal (var : LocalVar) : CheckM LocalId := fun state =>
  (.ok state.facts.locals.size,
    { state with facts := { state.facts with locals := state.facts.locals.push var } })

/-- Records the constructor that a `this(...)` invocation addresses. -/
def recordTarget (constructor target : ConstructorRef) : CheckM Unit := fun state =>
  (.ok (), { state with targets := state.targets.insert constructor target })

end CheckM

/-! ## Context -/

/-- What the checks of all bodies of a type have in common. -/
structure ClassContext where
  symbols : SymbolTable
  table : TypeTable
  hierarchy : Hierarchy
  classId : ClassId
  decl : TypeDecl

/-- What stays fixed while a body is checked. `member` names the member in
reports; `thisForbidden` is set inside the arguments of `this(...)` and
`super(...)`. -/
structure BodyContext extends ClassContext where
  member : String
  isStatic : Bool := false
  thisForbidden : Bool := false
  expectedReturn : Ty := .void
  throws : List ClassId := []

namespace BodyContext

/-- The place of a construct in the body. -/
def locate (ctx : BodyContext) (range : Span) : Location :=
  ((Location.ofType (ctx.table.nameOf ctx.classId)).inMember ctx.member).atSpan range

/-- A broken rule at a construct of the body. -/
def broken {α : Type} (ctx : BodyContext) (cause : Cause) (range : Span) : Except Violation α :=
  .error { cause, location := ctx.locate range }

/-- The type that a written type denotes. -/
def resolveType (ctx : BodyContext) (type : TypeSyntax) : CheckM Ty :=
  .lookup (ctx.symbols.resolveType ctx.classId type)

/-- The value `this` is needed, written or implied by an instance member. -/
def requireThis (ctx : BodyContext) (range : Span) : Except Violation Unit :=
  if ctx.isStatic || ctx.thisForbidden then ctx.broken .illegalThisReference range else .ok ()

/-- A value of one type is used where another is expected. -/
def requireAssignable (ctx : BodyContext) (found expected : Ty) (range : Span) :
    Except Violation Unit :=
  if ctx.table.isAssignable found expected then .ok ()
  else
    ctx.broken (.typeMismatch (ctx.table.display expected) (ctx.table.display found)) range

/-- A value is used where a number is expected. -/
def requireNumeric (ctx : BodyContext) (found : Ty) (range : Span) : Except Violation Unit :=
  if found.isNumeric then .ok ()
  else ctx.broken (.typeMismatch "int" (ctx.table.display found)) range

/-- Every checked exception has to be covered by the throws clause of the
member. -/
def checkThrows (ctx : BodyContext) (thrown : List ClassId) (range : Span) :
    Except Violation Unit :=
  match thrown.find? (fun e =>
    ctx.table.isCheckedException e && !ctx.table.isCovered e ctx.throws) with
  | some exception =>
    ctx.broken (.undeclaredCheckedException (ctx.table.nameOf exception)) range
  | none => .ok ()

/-- Makes a variable visible, unless a visible one has its name. -/
def declare (ctx : BodyContext) (scope : Scope) (var : LocalVar) : CheckM Scope :=
  match scope.find? var.name with
  | some _ => .rule (ctx.broken (.duplicateVariable var.name) var.span)
  | none => do return (← CheckM.recordLocal var, var) :: scope

end BodyContext

end JoosStatics
