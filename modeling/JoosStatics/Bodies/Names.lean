/-
JoosStatics.Bodies.Names — the meaning of names in expressions.

A qualified name is classified from left to right. Its first identifier is
a variable, else a field of the enclosing type, else a type, else a
package; each further identifier is a field of the value or type before
it, or a type or subpackage of the package before it.
-/
import JoosStatics.Bodies.Context

namespace JoosStatics

/-- The kinds of variables. -/
inductive ValueKind where
  | localVar (id : LocalId)
  | field (ref : FieldRef)
  | arrayLength
  deriving DecidableEq, Repr

/-- The resolution of an expression that denotes a variable. -/
def ValueKind.resolution : ValueKind → Resolution
  | .localVar id => .localVar id
  | .field ref => .field ref
  | .arrayLength => .arrayLength

/-- What a name denotes. -/
inductive NameMeaning where
  | value (type : Ty) (kind : ValueKind)
  | type (id : ClassId)
  | package (name : PackageName)
  deriving DecidableEq, Repr

/-- What stands to the left of a member selection. -/
inductive Receiver where
  | type (id : ClassId)
  | value (type : Ty)
  deriving DecidableEq, Repr

namespace BodyContext

/-- The field of a type with a name. -/
def fieldOf (ctx : BodyContext) (id : ClassId) (name : Name) (range : Span) :
    Except Violation FieldRef :=
  match (ctx.hierarchy.members id).field? name with
  | some ref => .ok ref
  | none => ctx.broken (.unresolvedName (ctx.table.nameOf id ++ "." ++ name)) range

/-- A field selected through a value. -/
def instanceField (ctx : BodyContext) (type : Ty) (name : Name) (range : Span) :
    Except Violation (Ty × ValueKind) :=
  let unknown : Except Violation (Ty × ValueKind) :=
    ctx.broken (.unresolvedName (ctx.table.display type ++ "." ++ name)) range
  match type with
  | .array _ => if name = "length" then .ok (.int, .arrayLength) else unknown
  | .declared id => do
    let ref ← ctx.fieldOf id name range
    let field := ctx.table.fieldAt ref
    if field.modifiers.isStatic then ctx.broken (.illegalStaticAccess field.name) range
    else return (field.type, .field ref)
  | _ => unknown

/-- A field selected through a type. -/
def staticField (ctx : BodyContext) (id : ClassId) (name : Name) (range : Span) :
    Except Violation (Ty × ValueKind) := do
  let ref ← ctx.fieldOf id name range
  let field := ctx.table.fieldAt ref
  if field.modifiers.isStatic then return (field.type, .field ref)
  else ctx.broken (.illegalStaticAccess field.name) range

/-- A field selected through what stands to the left of the dot. -/
def selectField (ctx : BodyContext) (receiver : Receiver) (name : Name) (range : Span) :
    Except Violation (Ty × ValueKind) :=
  match receiver with
  | .type id => ctx.staticField id name range
  | .value type => ctx.instanceField type name range

/-- What a single identifier denotes. -/
def classifySimple (ctx : BodyContext) (scope : Scope) (name : Name) (range : Span) :
    CheckM NameMeaning :=
  match scope.find? name with
  | some (id, var) => return .value var.type (.localVar id)
  | none =>
    match (ctx.hierarchy.members ctx.classId).field? name with
    | some ref => do
      let field := ctx.table.fieldAt ref
      if !field.modifiers.isStatic then .rule (ctx.requireThis range)
      return .value field.type (.field ref)
    | none => do
      match ← CheckM.lookup (ctx.symbols.lookupSimple ctx.classId name range) with
      | some id => return .type id
      | none => return .package (.single name)

/-- What a name denotes once it is extended by one identifier. -/
def extend (ctx : BodyContext) (range : Span) (meaning : NameMeaning) (name : Name) :
    Except Violation NameMeaning :=
  match meaning with
  | .value type _ => (ctx.instanceField type name range).map (fun (type, kind) => .value type kind)
  | .type id => (ctx.staticField id name range).map (fun (type, kind) => .value type kind)
  | .package package =>
    let name := package.child name
    match ctx.symbols.lookup name with
    | some id => .ok (.type id)
    | none => .ok (.package name)

/-- What a name denotes once it is extended by further identifiers. -/
def extendAll (ctx : BodyContext) (range : Span) (meaning : NameMeaning) :
    List Name → Except Violation NameMeaning
  | [] => .ok meaning
  | name :: rest => do ctx.extendAll range (← ctx.extend range meaning name) rest

/-- What a qualified name denotes. -/
def classify (ctx : BodyContext) (scope : Scope) (path : QualifiedName) (range : Span) :
    CheckM NameMeaning :=
  match path.segments with
  | [] => .rule (ctx.broken (.unresolvedName "") range)
  | first :: rest => do
    let meaning ← ctx.classifySimple scope first range
    .rule (ctx.extendAll range meaning rest)

/-- A name in the place of a value has to denote a variable. -/
def inferName (ctx : BodyContext) (scope : Scope) (mark : Mark) (path : QualifiedName) :
    CheckM (Ty × ValueKind) := do
  match ← ctx.classify scope path mark.range with
  | .value type kind => do
    CheckM.recordResolution mark kind.resolution
    return (type, kind)
  | _ => .rule (ctx.broken (.unresolvedName path.toDotted) mark.range)

/-- An assigned name has to denote a variable; a type is no variable. -/
def inferAssignedName (ctx : BodyContext) (scope : Scope) (mark : Mark) (path : QualifiedName) :
    CheckM (Ty × ValueKind) := do
  match ← ctx.classify scope path mark.range with
  | .value type kind => do
    CheckM.recordResolution mark kind.resolution
    return (type, kind)
  | .type _ => .rule (ctx.broken .notLvalue mark.range)
  | .package _ => .rule (ctx.broken (.unresolvedName path.toDotted) mark.range)

/-- A name to the left of a selection may denote a variable or a type. -/
def inferReceiverName (ctx : BodyContext) (scope : Scope) (mark : Mark) (path : QualifiedName) :
    CheckM Receiver := do
  match ← ctx.classify scope path mark.range with
  | .type id => do
    CheckM.recordResolution mark (.type id)
    return .type id
  | .value type kind => do
    CheckM.recordResolution mark kind.resolution
    return .value (← CheckM.recordType mark type)
  | .package package => .rule (ctx.broken (.unresolvedName package.toDotted) mark.range)

/-- A field access, given what stands to the left of the dot. -/
def inferAccess (ctx : BodyContext) (mark : Mark) (receiver : Receiver) (name : Name) :
    CheckM (Ty × ValueKind) := do
  let (type, kind) ← CheckM.rule (ctx.selectField receiver name mark.range)
  CheckM.recordResolution mark kind.resolution
  return (type, kind)

/-- A variable that is assigned may be neither a final field nor the length
of an array. -/
def requireWritable (ctx : BodyContext) (kind : ValueKind) (range : Span) :
    Except Violation Unit :=
  match kind with
  | .arrayLength => ctx.broken (.assignToFinalField "length") range
  | .field ref =>
    let field := ctx.table.fieldAt ref
    if field.modifiers.isFinal then ctx.broken (.assignToFinalField field.name) range else .ok ()
  | .localVar _ => .ok ()

end BodyContext

end JoosStatics
