/-
JoosStatics.Hierarchy.Duplicates — members that are declared twice.

No two fields of a type share a name; no two methods and no two
constructors share a signature.
-/
import JoosStatics.Types.Basic
import JoosStatics.Violation

namespace JoosStatics

/-- The first item whose key an earlier item has. -/
def firstRepeated? {α κ : Type} [DecidableEq κ] (key : α → κ) (earlier : List κ) :
    List α → Option α
  | [] => none
  | item :: rest =>
    if key item ∈ earlier then some item else firstRepeated? key (key item :: earlier) rest

namespace TypeTable

/-- The violation of a repeated member at its place. -/
def repeatedAt (t : TypeTable) (id : ClassId) (cause : String → Cause) (member : String)
    (span : Span) : Violation :=
  { cause := cause member
    location := ((Location.ofType (t.nameOf id)).inMember member).atSpan span }

/-- The first repeated member of a type: fields, then methods, then
constructors. -/
def repeatedMember? (t : TypeTable) (id : ClassId) : Option Violation :=
  let d := t.classAt id
  let field := (firstRepeated? FieldDef.name [] d.fields).map (fun f =>
    t.repeatedAt id .duplicateField f.name f.span)
  let method := (firstRepeated? (fun m : MethodDef => (m.name, m.params)) [] d.methods).map
    (fun m => t.repeatedAt id .duplicateMember (t.methodSignature m) m.span)
  let constructor := (firstRepeated? ConstructorDef.params [] d.constructors).map (fun c =>
    t.repeatedAt id .duplicateMember (t.signature d.simpleName c.params) c.span)
  field.or (method.or constructor)

/-- Checks that a type declares no member twice. -/
def checkDuplicates (t : TypeTable) (id : ClassId) : Except Violation Unit :=
  match t.repeatedMember? id with
  | some violation => .error violation
  | none => .ok ()

end TypeTable

end JoosStatics
