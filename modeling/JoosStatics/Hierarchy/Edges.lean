/-
JoosStatics.Hierarchy.Edges — rules on the direct supertypes of one type.

A class extends a class that is not final; classes implement and
interfaces extend interfaces, each of them at most once.
-/
import JoosStatics.Types.Basic
import JoosStatics.Violation

namespace JoosStatics.TypeTable

/-- Checks the superclass of a type. -/
def checkSuperclass (t : TypeTable) (id : ClassId) : Except Violation Unit :=
  match (t.classAt id).superclass with
  | none => .ok ()
  | some sup =>
    if (t.classAt sup).isInterface then
      .error { cause := .extendsNonClass (t.nameOf sup), location := t.locationOf id }
    else if (t.classAt sup).isFinal then
      .error { cause := .extendsFinalClass (t.nameOf sup), location := t.locationOf id }
    else .ok ()

/-- Checks superinterfaces in order; `earlier` are those already checked. -/
def checkInterfaces (t : TypeTable) (id : ClassId) (earlier : List ClassId) :
    List ClassId → Except Violation Unit
  | [] => .ok ()
  | interface :: rest =>
    if !(t.classAt interface).isInterface then
      .error {
        cause := .implementsNonInterface (t.nameOf interface), location := t.locationOf id }
    else if earlier.contains interface then
      .error { cause := .repeatedInterface (t.nameOf interface), location := t.locationOf id }
    else t.checkInterfaces id (interface :: earlier) rest

/-- Checks the direct supertypes of a type, the superclass first. -/
def checkSupertypeEdges (t : TypeTable) (id : ClassId) : Except Violation Unit := do
  t.checkSuperclass id
  t.checkInterfaces id [] (t.classAt id).interfaces

end JoosStatics.TypeTable
