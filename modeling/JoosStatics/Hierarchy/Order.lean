/-
JoosStatics.Hierarchy.Order — supertypes before subtypes.

`TypeTable.dependencyOrder` walks the supertype graph depth first, with an
explicit stack of tasks. A type is open while the task that leaves it is
on the stack; a supertype that is open closes a cycle. The order lists the
types as they are left, so each one stands behind all its supertypes.
-/
import JoosStatics.Types.Relations
import JoosStatics.Violation

namespace JoosStatics

/-- A step of the walk: to enter a type, or to leave it once all its
supertypes have been left. -/
inductive VisitTask where
  | enter (id : ClassId)
  | leave (id : ClassId)
  deriving DecidableEq, Repr

namespace TypeTable

/-- The violation of a type that is its own supertype, found at `id`. -/
def cycleAt (t : TypeTable) (type id : ClassId) : Violation :=
  { cause := .circularInheritance (t.nameOf type), location := t.locationOf id }

/-- Works off a stack of tasks; `left` are the types left so far, in order.
Each task in the table is entered from the start or from one supertype edge
and left once, which bounds `fuel`. -/
def visit (t : TypeTable) :
    (fuel : Nat) → (tasks : List VisitTask) → (left : List ClassId) →
    Except Violation (List ClassId)
  | 0, _, left => .ok left
  | _ + 1, [], left => .ok left
  | fuel + 1, .leave id :: tasks, left => t.visit fuel tasks (left ++ [id])
  | fuel + 1, .enter id :: tasks, left =>
    if left.contains id then t.visit fuel tasks left
    else if tasks.contains (.leave id) then .error (t.cycleAt id id)
    else
      let opened := .leave id :: tasks
      let sups := (t.classAt id).directSupertypes
      match sups.find? (fun sup => opened.contains (.leave sup)) with
      | some sup => .error (t.cycleAt sup id)
      | none =>
        let pending := sups.filter (fun sup => !left.contains sup)
        t.visit fuel (pending.reverse.map .enter ++ opened) left

/-- All types, each behind its supertypes; fails on a cycle. -/
def dependencyOrder (t : TypeTable) : Except Violation (List ClassId) :=
  t.visit (2 * t.size + t.edgeCount + 1) (t.ids.map .enter) []

end TypeTable

end JoosStatics
