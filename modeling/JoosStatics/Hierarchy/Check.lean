/-
JoosStatics.Hierarchy.Check — the hierarchy stage.

The direct supertypes of all types are checked first, then cycles are
ruled out, then members declared twice; last the members of every type are
computed, supertypes first.
-/
import JoosStatics.Hierarchy.Edges
import JoosStatics.Hierarchy.Order
import JoosStatics.Hierarchy.Duplicates
import JoosStatics.Hierarchy.Members

namespace JoosStatics

/-- The members of every class and interface. -/
structure Hierarchy where
  sets : OrderedMap ClassId MemberSet := ∅

namespace Hierarchy

instance : Inhabited Hierarchy := ⟨{}⟩

/-- The members of a type. -/
def members (h : Hierarchy) (id : ClassId) : MemberSet := (h.sets.find? id).getD {}

/-- The methods of a type with a name, one for each signature. -/
def methodsNamed (h : Hierarchy) (id : ClassId) (name : Name) : List MethodRef :=
  (h.members id).methodsNamed name

end Hierarchy

namespace TypeTable

/-- Adds the members of types in the given order. -/
def computeMembers (t : TypeTable) :
    List ClassId → OrderedMap ClassId MemberSet → Except Violation (OrderedMap ClassId MemberSet)
  | [], sets => .ok sets
  | id :: rest, sets => do
    let supers := (t.classAt id).directSupertypes.filterMap sets.find?
    let set ← t.memberSet id supers
    t.computeMembers rest (sets.insert id set)

/-- Checks the hierarchy of a table and computes the members of its types. -/
def checkHierarchy (t : TypeTable) : Except Violation Hierarchy := do
  t.ids.forM t.checkSupertypeEdges
  let order ← t.dependencyOrder
  t.ids.forM t.checkDuplicates
  return { sets := ← t.computeMembers order ∅ }

end TypeTable

end JoosStatics
