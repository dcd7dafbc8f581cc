/-
JoosStatics.Types.Relations — subtyping, assignment and casts.

* `TypeTable.supertypes` — a type with all types above it, nearest first.
* `TypeTable.isSubclass` — subtyping between classes and interfaces.
* `TypeTable.isAssignable` — assignment conversion.
* `TypeTable.isCastable` — cast conversion.
* `TypeTable.isCheckedException` — the exceptions a throws clause has to
  name.

The walk over supertypes ends on every table, tables with cyclic
declarations included, so it may be used before the hierarchy is checked.
-/
import JoosStatics.Types.Basic

namespace JoosStatics.TypeTable

/-- The number of direct supertypes named in the whole table. -/
def edgeCount (t : TypeTable) : Nat :=
  (t.classes.toList.flatMap ClassDef.directSupertypes).length

/-- Takes types off the front of a queue, skips those already in `found` and
appends the direct supertypes of the others to the queue. Every type is
expanded once, so the queue holds at most one entry for the start and one for
each direct supertype in the table; `fuel` counts them. -/
def expand (t : TypeTable) : (fuel : Nat) → (queue found : List ClassId) → List ClassId
  | 0, _, found => found
  | _ + 1, [], found => found
  | fuel + 1, id :: queue, found =>
    if found.contains id then t.expand fuel queue found
    else t.expand fuel (queue ++ (t.classAt id).directSupertypes) (found ++ [id])

/-- A type and all types above it, each once, nearest first. -/
def supertypes (t : TypeTable) (id : ClassId) : List ClassId :=
  t.expand (t.edgeCount + 1) [id] []

/-- Reflexive and transitive subtyping between classes and interfaces;
`java.lang.Object` is above everything, interfaces included. -/
def isSubclass (t : TypeTable) (sub sup : ClassId) : Bool :=
  sub == sup || sup == t.wellKnown.object || (t.supertypes sub).contains sup

/-- Assignment conversion: identity, widening of primitive types and of
references. -/
def isAssignable (t : TypeTable) (source target : Ty) : Bool :=
  source == target ||
  match source, target with
  | .primitive p, .primitive q => p.widensTo q
  | .null, .declared _ | .null, .array _ => true
  | .declared a, .declared b => t.isSubclass a b
  | .array _, .declared b =>
    b == t.wellKnown.object || b == t.wellKnown.cloneable || b == t.wellKnown.serializable
  | .array (.primitive p), .array (.primitive q) => p == q
  | .array a, .array b => a.isReference && b.isReference && t.isAssignable a b
  | _, _ => false
termination_by structural source

/-- Cast conversion. Numeric types cast among themselves, `boolean` only to
itself. A reference cast has to be possible in one direction at least;
interfaces are compatible with every class that is not final. -/
def isCastable (t : TypeTable) (source target : Ty) : Bool :=
  match source, target with
  | .void, _ | _, .void => false
  | .primitive p, .primitive q => (p.isNumeric && q.isNumeric) || p == q
  | .primitive _, _ | _, .primitive _ => false
  | .null, target => target.isReference
  | _, .null => false
  | .declared a, .declared b =>
    t.isAssignable (.declared a) (.declared b) || t.isAssignable (.declared b) (.declared a) ||
    match (t.classAt a).isInterface, (t.classAt b).isInterface with
    | true, true => true
    | true, false => !(t.classAt b).isFinal
    | false, true => !(t.classAt a).isFinal
    | false, false => false
  | .array a, .array b =>
    t.isAssignable (.array a) (.array b) || t.isAssignable (.array b) (.array a) ||
    (a.isReference && b.isReference && t.isCastable a b)
  | source, target => t.isAssignable source target || t.isAssignable target source
termination_by structural source

/-- Subtypes of `Throwable` that are neither a `RuntimeException` nor an
`Error`. -/
def isCheckedException (t : TypeTable) (id : ClassId) : Bool :=
  t.isSubclass id t.wellKnown.throwable && !t.isSubclass id t.wellKnown.runtimeException &&
    !t.isSubclass id t.wellKnown.error

/-- Whether an exception is a subtype of some type in a throws clause. -/
def isCovered (t : TypeTable) (exception : ClassId) (throws : List ClassId) : Bool :=
  throws.any (fun declared => t.isSubclass exception declared)

end JoosStatics.TypeTable
