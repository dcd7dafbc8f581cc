/-
JoosStatics.Flow.ConstructorCycles — constructors that invoke each other in
a circle.

A constructor invokes at most one other constructor of its class, so the
targets form a partial function; following it from a constructor either
ends or comes back to a constructor met before.
-/
import JoosStatics.Bodies.Check

namespace JoosStatics

/-- Follows the targets from a constructor. `path` are the constructors met on
the way, latest first, `done` those known to lie on no cycle. Returns the
constructor that is met again, or all those that were met. -/
def followTargets (targets : ConstructorTargets) (done : List ConstructorRef) :
    (fuel : Nat) → (path : List ConstructorRef) → ConstructorRef →
    Except ConstructorRef (List ConstructorRef)
  | 0, path, _ => .ok path
  | fuel + 1, path, current =>
    if done.contains current then .ok path
    else if path.contains current then .error current
    else
      match targets.find? current with
      | some next => followTargets targets done fuel (current :: path) next
      | none => .ok (current :: path)

/-- Follows the targets from each of several constructors and returns the
first constructor that is met again on its own path. -/
def findRevisited (targets : ConstructorTargets) :
    List ConstructorRef → List ConstructorRef → Option ConstructorRef
  | [], _ => none
  | start :: rest, done =>
    match followTargets targets done (targets.size + 2) [] start with
    | .ok path => findRevisited targets rest (path ++ done)
    | .error revisited => some revisited

/-- The violation of a constructor that invokes itself through others. -/
def TypeTable.constructorCycleAt (t : TypeTable) (ref : ConstructorRef) : Violation :=
  let d := t.classAt ref.owner
  let constructor := t.constructorAt ref
  { cause := .circularConstructorInvocation (t.nameOf ref.owner)
    location :=
      ((Location.ofType (t.nameOf ref.owner)).inMember
        (t.signature d.simpleName constructor.params)).atSpan constructor.span }

/-- Checks that no constructor invokes itself through others. -/
def TypeTable.checkConstructorCycles (t : TypeTable) (targets : ConstructorTargets) :
    Except Violation Unit :=
  match findRevisited targets targets.keys [] with
  | some revisited => .error (t.constructorCycleAt revisited)
  | none => .ok ()

end JoosStatics
