/-
JoosStatics.Flow.Check — the reachability stage.

Circular constructor invocations are ruled out first. Then, type by type,
every statement of a body has to be reachable and a method with a result
may not complete without returning one.
-/
import JoosStatics.Flow.Completion
import JoosStatics.Flow.ConstructorCycles

namespace JoosStatics

namespace ClassContext

/-- The violation of a statement that cannot be reached, in a member. -/
def unreachableAt (cls : ClassContext) (member : String) (stmt : Stmt Mark) : Violation :=
  { cause := .unreachableStatement
    location := ((Location.ofType (cls.table.nameOf cls.classId)).inMember member).atSpan
      stmt.range }

/-- What reachability finds wrong with the body of a method. -/
def methodFlow (cls : ClassContext) (index : Nat) : Option Violation := do
  let method := cls.table.methodAt ⟨cls.classId, index⟩
  let signature := cls.table.methodSignature method
  let body ← cls.decl.methodTree? index
  match body.completion with
  | .error stmt => some (cls.unreachableAt signature stmt)
  | .ok completion =>
    if completion.normal && method.returnType != .void then
      some {
        cause := .missingReturn signature
        location := (Location.ofType (cls.table.nameOf cls.classId)).atSpan method.span }
    else none

/-- What reachability finds wrong with the body of a constructor. -/
def constructorFlow (cls : ClassContext) (index : Nat) : Option Violation := do
  let constructor := cls.table.constructorAt ⟨cls.classId, index⟩
  let d := cls.table.classAt cls.classId
  let body ← cls.decl.constructorTree? index
  match body.completion with
  | .error stmt =>
    some (cls.unreachableAt (cls.table.signature d.simpleName constructor.params) stmt)
  | .ok _ => none

/-- What reachability finds wrong with the bodies of a type: methods, then
constructors. -/
def flowViolations (cls : ClassContext) : List Violation :=
  let d := cls.table.classAt cls.classId
  (List.range d.methods.length).filterMap cls.methodFlow ++
    (List.range d.constructors.length).filterMap cls.constructorFlow

end ClassContext

namespace Linked

/-- What reachability finds wrong with types in order, all of it or only the
first violation. -/
def flowOfClasses (l : Linked) (hierarchy : Hierarchy) (collectAll : Bool) :
    List ClassId → List Violation
  | [] => []
  | id :: rest =>
    match (l.classContext hierarchy id).flowViolations with
    | [] => l.flowOfClasses hierarchy collectAll rest
    | first :: others =>
      if collectAll then first :: others ++ l.flowOfClasses hierarchy collectAll rest
      else [first]

/-- The search goes through what is wrong with each type, and may end at the
first violation. -/
theorem flowOfClasses_eq (l : Linked) (hierarchy : Hierarchy) (collectAll : Bool)
    (ids : List ClassId) :
    l.flowOfClasses hierarchy collectAll ids =
      if collectAll then
        ids.flatMap (fun id => (l.classContext hierarchy id).flowViolations)
      else (ids.flatMap (fun id => (l.classContext hierarchy id).flowViolations)).take 1 := by
  induction ids with
  | nil => simp [flowOfClasses]
  | cons id rest ih =>
    unfold flowOfClasses
    rw [List.flatMap_cons]
    cases (l.classContext hierarchy id).flowViolations with
    | nil => simpa using ih
    | cons first others =>
      cases collectAll with
      | true => simpa using ih
      | false => simp

/-- Checks constructor invocations and the flow of every body. Returns the
violations found, all of them or only the first. -/
def checkFlow (l : Linked) (hierarchy : Hierarchy) (facts : ProgramFacts) (collectAll : Bool) :
    Except (List Violation) Unit :=
  match l.table.checkConstructorCycles facts.targets with
  | .error violation => .error [violation]
  | .ok () =>
    match l.flowOfClasses hierarchy collectAll l.symbols.programIds with
    | [] => .ok ()
    | violations => .error violations

end Linked

end JoosStatics
