/-
JoosStatics.Types.Overload — selection among overloaded methods.

A candidate is applicable when it has one parameter for each argument and
every argument can be assigned to its parameter. The selected candidate is
the applicable one whose parameters can be assigned to those of every
applicable candidate, when there is exactly one such candidate.
-/
import JoosStatics.Types.Relations

namespace JoosStatics

/-- The outcome of a selection. -/
inductive Selection (α : Type) where
  | found (choice : α)
  /-- No candidate is applicable. -/
  | notFound
  /-- Several candidates are applicable and none of them is the most
  specific one. -/
  | ambiguous (candidates : List α)
  deriving DecidableEq, Repr

namespace TypeTable

/-- Whether types can be assigned to others position by position; further
types of the longer list do not count. -/
def areAssignable (t : TypeTable) (sources targets : List Ty) : Bool :=
  (sources.zip targets).all (fun (source, target) => t.isAssignable source target)

/-- Whether parameters accept arguments. -/
def isApplicable (t : TypeTable) (params args : List Ty) : Bool :=
  params.length == args.length && t.areAssignable args params

/-- The most specific applicable candidate for the given argument types. -/
def selectOverload {α : Type} (t : TypeTable) (candidates : List (α × List Ty))
    (args : List Ty) : Selection α :=
  let applicable := candidates.filter (fun (_, params) => t.isApplicable params args)
  if applicable.isEmpty then .notFound
  else
    let mostSpecific := applicable.filter (fun (_, params) =>
      applicable.all (fun (_, others) => t.areAssignable params others))
    match mostSpecific with
    | [(choice, _)] => .found choice
    | _ => .ambiguous (applicable.map Prod.fst)

end TypeTable

end JoosStatics
