/-
JoosStatics.Proofs.Flow.Checked — when the reachability stage succeeds.

The stage succeeds when no constructor leads to itself and reachability finds
nothing wrong with any body (`Linked.checkFlow_eq_ok`). A body passes when its
completion can be computed, and that of a method with a result does not complete.
-/
import JoosStatics.Flow.Check
import JoosStatics.Proofs.Flow.ConstructorCycles

namespace JoosStatics

namespace ClassContext

variable {cls : ClassContext} {index : Nat}

/-- The body of a method passes when all of it can be reached and it returns a result if
it has to. -/
theorem methodFlow_eq_none : cls.methodFlow index = none ↔
    ∀ body, cls.decl.methodTree? index = some body → ∃ c, body.completion = .ok c ∧
      (c.normal = true → (cls.table.methodAt ⟨cls.classId, index⟩).returnType = .void) := by
  unfold methodFlow
  cases cls.decl.methodTree? index with
  | none => simp
  | some body =>
    cases hcompletion : body.completion with
    | error stmt => simp [hcompletion]
    | ok c => simp [hcompletion]

/-- The body of a constructor passes when all of it can be reached. -/
theorem constructorFlow_eq_none : cls.constructorFlow index = none ↔
    ∀ body, cls.decl.constructorTree? index = some body → ∃ c, body.completion = .ok c := by
  unfold constructorFlow
  cases cls.decl.constructorTree? index with
  | none => simp
  | some body =>
    cases hcompletion : body.completion with
    | error stmt => simp [hcompletion]
    | ok c => simp [hcompletion]

theorem flowViolations_eq_nil : cls.flowViolations = [] ↔
    (∀ index, .method index ∈ cls.owners → cls.methodFlow index = none) ∧
    ∀ index, .constructor index ∈ cls.owners → cls.constructorFlow index = none := by
  simp [flowViolations, owners, List.filterMap_eq_nil_iff]

end ClassContext

namespace Linked

variable {l : Linked} {h : Hierarchy}

/-- The stage succeeds in the same cases whether all violations are wanted or only the
first one. -/
theorem checkFlow_eq_ok {facts : ProgramFacts} {collectAll : Bool} :
    l.checkFlow h facts collectAll = .ok () ↔
      (∀ ref, ¬ Relation.TransGen (Invokes facts.targets) ref ref) ∧
      ∀ id ∈ l.symbols.programIds, (l.classContext h id).flowViolations = [] := by
  rw [← findRevisited_eq_none, ← List.flatMap_eq_nil_iff]
  unfold checkFlow TypeTable.checkConstructorCycles
  rw [flowOfClasses_eq]
  cases findRevisited facts.targets facts.targets.keys [] with
  | some revisited => simp
  | none =>
    simp only [true_and]
    cases l.symbols.programIds.flatMap (fun id => (l.classContext h id).flowViolations) <;>
      cases collectAll <;> simp

end Linked

end JoosStatics
