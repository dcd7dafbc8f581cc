/-
JoosStatics.Proofs.FirstViolation — asking for the first violation only.

Type checking and flow can stop at their first violation instead of
collecting them all. The two runs of a stage stay in step until then: they
go through the same states, and where one has found nothing so has the
other. What either reports is then the first violation, the one followed by
further ones and the other alone.

* `checkBodies_cut`, `checkClasses_cut` — the two loops of type checking.
* `flowOfClasses_cut` — the loop of the flow stage.
* `analyze_cut` — the whole analysis, whatever the program.
-/
import JoosStatics.Proofs.StatefulRuns
import JoosStatics.Analysis

namespace JoosStatics

/-! ## §1 Lists cut behind their first item -/

/-- The second list holds the first item of the first list and nothing else. -/
inductive CutsToFirst {α : Type} : List α → List α → Prop where
  | intro (first : α) (others : List α) : CutsToFirst (first :: others) [first]

/-- Two runs of a loop that looks for violations: neither finds one and both end in the
same state, or the second one stops at the first violation that the first one finds. -/
inductive StaysInStep {σ : Type} : List Violation × σ → List Violation × σ → Prop where
  | clean (state : σ) : StaysInStep ([], state) ([], state)
  | stopped {violations reported : List Violation} (h : CutsToFirst violations reported)
      (state state' : σ) : StaysInStep (violations, state) (reported, state')

theorem StaysInStep.outcomes {σ : Type} {collecting stopping : List Violation × σ}
    (h : StaysInStep collecting stopping) :
    (∃ state, collecting = ([], state) ∧ stopping = ([], state)) ∨
    ∃ first others state state', collecting = (first :: others, state) ∧
      stopping = ([first], state') := by
  cases h with
  | clean state => exact .inl ⟨state, rfl, rfl⟩
  | stopped h state state' =>
    obtain ⟨first, others⟩ := h
    exact .inr ⟨first, others, state, state', rfl, rfl⟩

/-! ## §2 Type checking -/

/-- The two checks of the bodies of a type stay in step. -/
theorem ClassContext.checkBodies_cut (cls : ClassContext) (owners : List BodyOwner)
    (state : CheckState) :
    StaysInStep (cls.checkBodies true owners state) (cls.checkBodies false owners state) := by
  induction owners generalizing state with
  | nil => exact .clean state
  | cons owner owners ih =>
    unfold checkBodies
    rcases cls.checkBody owner state with ⟨violation | _, next⟩
    · exact .stopped (.intro violation _) _ _
    · exact ih next

namespace Linked

variable (l : Linked) (hierarchy : Hierarchy)

/-- The two checks of the types of a program stay in step. -/
theorem checkClasses_cut (ids : List ClassId) (facts : ProgramFacts) :
    StaysInStep (l.checkClasses hierarchy true ids facts)
      (l.checkClasses hierarchy false ids facts) := by
  induction ids generalizing facts with
  | nil => exact .clean facts
  | cons id ids ih =>
    unfold checkClasses
    rcases ((l.classContext hierarchy id).checkBodies_cut (l.classContext hierarchy id).owners
      { lookups := facts.lookups, targets := facts.targets }).outcomes with
      ⟨state, hcollecting, hstopping⟩ | ⟨first, others, state, state', hcollecting, hstopping⟩
    · simp only [hcollecting, hstopping]
      exact ih _
    · simp only [hcollecting, hstopping]
      exact .stopped (.intro first _) _ _

/-- Type checking comes to the same facts, or reports the first violation alone. -/
theorem checkBodies_cut :
    Alike CutsToFirst Eq (l.checkBodies hierarchy true) (l.checkBodies hierarchy false) := by
  unfold checkBodies
  rcases (l.checkClasses_cut hierarchy l.symbols.programIds { lookups := l.lookups }).outcomes with
    ⟨facts, hcollecting, hstopping⟩ | ⟨first, others, facts, facts', hcollecting, hstopping⟩
  · rw [hcollecting, hstopping]
    exact .ok rfl
  · rw [hcollecting, hstopping]
    exact .error (.intro first others)

/-! ## §3 Flow -/

/-- The two searches for what is wrong with the flow of types both find nothing, or the
second one ends at the first violation. -/
theorem flowOfClasses_cut (ids : List ClassId) :
    (l.flowOfClasses hierarchy true ids = [] ∧ l.flowOfClasses hierarchy false ids = []) ∨
      CutsToFirst (l.flowOfClasses hierarchy true ids) (l.flowOfClasses hierarchy false ids) := by
  induction ids with
  | nil => exact .inl ⟨rfl, rfl⟩
  | cons id ids ih =>
    unfold flowOfClasses
    cases (l.classContext hierarchy id).flowViolations with
    | nil => exact ih
    | cons first others => exact .inr (.intro first _)

/-- Flow accepts, or reports the first violation alone. A circle of constructors is the
only violation either way. -/
theorem checkFlow_cut (facts : ProgramFacts) :
    Alike CutsToFirst Eq (l.checkFlow hierarchy facts true)
      (l.checkFlow hierarchy facts false) := by
  unfold checkFlow
  cases l.table.checkConstructorCycles facts.targets with
  | error violation => exact .error (.intro violation [])
  | ok _ =>
    rcases l.flowOfClasses_cut hierarchy l.symbols.programIds with ⟨hall, hfirst⟩ | h
    · rw [hall, hfirst]
      exact .ok rfl
    · generalize l.flowOfClasses hierarchy true _ = violations at h ⊢
      generalize l.flowOfClasses hierarchy false _ = reported at h ⊢
      obtain ⟨first, others⟩ := h
      exact .error (.intro first others)

end Linked

/-! ## §4 The analysis -/

/-- The same stage rejects, and the second rejection has the first violation alone. -/
inductive Rejection.CutsToFirst : Rejection → Rejection → Prop where
  | intro (stage : Stage) (first : Violation) (others : List Violation) :
      Rejection.CutsToFirst ⟨stage, first :: others⟩ ⟨stage, [first]⟩

namespace Analysis

variable {α : Type}

/-- A stage that reports a single violation does so either way. -/
theorem single_cut (stage : Stage) (result : Except Violation α) :
    Alike Rejection.CutsToFirst Eq (single stage result) (single stage result) := by
  cases result with
  | error violation => exact .error (.intro stage violation [])
  | ok value => exact .ok rfl

theorem several_cut (stage : Stage) {collecting stopping : Except (List Violation) α}
    (h : Alike JoosStatics.CutsToFirst Eq collecting stopping) :
    Alike Rejection.CutsToFirst Eq (several stage collecting) (several stage stopping) := by
  cases h with
  | error h =>
    obtain ⟨first, others⟩ := h
    exact .error (.intro stage first others)
  | ok h => exact .ok h

/-- The stages come to the same results, or the same one rejects the program. -/
theorem run_cut (program library : List CompilationUnit) :
    Alike Rejection.CutsToFirst Eq (run program library true) (run program library false) := by
  unfold run
  refine .bind (single_cut .symbols _) ?_
  rintro symbols _ rfl
  refine .bind (single_cut .linking _) ?_
  rintro linked _ rfl
  refine .bind (single_cut .hierarchy _) ?_
  rintro hierarchy _ rfl
  refine .bind (several_cut .typeChecking (linked.checkBodies_cut hierarchy)) ?_
  rintro facts _ rfl
  refine .bind (several_cut .flow (linked.checkFlow_cut hierarchy facts)) ?_
  rintro _ _ rfl
  exact .ok rfl

end Analysis

/-- Two verdicts on a program, of which the second one has only the first violation of a
rejection. Results and malformed units are the same. -/
inductive Verdict.CutsToFirst : Verdict → Verdict → Prop where
  | accepted (result : Analysis) : Verdict.CutsToFirst (.accepted result) (.accepted result)
  | malformed (type : QualifiedName) : Verdict.CutsToFirst (.malformed type) (.malformed type)
  | rejected (stage : Stage) (first : Violation) (others : List Violation) :
      Verdict.CutsToFirst (.rejected ⟨stage, first :: others⟩) (.rejected ⟨stage, [first]⟩)

/-- Whether all violations are collected decides nothing but where the list of a rejection
ends, and that list is never empty. -/
theorem analyze_cut (program : Program) (config : Configuration) :
    Verdict.CutsToFirst (analyze program { config with collectAll := true })
      (analyze program { config with collectAll := false }) := by
  unfold analyze
  cases program.malformedUnit? with
  | some unit => exact .malformed unit.typeName
  | none =>
    rcases (Analysis.run_cut program.units config.library).outcomes with
      ⟨_, _, hcollecting, hstopping, stage, first, others⟩ | ⟨result, _, hcollecting, hstopping, rfl⟩
    · simp only [Configuration.library] at hcollecting hstopping ⊢
      rw [hcollecting, hstopping]
      exact .rejected stage first others
    · simp only [Configuration.library] at hcollecting hstopping ⊢
      rw [hcollecting, hstopping]
      exact .accepted result

end JoosStatics
