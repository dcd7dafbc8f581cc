/-
JoosStatics.Proofs.Flow.Execution — the executions of a statement.

Values are left out: an expression always evaluates, a branch may go either
way, and so may the condition of a loop unless it is constant. What is left
is which statements come to be executed and how the execution ends.

* `Ending` — how control leaves a statement.
* `Task` — what there is to execute: a statement, a sequence or a loop.
* `Executes` — the executions of a task, each with the statements that it
  reaches, in order. An execution may be watched up to any point, so that the
  statements inside an endless loop are reached too.
* `Task.Reaches`, `Task.MayEnd` — what some execution of a task does.

An execution reaches nothing but parts of its task (`Executes.subset_parts`).
Form by form, `Task.mayEnd_…` and `Task.reaches_…` trace the executions of a
statement back to those of the statements inside it.
-/
import JoosStatics.Flow.Completion
import JoosStatics.Proofs.Syntax.Trees

namespace JoosStatics

/-- How control leaves a statement. -/
inductive Ending where
  | normal
  /-- By a `break` that a loop around the statement catches. -/
  | broken
  | returned (withValue : Bool)
  | thrown
  /-- Control is still inside: the execution is watched up to this point. -/
  | running
  deriving DecidableEq, Repr

/-- How control leaves a loop whose body ends early: the loop catches breaks. -/
def Ending.ofLoop : Ending → Ending
  | .broken => .normal
  | ending => ending

/-- How control leaves a statement that has no statements inside it. -/
def Stmt.simpleEnding? {α : Type} : Stmt α → Option Ending
  | .localVar .. | .expression .. | .empty _ | .constructorCall .. => some .normal
  | .returnValue _ value => some (.returned value.isSome)
  | .throwValue .. => some .thrown
  | .breakLoop _ => some .broken
  | .block .. | .branch .. | .whileLoop .. | .forLoop .. => none

/-- A condition may have a value unless it is constant and has the other one. -/
def MayBe (condition : Option Constant) (value : Bool) : Prop :=
  condition ≠ some (.bool !value)

instance (condition : Option Constant) (value : Bool) : Decidable (MayBe condition value) :=
  inferInstanceAs (Decidable (condition ≠ some (.bool !value)))

/-- What there is to execute. -/
inductive Task where
  | one (s : Stmt Mark)
  /-- Statements one after the other. -/
  | sequence (ss : List (Stmt Mark))
  /-- A loop, from a test of its condition on. -/
  | loop (condition : Option Constant) (body : Stmt Mark)

/-- An execution of a task reaches the given statements, in this order, and
ends in this way. -/
inductive Executes : Task → List (Stmt Mark) → Ending → Prop
  | start (s : Stmt Mark) : Executes (.one s) [s] .running
  | simple {s : Stmt Mark} {ending : Ending} (h : s.simpleEnding? = some ending) :
      Executes (.one s) [s] ending
  | block {note : Mark} {stmts reached : List (Stmt Mark)} {ending : Ending}
      (h : Executes (.sequence stmts) reached ending) :
      Executes (.one (.block note stmts)) (.block note stmts :: reached) ending
  | thenBranch {note : Mark} {condition : Expr Mark} {thenBranch : Stmt Mark}
      {elseBranch : Option (Stmt Mark)} {reached : List (Stmt Mark)} {ending : Ending}
      (h : Executes (.one thenBranch) reached ending) :
      Executes (.one (.branch note condition thenBranch elseBranch))
        (.branch note condition thenBranch elseBranch :: reached) ending
  /-- A missing branch completes. -/
  | elseBranch {note : Mark} {condition : Expr Mark} {thenBranch : Stmt Mark}
      {elseBranch : Option (Stmt Mark)} {reached : List (Stmt Mark)} {ending : Ending}
      (h : Executes (.sequence elseBranch.toList) reached ending) :
      Executes (.one (.branch note condition thenBranch elseBranch))
        (.branch note condition thenBranch elseBranch :: reached) ending
  | whileLoop {note : Mark} {condition : Expr Mark} {body : Stmt Mark}
      {reached : List (Stmt Mark)} {ending : Ending}
      (h : Executes (.loop condition.fold? body) reached ending) :
      Executes (.one (.whileLoop note condition body))
        (.whileLoop note condition body :: reached) ending
  | forInit {note : Mark} {init : Option (Stmt Mark)} {condition update : Option (Expr Mark)}
      {body : Stmt Mark} {reached : List (Stmt Mark)} {ending : Ending}
      (hinit : Executes (.sequence init.toList) reached ending) (hending : ending ≠ .normal) :
      Executes (.one (.forLoop note init condition update body))
        (.forLoop note init condition update body :: reached) ending
  /-- A missing condition is true. -/
  | forLoop {note : Mark} {init : Option (Stmt Mark)} {condition update : Option (Expr Mark)}
      {body : Stmt Mark} {before reached : List (Stmt Mark)} {ending : Ending}
      (hinit : Executes (.sequence init.toList) before .normal)
      (h : Executes (.loop (loopCondition condition) body) reached ending) :
      Executes (.one (.forLoop note init condition update body))
        (.forLoop note init condition update body :: (before ++ reached)) ending
  | finished : Executes (.sequence []) [] .normal
  | next {s : Stmt Mark} {ss before reached : List (Stmt Mark)} {ending : Ending}
      (hs : Executes (.one s) before .normal) (h : Executes (.sequence ss) reached ending) :
      Executes (.sequence (s :: ss)) (before ++ reached) ending
  | last {s : Stmt Mark} {ss reached : List (Stmt Mark)} {ending : Ending}
      (hs : Executes (.one s) reached ending) (hending : ending ≠ .normal) :
      Executes (.sequence (s :: ss)) reached ending
  | test (condition : Option Constant) (body : Stmt Mark) :
      Executes (.loop condition body) [] .running
  | exit {condition : Option Constant} {body : Stmt Mark} (hfalse : MayBe condition false) :
      Executes (.loop condition body) [] .normal
  | again {condition : Option Constant} {body : Stmt Mark} {before reached : List (Stmt Mark)}
      {ending : Ending} (htrue : MayBe condition true)
      (hbody : Executes (.one body) before .normal)
      (h : Executes (.loop condition body) reached ending) :
      Executes (.loop condition body) (before ++ reached) ending
  | leave {condition : Option Constant} {body : Stmt Mark} {reached : List (Stmt Mark)}
      {ending : Ending} (htrue : MayBe condition true)
      (hbody : Executes (.one body) reached ending) (hending : ending ≠ .normal) :
      Executes (.loop condition body) reached ending.ofLoop

/-- Some execution of a task reaches a statement. -/
def Task.Reaches (task : Task) (part : Stmt Mark) : Prop :=
  ∃ reached ending, Executes task reached ending ∧ part ∈ reached

/-- Some execution of a task ends in a way. -/
def Task.MayEnd (task : Task) (ending : Ending) : Prop :=
  ∃ reached, Executes task reached ending

/-! ## Only parts are reached -/

/-- The statements of a task with everything inside them. -/
def Task.parts : Task → List (Stmt Mark)
  | .one s => s.parts
  | .sequence ss => ss.flatMap Stmt.parts
  | .loop _ body => body.parts

/-- An execution reaches nothing but parts of its task. -/
theorem Executes.subset_parts {task : Task} {reached : List (Stmt Mark)} {ending : Ending}
    (h : Executes task reached ending) : reached ⊆ task.parts := by
  induction h with
  | start s => simp [Task.parts, Stmt.parts_eq s]
  | @simple s => simp [Task.parts, Stmt.parts_eq s]
  | block _ ih =>
    rw [Task.parts, Stmt.parts_eq]
    exact List.cons_subset_cons _ ih
  | thenBranch _ ih =>
    rw [Task.parts, Stmt.parts_eq]
    exact List.cons_subset_cons _ (List.subset_append_of_subset_left _ ih)
  | elseBranch _ ih =>
    rw [Task.parts, Stmt.parts_eq]
    exact List.cons_subset_cons _ (List.subset_append_of_subset_right _ ih)
  | whileLoop _ ih =>
    rw [Task.parts, Stmt.parts_eq]
    exact List.cons_subset_cons _ (List.subset_append_of_subset_left _ ih)
  | forInit _ _ ih =>
    rw [Task.parts, Stmt.parts_eq, Stmt.stmtChildren, List.flatMap_append]
    exact List.cons_subset_cons _ (List.subset_append_of_subset_left _ ih)
  | forLoop _ _ ihinit ih =>
    rw [Task.parts, Stmt.parts_eq, Stmt.stmtChildren, List.flatMap_append]
    refine List.cons_subset_cons _ (List.append_subset.mpr ⟨?_, ?_⟩)
    · exact List.subset_append_of_subset_left _ ihinit
    · exact List.subset_append_of_subset_right _ (List.subset_append_of_subset_left _ ih)
  | finished => exact List.nil_subset _
  | next _ _ ihs ih =>
    exact List.append_subset.mpr ⟨List.subset_append_of_subset_left _ ihs,
      List.subset_append_of_subset_right _ ih⟩
  | last _ _ ihs => exact List.subset_append_of_subset_left _ ihs
  | test => exact List.nil_subset _
  | exit => exact List.nil_subset _
  | again _ _ _ ihbody ih => exact List.append_subset.mpr ⟨ihbody, ih⟩
  | leave _ _ _ ih => exact ih

/-! ## How each task may end

An execution that is only watched up to some point is left out: every
statement has one. -/

namespace Task

variable {s : Stmt Mark} {ending : Ending}

theorem mayEnd_simple {ended : Ending} (h : s.simpleEnding? = some ended)
    (hending : ending ≠ .running) : (one s).MayEnd ending ↔ ending = ended := by
  constructor
  · rintro ⟨_, hrun⟩
    cases hrun with
    | start => exact absurd rfl hending
    | simple hs => exact Option.some.inj (hs.symm.trans h)
    | _ => cases h
  · rintro rfl
    exact ⟨_, .simple h⟩

theorem mayEnd_block {note : Mark} {stmts : List (Stmt Mark)} (hending : ending ≠ .running) :
    (one (.block note stmts)).MayEnd ending ↔ (sequence stmts).MayEnd ending := by
  constructor
  · rintro ⟨_, hrun⟩
    cases hrun with
    | start => exact absurd rfl hending
    | simple hs => cases hs
    | block h => exact ⟨_, h⟩
  · rintro ⟨_, h⟩
    exact ⟨_, .block h⟩

theorem mayEnd_branch {note : Mark} {condition : Expr Mark} {thenBranch : Stmt Mark}
    {elseBranch : Option (Stmt Mark)} (hending : ending ≠ .running) :
    (one (.branch note condition thenBranch elseBranch)).MayEnd ending ↔
      (one thenBranch).MayEnd ending ∨ (sequence elseBranch.toList).MayEnd ending := by
  constructor
  · rintro ⟨_, hrun⟩
    cases hrun with
    | start => exact absurd rfl hending
    | simple hs => cases hs
    | thenBranch h => exact Or.inl ⟨_, h⟩
    | elseBranch h => exact Or.inr ⟨_, h⟩
  · rintro (⟨_, h⟩ | ⟨_, h⟩)
    · exact ⟨_, .thenBranch h⟩
    · exact ⟨_, .elseBranch h⟩

theorem mayEnd_whileLoop {note : Mark} {condition : Expr Mark} {body : Stmt Mark}
    (hending : ending ≠ .running) :
    (one (.whileLoop note condition body)).MayEnd ending ↔
      (loop condition.fold? body).MayEnd ending := by
  constructor
  · rintro ⟨_, hrun⟩
    cases hrun with
    | start => exact absurd rfl hending
    | simple hs => cases hs
    | whileLoop h => exact ⟨_, h⟩
  · rintro ⟨_, h⟩
    exact ⟨_, .whileLoop h⟩

theorem mayEnd_forLoop {note : Mark} {init : Option (Stmt Mark)}
    {condition update : Option (Expr Mark)} {body : Stmt Mark} (hending : ending ≠ .running) :
    (one (.forLoop note init condition update body)).MayEnd ending ↔
      ((sequence init.toList).MayEnd ending ∧ ending ≠ .normal) ∨
      ((sequence init.toList).MayEnd .normal ∧
        (loop (loopCondition condition) body).MayEnd ending) := by
  constructor
  · rintro ⟨_, hrun⟩
    cases hrun with
    | start => exact absurd rfl hending
    | simple hs => cases hs
    | forInit hinit hne => exact Or.inl ⟨⟨_, hinit⟩, hne⟩
    | forLoop hinit h => exact Or.inr ⟨⟨_, hinit⟩, ⟨_, h⟩⟩
  · rintro (⟨⟨_, hinit⟩, hne⟩ | ⟨⟨_, hinit⟩, ⟨_, h⟩⟩)
    · exact ⟨_, .forInit hinit hne⟩
    · exact ⟨_, .forLoop hinit h⟩

theorem mayEnd_nil : (sequence []).MayEnd ending ↔ ending = .normal := by
  constructor
  · rintro ⟨_, hrun⟩
    cases hrun with
    | finished => rfl
  · rintro rfl
    exact ⟨_, .finished⟩

theorem mayEnd_cons {ss : List (Stmt Mark)} :
    (sequence (s :: ss)).MayEnd ending ↔
      ((one s).MayEnd ending ∧ ending ≠ .normal) ∨
      ((one s).MayEnd .normal ∧ (sequence ss).MayEnd ending) := by
  constructor
  · rintro ⟨_, hrun⟩
    cases hrun with
    | next hs h => exact Or.inr ⟨⟨_, hs⟩, ⟨_, h⟩⟩
    | last hs hne => exact Or.inl ⟨⟨_, hs⟩, hne⟩
  · rintro (⟨⟨_, hs⟩, hne⟩ | ⟨⟨_, hs⟩, ⟨_, h⟩⟩)
    · exact ⟨_, .last hs hne⟩
    · exact ⟨_, .next hs h⟩

/-- A loop ends as its last iteration does, or when its condition is false. -/
theorem mayEnd_loop {condition : Option Constant} {body : Stmt Mark}
    (hending : ending ≠ .running) :
    (loop condition body).MayEnd ending ↔
      (ending = .normal ∧ MayBe condition false) ∨
      (MayBe condition true ∧
        ∃ inner, (one body).MayEnd inner ∧ inner ≠ .normal ∧ inner.ofLoop = ending) := by
  constructor
  · rintro ⟨reached, hrun⟩
    generalize htask : loop condition body = task at hrun
    induction hrun with
    | test => exact absurd rfl hending
    | exit hfalse =>
      cases htask
      exact Or.inl ⟨rfl, hfalse⟩
    | again _ _ _ _ ih => exact ih hending htask
    | leave htrue hbody hne =>
      cases htask
      exact Or.inr ⟨htrue, _, ⟨_, hbody⟩, hne, rfl⟩
    | _ => cases htask
  · rintro (⟨rfl, hfalse⟩ | ⟨htrue, inner, ⟨_, hbody⟩, hne, rfl⟩)
    · exact ⟨_, .exit hfalse⟩
    · exact ⟨_, .leave htrue hbody hne⟩

/-! ## What each task reaches -/

variable {part : Stmt Mark}

theorem reaches_self (s : Stmt Mark) : (one s).Reaches s :=
  ⟨[s], .running, .start s, List.mem_singleton_self s⟩

theorem Reaches.mem_parts {task : Task} (h : task.Reaches part) : part ∈ task.parts := by
  obtain ⟨_, _, hrun, hmem⟩ := h
  exact hrun.subset_parts hmem

theorem reaches_block {note : Mark} {stmts : List (Stmt Mark)} :
    (one (.block note stmts)).Reaches part ↔
      part = .block note stmts ∨ (sequence stmts).Reaches part := by
  constructor
  · rintro ⟨_, _, hrun, hmem⟩
    cases hrun with
    | start => exact Or.inl (List.mem_singleton.mp hmem)
    | simple hs => cases hs
    | block h => exact (List.mem_cons.mp hmem).imp_right (fun hmem => ⟨_, _, h, hmem⟩)
  · rintro (rfl | ⟨_, _, h, hmem⟩)
    · exact reaches_self _
    · exact ⟨_, _, .block h, List.mem_cons_of_mem _ hmem⟩

theorem reaches_branch {note : Mark} {condition : Expr Mark} {thenBranch : Stmt Mark}
    {elseBranch : Option (Stmt Mark)} :
    (one (.branch note condition thenBranch elseBranch)).Reaches part ↔
      part = .branch note condition thenBranch elseBranch ∨
      (one thenBranch).Reaches part ∨ (sequence elseBranch.toList).Reaches part := by
  constructor
  · rintro ⟨_, _, hrun, hmem⟩
    cases hrun with
    | start => exact Or.inl (List.mem_singleton.mp hmem)
    | simple hs => cases hs
    | thenBranch h =>
      exact (List.mem_cons.mp hmem).imp_right (fun hmem => Or.inl ⟨_, _, h, hmem⟩)
    | elseBranch h =>
      exact (List.mem_cons.mp hmem).imp_right (fun hmem => Or.inr ⟨_, _, h, hmem⟩)
  · rintro (rfl | ⟨_, _, h, hmem⟩ | ⟨_, _, h, hmem⟩)
    · exact reaches_self _
    · exact ⟨_, _, .thenBranch h, List.mem_cons_of_mem _ hmem⟩
    · exact ⟨_, _, .elseBranch h, List.mem_cons_of_mem _ hmem⟩

theorem reaches_whileLoop {note : Mark} {condition : Expr Mark} {body : Stmt Mark} :
    (one (.whileLoop note condition body)).Reaches part ↔
      part = .whileLoop note condition body ∨ (loop condition.fold? body).Reaches part := by
  constructor
  · rintro ⟨_, _, hrun, hmem⟩
    cases hrun with
    | start => exact Or.inl (List.mem_singleton.mp hmem)
    | simple hs => cases hs
    | whileLoop h => exact (List.mem_cons.mp hmem).imp_right (fun hmem => ⟨_, _, h, hmem⟩)
  · rintro (rfl | ⟨_, _, h, hmem⟩)
    · exact reaches_self _
    · exact ⟨_, _, .whileLoop h, List.mem_cons_of_mem _ hmem⟩

theorem reaches_nil : ¬ (sequence []).Reaches part := by
  rintro ⟨_, _, hrun, hmem⟩
  cases hrun with
  | finished => cases hmem

theorem reaches_cons {ss : List (Stmt Mark)} :
    (sequence (s :: ss)).Reaches part ↔
      (one s).Reaches part ∨ ((one s).MayEnd .normal ∧ (sequence ss).Reaches part) := by
  constructor
  · rintro ⟨_, _, hrun, hmem⟩
    cases hrun with
    | next hs h =>
      exact (List.mem_append.mp hmem).imp (fun hmem => ⟨_, _, hs, hmem⟩)
        (fun hmem => ⟨⟨_, hs⟩, _, _, h, hmem⟩)
    | last hs => exact Or.inl ⟨_, _, hs, hmem⟩
  · rintro (⟨reached, ending, hs, hmem⟩ | ⟨⟨_, hs⟩, _, _, h, hmem⟩)
    · by_cases hending : ending = .normal
      · subst hending
        cases ss with
        | nil => exact ⟨_, _, .next hs .finished, List.mem_append_left _ hmem⟩
        | cons s' ss =>
          exact ⟨_, _, .next hs (.last (.start s') nofun), List.mem_append_left _ hmem⟩
      · exact ⟨_, _, .last hs hending, hmem⟩
    · exact ⟨_, _, .next hs h, List.mem_append_right _ hmem⟩

/-- A loop reaches what its body reaches, unless its condition is never true. -/
theorem reaches_loop {condition : Option Constant} {body : Stmt Mark} :
    (loop condition body).Reaches part ↔ MayBe condition true ∧ (one body).Reaches part := by
  constructor
  · rintro ⟨reached, ending, hrun, hmem⟩
    generalize htask : loop condition body = task at hrun
    induction hrun with
    | test => cases hmem
    | exit => cases hmem
    | again htrue hbody _ _ ih =>
      rcases List.mem_append.mp hmem with hmem | hmem
      · cases htask
        exact ⟨htrue, _, _, hbody, hmem⟩
      · exact ih hmem htask
    | leave htrue hbody =>
      cases htask
      exact ⟨htrue, _, _, hbody, hmem⟩
    | _ => cases htask
  · rintro ⟨htrue, reached, ending, hbody, hmem⟩
    by_cases hending : ending = .normal
    · subst hending
      exact ⟨_, _, .again htrue hbody (.test condition body), List.mem_append_left _ hmem⟩
    · exact ⟨_, _, .leave htrue hbody hending, hmem⟩

theorem reaches_forLoop {note : Mark} {init : Option (Stmt Mark)}
    {condition update : Option (Expr Mark)} {body : Stmt Mark} :
    (one (.forLoop note init condition update body)).Reaches part ↔
      part = .forLoop note init condition update body ∨ (sequence init.toList).Reaches part ∨
      ((sequence init.toList).MayEnd .normal ∧
        (loop (loopCondition condition) body).Reaches part) := by
  constructor
  · rintro ⟨_, _, hrun, hmem⟩
    cases hrun with
    | start => exact Or.inl (List.mem_singleton.mp hmem)
    | simple hs => cases hs
    | forInit hinit =>
      exact (List.mem_cons.mp hmem).imp_right (fun hmem => Or.inl ⟨_, _, hinit, hmem⟩)
    | forLoop hinit h =>
      refine (List.mem_cons.mp hmem).imp_right (fun hmem => ?_)
      exact (List.mem_append.mp hmem).imp (fun hmem => ⟨_, _, hinit, hmem⟩)
        (fun hmem => ⟨⟨_, hinit⟩, _, _, h, hmem⟩)
  · rintro (rfl | ⟨reached, ending, hinit, hmem⟩ | ⟨⟨_, hinit⟩, _, _, h, hmem⟩)
    · exact reaches_self _
    · by_cases hending : ending = .normal
      · subst hending
        exact ⟨_, _, .forLoop hinit (.test _ body),
          List.mem_cons_of_mem _ (List.mem_append_left _ hmem)⟩
      · exact ⟨_, _, .forInit hinit hending, List.mem_cons_of_mem _ hmem⟩
    · exact ⟨_, _, .forLoop hinit h, List.mem_cons_of_mem _ (List.mem_append_right _ hmem)⟩

end Task

end JoosStatics
