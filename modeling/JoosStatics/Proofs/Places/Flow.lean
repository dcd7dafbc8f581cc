/-
JoosStatics.Proofs.Places.Flow — reachability with other spans.

Whether a statement completes depends on the form of the tree and on
constants, so trees that differ in spans complete alike, or have the same
first statement that cannot be reached.
-/
import JoosStatics.Flow.Check
import JoosStatics.Proofs.Places.Bodies

namespace JoosStatics

variable (f : Span → Span)

/-! ## §1 Completion -/

theorem Expr.fold?_mapSpans (e : Expr Mark) : (e.mapSpans f).fold? = e.fold? := by
  match e with
  | .unary mark op operand =>
    rw [Expr.mapSpans, Expr.fold?, Expr.fold?, operand.fold?_mapSpans]
  | .binary mark op lhs rhs =>
    rw [Expr.mapSpans, Expr.fold?, Expr.fold?, lhs.fold?_mapSpans, rhs.fold?_mapSpans]
  | .literal .. | .named .. | .this _ | .fieldAccess .. | .call .. | .callOn .. | .create ..
  | .createArray .. | .arrayAccess .. | .cast .. | .instanceOf .. | .incDec .. | .assign .. => rfl
termination_by structural e

/-- Two statements complete alike. -/
abbrev CompletesAlike (x x' : Reach Completion) : Prop :=
  Alike (fun s s' => s' = s.mapSpans f) Eq x x'

theorem loopCompletion_mapSpans (condition : Option Constant) (body : Stmt Mark)
    {completion completion' : Reach Completion} (h : CompletesAlike f completion completion') :
    CompletesAlike f (loopCompletion condition body completion)
      (loopCompletion condition (body.mapSpans f) completion') := by
  unfold loopCompletion
  split
  · exact .error rfl
  · exact h.map (fun _ _ heq => heq ▸ rfl)
  · exact h.map (fun _ _ _ => rfl)

theorem loopCondition_mapSpans (condition : Option (Expr Mark)) :
    loopCondition (condition.map (Expr.mapSpans f)) = loopCondition condition := by
  cases condition with
  | none => rfl
  | some e => exact e.fold?_mapSpans f

mutual

theorem Stmt.completion_mapSpans (s : Stmt Mark) :
    CompletesAlike f s.completion (s.mapSpans f).completion := by
  match s with
  | .block _ stmts => exact blockCompletion_mapSpans _ stmts
  | .localVar .. | .expression .. | .empty .. | .constructorCall .. => exact .ok rfl
  | .branch _ _ thenBranch elseBranch =>
    refine .bind thenBranch.completion_mapSpans (fun c c' h => ?_)
    refine .bind (optionalCompletion_mapSpans elseBranch) (fun d d' h' => ?_)
    subst h h'
    exact .ok rfl
  | .whileLoop _ condition body =>
    show CompletesAlike f _
      (loopCompletion (condition.mapSpans f).fold? (body.mapSpans f) (body.mapSpans f).completion)
    rw [condition.fold?_mapSpans f]
    exact loopCompletion_mapSpans f _ body body.completion_mapSpans
  | .forLoop _ init condition _ body =>
    refine .bind (optionalCompletion_mapSpans init) (fun _ _ _ => ?_)
    rw [loopCondition_mapSpans]
    exact loopCompletion_mapSpans f _ body body.completion_mapSpans
  | .returnValue .. | .throwValue .. => exact .ok rfl
  | .breakLoop _ => exact .ok rfl
termination_by structural s

theorem blockCompletion_mapSpans (before : Completion) (ss : List (Stmt Mark)) :
    CompletesAlike f (blockCompletion before ss)
      (blockCompletion before (Stmt.listMapSpans f ss)) := by
  match ss with
  | [] => exact .ok rfl
  | s :: ss =>
    rw [Stmt.listMapSpans, blockCompletion, blockCompletion]
    split
    · refine .bind s.completion_mapSpans (fun c c' h => ?_)
      subst h
      exact blockCompletion_mapSpans _ ss
    · exact .error rfl
termination_by structural ss

theorem optionalCompletion_mapSpans (s : Option (Stmt Mark)) :
    CompletesAlike f (optionalCompletion s)
      (optionalCompletion (Stmt.optionMapSpans f s)) := by
  match s with
  | none => exact .ok rfl
  | some s => exact s.completion_mapSpans
termination_by structural s

end

/-! ## §2 Members -/

variable {f} (hf : f {} = {}) {l : Linked} {h : Hierarchy} {id : ClassId}
include hf

theorem Linked.unreachableAt_mapSpans (member : String) (s : Stmt Mark) :
    ((l.mapSpans f).classContext h id).unreachableAt member (s.mapSpans f) =
      ((l.classContext h id).unreachableAt member s).mapSpan f := by
  have hname := TypeTable.nameOf_mapSpans (t := l.table) hf id
  unfold ClassContext.unreachableAt
  rw [Stmt.range_mapSpans]
  show ({ cause := _, location := ((Location.ofType ((l.table.mapSpans f).nameOf id)).inMember
    member).atSpan (f s.range) } : Violation) = _
  rw [hname]
  rfl

theorem Linked.methodFlow_mapSpans (index : Nat) :
    ((l.mapSpans f).classContext h id).methodFlow index =
      ((l.classContext h id).methodFlow index).map (Violation.mapSpan f) := by
  have hid : ((l.mapSpans f).classContext h id).classId = id := rfl
  have htable : ((l.mapSpans f).classContext h id).table = l.table.mapSpans f := rfl
  have hid₀ : (l.classContext h id).classId = id := rfl
  have htable₀ : (l.classContext h id).table = l.table := rfl
  unfold ClassContext.methodFlow
  simp only [hid, htable, hid₀, htable₀, Linked.decl_mapSpans hf, TypeDecl.methodTree?_mapSpans,
    TypeTable.methodAt_mapSpans hf, TypeTable.methodSignature_mapSpans hf,
    TypeTable.nameOf_mapSpans hf, MethodDef.returnType_mapSpan]
  rcases (l.classContext h id).decl.methodTree? index with _ | body
  · rfl
  · rcases (body.completion_mapSpans f).outcomes with
      ⟨stmt, stmt', hx, hx', rfl⟩ | ⟨completion, completion', hx, hx', rfl⟩
    · simp only [Option.map_some, Option.bind_eq_bind, Option.bind_some, hx, hx']
      exact congrArg some (Linked.unreachableAt_mapSpans hf _ stmt)
    · simp only [Option.map_some, Option.bind_eq_bind, Option.bind_some, hx, hx']
      split
      · rfl
      · rfl

theorem Linked.constructorFlow_mapSpans (index : Nat) :
    ((l.mapSpans f).classContext h id).constructorFlow index =
      ((l.classContext h id).constructorFlow index).map (Violation.mapSpan f) := by
  have hid : ((l.mapSpans f).classContext h id).classId = id := rfl
  have htable : ((l.mapSpans f).classContext h id).table = l.table.mapSpans f := rfl
  have hid₀ : (l.classContext h id).classId = id := rfl
  have htable₀ : (l.classContext h id).table = l.table := rfl
  have hname : (l.table.classAt id |>.mapSpans f).simpleName = (l.table.classAt id).simpleName :=
    rfl
  have hparams (index : Nat) : ((l.table.constructorAt ⟨id, index⟩).mapSpan f).params =
      (l.table.constructorAt ⟨id, index⟩).params := rfl
  unfold ClassContext.constructorFlow
  simp only [hid, htable, hid₀, htable₀, Linked.decl_mapSpans hf, TypeDecl.constructorTree?_mapSpans,
    TypeTable.constructorAt_mapSpans hf, TypeTable.classAt_mapSpans hf, hname, hparams,
    TypeTable.signature_mapSpans hf]
  rcases (l.classContext h id).decl.constructorTree? index with _ | body
  · rfl
  · rcases (body.completion_mapSpans f).outcomes with
      ⟨stmt, stmt', hx, hx', rfl⟩ | ⟨completion, completion', hx, hx', rfl⟩
    · simp only [Option.map_some, Option.bind_eq_bind, Option.bind_some, hx, hx']
      exact congrArg some (Linked.unreachableAt_mapSpans hf _ stmt)
    · simp only [Option.map_some, Option.bind_eq_bind, Option.bind_some, hx, hx']
      rfl

theorem Linked.flowViolations_mapSpans :
    ((l.mapSpans f).classContext h id).flowViolations =
      (l.classContext h id).flowViolations.map (Violation.mapSpan f) := by
  have hclass := TypeTable.classAt_mapSpans (t := l.table) hf id
  have hmethods : ((l.mapSpans f).classContext h id).methodFlow = _ :=
    funext (Linked.methodFlow_mapSpans hf)
  have hconstructors : ((l.mapSpans f).classContext h id).constructorFlow = _ :=
    funext (Linked.constructorFlow_mapSpans hf)
  unfold ClassContext.flowViolations
  rw [show ((l.mapSpans f).classContext h id).classId = id from rfl,
    show ((l.mapSpans f).classContext h id).table = l.table.mapSpans f from rfl, hclass]
  simp only [ClassDef.mapSpans, List.length_map, List.map_append, List.map_filterMap, hmethods,
    hconstructors]
  rfl

/-! ## §3 The stage -/

theorem TypeTable.checkConstructorCycles_mapSpans {t : TypeTable} (targets : ConstructorTargets) :
    SameUpTo f Eq (t.checkConstructorCycles targets)
      ((t.mapSpans f).checkConstructorCycles targets) := by
  unfold checkConstructorCycles
  rcases findRevisited targets targets.keys [] with _ | revisited
  · exact .ok rfl
  · refine .error ?_
    unfold constructorCycleAt
    rw [nameOf_mapSpans hf, classAt_mapSpans hf, constructorAt_mapSpans hf]
    show ({ cause := _, location := ((Location.ofType _).inMember ((t.mapSpans f).signature
      (t.classAt revisited.owner).simpleName (t.constructorAt revisited).params)).atSpan _ } :
        Violation) = _
    rw [signature_mapSpans hf]
    rfl

/-- Reachability finds the same violations. -/
theorem Linked.checkFlow_mapSpans (l : Linked) (h : Hierarchy) (facts : ProgramFacts)
    (collectAll : Bool) :
    Alike (fun vs vs' => vs' = vs.map (Violation.mapSpan f)) Eq (l.checkFlow h facts collectAll)
      ((l.mapSpans f).checkFlow h (facts.mapSpans f) collectAll) := by
  have hcycles := TypeTable.checkConstructorCycles_mapSpans (t := l.table) hf facts.targets
  have hfound : (l.mapSpans f).symbols.programIds.flatMap (fun id =>
      ((l.mapSpans f).classContext h id).flowViolations) =
      (l.symbols.programIds.flatMap (fun id =>
        (l.classContext h id).flowViolations)).map (Violation.mapSpan f) := by
    simp only [Linked.flowViolations_mapSpans hf, List.map_flatMap]
    rfl
  unfold checkFlow
  rw [flowOfClasses_eq, flowOfClasses_eq, hfound]
  generalize l.symbols.programIds.flatMap (fun id => (l.classContext h id).flowViolations) = found
  revert hcycles
  show SameUpTo f Eq _ ((l.mapSpans f).table.checkConstructorCycles (facts.mapSpans f).targets) → _
  intro hcycles
  generalize l.table.checkConstructorCycles facts.targets = cycles at hcycles
  generalize (l.mapSpans f).table.checkConstructorCycles (facts.mapSpans f).targets =
    cycles' at hcycles
  cases hcycles with
  | error hv => exact .error (hv ▸ rfl)
  | ok _ =>
    cases collectAll <;> rcases found with _ | ⟨v, rest⟩
    all_goals first | exact .ok rfl | exact .error rfl

end JoosStatics
