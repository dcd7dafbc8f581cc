/-
JoosStatics.Proofs.SpanErasure — spans and files never decide anything.

Two programs that are equal once their spans and files are erased have equal
verdicts once these are erased: the results are those of the same types,
members and expressions, and the violations are the same ones in the same
order, each perhaps at another place.

* `Analysis.run_mapSpans` — one program with its spans changed, stage by stage.
* `eraseSpans_analyze` — any two programs that differ in spans and files only.
-/
import JoosStatics.Proofs.Analysis
import JoosStatics.Proofs.Places.Flow

namespace JoosStatics

/-! ## §1 Other spans in programs and verdicts -/

section Places

variable (f : Span → Span)

/-- The same program with other spans, and without the files of its units. -/
def Program.mapSpans (p : Program) : Program where
  units := p.units.map (CompilationUnit.mapSpans f)

/-- The same results with other spans. -/
def Analysis.mapSpans (a : Analysis) : Analysis :=
  { a with linked := a.linked.mapSpans f, facts := a.facts.mapSpans f }

/-- The same rejection with other spans. -/
def Rejection.mapSpans (r : Rejection) : Rejection :=
  { r with violations := r.violations.map (Violation.mapSpan f) }

/-- The same verdict with other spans. -/
def Verdict.mapSpans : Verdict → Verdict
  | .accepted result => .accepted (result.mapSpans f)
  | .rejected rejection => .rejected (rejection.mapSpans f)
  | .malformed type => .malformed type

end Places

/-- A span that says nothing. -/
def Span.erased (_ : Span) : Span := {}

/-- The program without the spans and files of its units. -/
def Program.eraseSpans (p : Program) : Program := p.mapSpans Span.erased

/-- The verdict without the spans and files in its results or violations. -/
def Verdict.eraseSpans (v : Verdict) : Verdict := v.mapSpans Span.erased

/-! ## §2 The stages -/

section Stages

variable {f : Span → Span} {α α' : Type} {R : α → α' → Prop}

theorem single_mapSpans (stage : Stage) {x : Except Violation α} {x' : Except Violation α'}
    (h : SameUpTo f R x x') :
    Alike (fun r r' => r' = r.mapSpans f) R (Analysis.single stage x)
      (Analysis.single stage x') := by
  refine h.single (fun v v' hv => ?_)
  rw [hv]
  rfl

theorem several_mapSpans (stage : Stage) {x : Except (List Violation) α}
    {x' : Except (List Violation) α'}
    (h : Alike (fun vs vs' => vs' = vs.map (Violation.mapSpan f)) R x x') :
    Alike (fun r r' => r' = r.mapSpans f) R (Analysis.several stage x)
      (Analysis.several stage x') := by
  refine h.several (fun vs vs' hvs => ?_)
  rw [hvs]
  rfl

variable (hf : f {} = {})
include hf

/-- The stages come to the same results on units that differ in spans and files only. -/
theorem Analysis.run_mapSpans (program library : List CompilationUnit) (collectAll : Bool) :
    Alike (fun r r' => r' = r.mapSpans f) (fun a a' => a' = a.mapSpans f)
      (Analysis.run program library collectAll)
      (Analysis.run (program.map (CompilationUnit.mapSpans f))
        (library.map (CompilationUnit.mapSpans f)) collectAll) := by
  unfold Analysis.run
  refine .bind (single_mapSpans .symbols (SymbolTable.build_mapSpans f program library)) ?_
  rintro symbols _ rfl
  refine .bind (single_mapSpans .linking (symbols.link_mapSpans hf)) ?_
  rintro linked _ rfl
  refine .bind (single_mapSpans .hierarchy (TypeTable.checkHierarchy_mapSpans hf)) ?_
  rintro hierarchy _ rfl
  refine .bind (several_mapSpans .typeChecking (linked.checkBodies_mapSpans hf hierarchy
    collectAll)) ?_
  rintro facts _ rfl
  refine .bind (several_mapSpans .flow (linked.checkFlow_mapSpans hf hierarchy facts
    collectAll)) ?_
  rintro _ _ rfl
  exact .ok rfl

omit hf in
/-- A unit refers to the nodes of its arena whatever its spans are. -/
theorem Program.malformedUnit?_mapSpans (p : Program) :
    (p.mapSpans f).malformedUnit? = p.malformedUnit?.map (CompilationUnit.mapSpans f) := by
  have hsame : (fun unit => !unit.decl.isWellFormed) ∘ CompilationUnit.mapSpans f =
      fun unit => !unit.decl.isWellFormed :=
    funext (fun unit => congrArg not (unit.decl.isWellFormed_mapSpans f))
  unfold malformedUnit? mapSpans
  rw [List.find?_map, hsame]

/-- Units that differ in spans and files only come to results that do so, or are
rejected for violations that do so. -/
theorem Analysis.run_congr_mapSpans {program program' : List CompilationUnit}
    (h : program.map (CompilationUnit.mapSpans f) = program'.map (CompilationUnit.mapSpans f))
    (library : List CompilationUnit) (collectAll : Bool) :
    Alike (fun r r' => r.mapSpans f = r'.mapSpans f) (fun a a' => a.mapSpans f = a'.mapSpans f)
      (Analysis.run program library collectAll) (Analysis.run program' library collectAll) := by
  have hrun := (Analysis.run_mapSpans hf program library collectAll).outcomes
  have hrun' := (Analysis.run_mapSpans hf program' library collectAll).outcomes
  rw [h] at hrun
  rcases hrun with ⟨r, _, hr, hmapped, rfl⟩ | ⟨a, _, ha, hmapped, rfl⟩ <;>
    rcases hrun' with ⟨r', _, hr', hmapped', rfl⟩ | ⟨a', _, ha', hmapped', rfl⟩ <;>
    have hsame := hmapped.symm.trans hmapped'
  · rw [hr, hr']
    exact .error (Except.error.inj hsame)
  · cases hsame
  · cases hsame
  · rw [ha, ha']
    exact .ok (Except.ok.inj hsame)

end Stages

/-! ## §3 Verdicts -/

/-- Programs that are equal without their spans and files have verdicts that are equal
without them. -/
theorem eraseSpans_analyze {p q : Program} (h : p.eraseSpans = q.eraseSpans)
    (c : Configuration) : (analyze p c).eraseSpans = (analyze q c).eraseSpans := by
  have hunits : p.units.map (CompilationUnit.mapSpans Span.erased) =
      q.units.map (CompilationUnit.mapSpans Span.erased) := congrArg Program.units h
  have hmalformed := congrArg Program.malformedUnit? h
  rw [Program.eraseSpans, Program.eraseSpans, Program.malformedUnit?_mapSpans,
    Program.malformedUnit?_mapSpans] at hmalformed
  have hrun := (Analysis.run_congr_mapSpans rfl hunits c.library c.collectAll).outcomes
  unfold analyze
  generalize p.malformedUnit? = first at hmalformed ⊢
  generalize q.malformedUnit? = first' at hmalformed ⊢
  cases first <;> cases first' <;> simp only [Option.map, reduceCtorEq] at hmalformed
  case none.none =>
    rcases hrun with ⟨r, r', hr, hr', hsame⟩ | ⟨a, a', ha, ha', hsame⟩
    · rw [hr, hr']
      exact congrArg Verdict.rejected hsame
    · rw [ha, ha']
      exact congrArg Verdict.accepted hsame
  case some.some =>
    have htype := congrArg CompilationUnit.typeName (Option.some.inj hmalformed)
    exact congrArg Verdict.malformed htype

/-- A class that calls a method it does not have, with every construct at one place of
a file. -/
def lostCall (file : Option String) (range : Span) : Program :=
  let call : List (Stmt Unit) := [.expression () (.call () "missing" [])]
  let decl := { Library.classNamed "Main" with
    methods := [{ Library.procedure "run" with body := some call }] : TypeBlueprint }.toDecl
  { units := [{ file, decl := decl.mapSpans (fun _ => range) }] }

theorem lostCall_verdicts :
    lostCall none {} ≠ lostCall (some "Main.java") ⟨8, 17⟩ ∧
    (lostCall none {}).eraseSpans = (lostCall (some "Main.java") ⟨8, 17⟩).eraseSpans ∧
    (analyze (lostCall none {}) {}).eraseSpans =
      (analyze (lostCall (some "Main.java") ⟨8, 17⟩) {}).eraseSpans := by
  have herased : (lostCall none {}).eraseSpans =
      (lostCall (some "Main.java") ⟨8, 17⟩).eraseSpans := by
    decide +kernel
  exact ⟨by decide +kernel, herased, eraseSpans_analyze herased {}⟩

end JoosStatics
