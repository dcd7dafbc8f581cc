/-
JoosStatics.Proofs.DeclarationOrder — the order of declarations never
decides anything.

Programs that list their units, and the imports and members of each unit, in
different orders have the same outcome: both are accepted, both are malformed, or
one stage rejects both. What is reported may differ, since another
violation may be met first.

* `Linked.Reorders.exists_checkHierarchy` — from two linked programs to two
  hierarchies.
* `Analysis.run_reorders` — all stages, one after the other.
* `outcome_analyze_eq` — the outcome of the whole analysis.
-/
import JoosStatics.Proofs.Analysis
import JoosStatics.Proofs.Reordering.Flow

namespace JoosStatics

/-! ## §1 Outcomes -/

/-- What a verdict comes to, whatever it reports. -/
inductive Verdict.Outcome where
  | accepted
  | rejected (stage : Stage)
  | malformed
  deriving DecidableEq, Repr

def Verdict.outcome : Verdict → Verdict.Outcome
  | .accepted _ => .accepted
  | .rejected rejection => .rejected rejection.stage
  | .malformed _ => .malformed

/-! ## §2 The stages -/

section Stages

variable {α α' : Type} {stage : Stage}

/-- A stage succeeds in both orders, or it rejects the program in both. -/
theorem single_alike {x : Except Violation α} {x' : Except Violation α'}
    (h : (∃ a, x = .ok a) ↔ ∃ a', x' = .ok a') :
    Alike (fun r r' => r'.stage = r.stage) (fun a a' => x = .ok a ∧ x' = .ok a')
      (Analysis.single stage x) (Analysis.single stage x') := by
  exact (Alike.of_iff h).single (fun _ _ _ => rfl)

theorem several_alike {x : Except (List Violation) α} {x' : Except (List Violation) α'}
    (h : (∃ a, x = .ok a) ↔ ∃ a', x' = .ok a') :
    Alike (fun r r' => r'.stage = r.stage) (fun a a' => x = .ok a ∧ x' = .ok a')
      (Analysis.several stage x) (Analysis.several stage x') := by
  exact (Alike.of_iff h).several (fun _ _ _ => rfl)

end Stages

/-- Programs that have been linked in two orders have their hierarchies in both. -/
theorem Linked.exists_reorders {σ : Equiv.Perm ClassId} {l l' : Linked} {h : Hierarchy}
    (hσ : l.symbols.Reorders σ l'.symbols) (hl : l.symbols.link = .ok l)
    (hl' : l'.symbols.link = .ok l') (hcheck : l.table.checkHierarchy = .ok h) :
    ∃ h', l'.table.checkHierarchy = .ok h' ∧ ∃ π, l.Reorders π l' h h' := by
  obtain ⟨π, hπ⟩ := hσ.exists_places
  obtain ⟨h', hcheck', hmembers⟩ := (hπ.table hl hl').exists_checkHierarchy
    (SymbolTable.link_wellLinked hσ.indexed hl) (SymbolTable.link_wellLinked hσ.indexed' hl') hcheck
  exact ⟨h', hcheck', π, hπ, hl, hl', hmembers⟩

/-- The stages come to the same end on reordered programs. -/
theorem Analysis.run_reorders {p p' : Program} (h : p.Reorders p') (library : List CompilationUnit)
    (collectAll : Bool) :
    Alike (fun r r' => r'.stage = r.stage) (fun _ _ => True)
      (Analysis.run p.units library collectAll) (Analysis.run p'.units library collectAll) := by
  unfold Analysis.run
  refine .bind (single_alike ⟨fun ⟨s, hs⟩ => h.build_isOk hs,
    fun ⟨s', hs'⟩ => h.symm.build_isOk hs'⟩) ?_
  rintro s s' ⟨hs, hs'⟩
  obtain ⟨σ, hσ⟩ := h.exists_reorders hs hs'
  refine .bind (single_alike ⟨fun ⟨l, hl⟩ => hσ.exists_link hl,
    fun ⟨l', hl'⟩ => hσ.symm.exists_link hl'⟩) ?_
  rintro l l' ⟨hl, hl'⟩
  obtain rfl := (SymbolTable.link_run hl).1
  obtain rfl := (SymbolTable.link_run hl').1
  have hforth {h : Hierarchy} (hh : l.table.checkHierarchy = .ok h) :=
    Linked.exists_reorders hσ hl hl' hh
  have hback {h' : Hierarchy} (hh' : l'.table.checkHierarchy = .ok h') :=
    Linked.exists_reorders hσ.symm hl' hl hh'
  refine .bind (single_alike ⟨fun ⟨_, hh⟩ => (hforth hh).imp (fun _ => And.left),
    fun ⟨_, hh'⟩ => (hback hh').imp (fun _ => And.left)⟩) ?_
  rintro h h' ⟨hh, hh'⟩
  obtain ⟨_, hsame, π, r⟩ := hforth hh
  obtain rfl := Except.ok.inj (hh'.symm.trans hsame)
  obtain ⟨_, hsame, π', r'⟩ := hback hh'
  obtain rfl := Except.ok.inj (hh.symm.trans hsame)
  refine .bind (several_alike ⟨fun ⟨_, hfacts⟩ => ?_, fun ⟨_, hfacts'⟩ => ?_⟩) ?_
  · exact (r.exists_checkBodies hfacts collectAll).imp (fun _ => And.left)
  · exact (r'.exists_checkBodies hfacts' collectAll).imp (fun _ => And.left)
  rintro facts facts' ⟨hfacts, hfacts'⟩
  obtain ⟨_, hsame, htargets⟩ := r.exists_checkBodies hfacts collectAll
  obtain rfl := Except.ok.inj (hfacts'.symm.trans hsame)
  obtain ⟨_, hsame, htargets'⟩ := r'.exists_checkBodies hfacts' collectAll
  obtain rfl := Except.ok.inj (hfacts.symm.trans hsame)
  refine .bind (several_alike ⟨fun ⟨(), hflow⟩ => ⟨(), r.checkFlow htargets hflow collectAll⟩,
    fun ⟨(), hflow'⟩ => ⟨(), r'.checkFlow htargets' hflow' collectAll⟩⟩) ?_
  exact fun _ _ _ => .ok trivial

/-! ## §3 The analysis -/

/-- A program is malformed in whatever order. -/
theorem Program.Reorders.malformedUnit? {p p' : Program} (h : p.Reorders p') :
    p'.malformedUnit?.isSome = p.malformedUnit?.isSome := by
  have hperm := h.map_perm (f := fun unit => !unit.decl.isWellFormed)
    (fun _ _ hunit => congrArg not hunit.decl.isWellFormed_eq) []
  rw [List.append_nil, List.append_nil] at hperm
  have hany := hperm.symm.any_eq (f := fun malformed => malformed)
  rw [List.any_map, List.any_map] at hany
  unfold Program.malformedUnit?
  rw [List.isSome_find?, List.isSome_find?]
  exact hany

/-- The order of units, imports and members does not change the outcome of the
analysis. -/
theorem outcome_analyze_eq {p p' : Program} {c c' : Configuration} (h : p.Reorders p')
    (hstdlib : c'.includeStdlib = c.includeStdlib) (hcollectAll : c'.collectAll = c.collectAll) :
    (analyze p' c').outcome = (analyze p c).outcome := by
  have hlibrary : c'.library = c.library := by
    unfold Configuration.library
    rw [hstdlib]
  have hmalformed := h.malformedUnit?
  have hrun := (Analysis.run_reorders h c.library c.collectAll).outcomes
  unfold analyze
  rw [hlibrary, hcollectAll]
  generalize p.malformedUnit? = unit at hmalformed ⊢
  generalize p'.malformedUnit? = unit' at hmalformed ⊢
  cases unit <;> cases unit' <;> simp only [Option.isSome, reduceCtorEq] at hmalformed
  case some.some => rfl
  case none.none =>
    rcases hrun with ⟨r, r', hr, hr', hstage⟩ | ⟨a, a', ha, ha', -⟩
    · rw [hr, hr']
      exact congrArg Verdict.Outcome.rejected hstage
    · rw [ha, ha']
      rfl

/-- The program with everything in the opposite order. -/
def Program.reverse (p : Program) : Program where
  units := (p.units.map (fun unit =>
    { unit with
      imports := unit.imports.reverse
      decl := { unit.decl with
        fields := unit.decl.fields.reverse
        constructors := unit.decl.constructors.reverse
        methods := unit.decl.methods.reverse } })).reverse

theorem Program.reorders_reverse (p : Program) : p.Reorders p.reverse := by
  refine ⟨p.units.reverse, p.units.reverse_perm.symm, ?_⟩
  unfold reverse
  rw [← List.map_reverse, List.forall₂_map_right_iff]
  refine List.forall₂_same.mpr (fun unit _ => ?_)
  exact ⟨(List.reverse_perm _).symm, ⟨(List.reverse_perm _).symm, (List.reverse_perm _).symm,
    (List.reverse_perm _).symm, rfl⟩, rfl⟩

/-- A class whose two constructors invoke each other, and a class that creates it. -/
def circular : Program :=
  let invocation (args : List (Expr Unit)) : List (Stmt Unit) := [.constructorCall () .this args]
  let number : Expr Unit := .literal () (.int 1)
  let creation (name : Name) (args : List (Expr Unit)) : MethodBlueprint :=
    { Library.procedure name with
      body := some [.expression () (.create () (.ofDotted "Circle") args)] }
  let circle := { Library.classNamed "Circle" with
    fields := [{ type := Library.int, name := "x" }, { type := Library.int, name := "y" }]
    constructors := [
      { Library.constructor with body := invocation [number] },
      { Library.constructor [(Library.int, "radius")] with body := invocation [] }] :
      TypeBlueprint }
  let main := { Library.classNamed "Main" with
    methods := [creation "small" [], creation "large" [number]] : TypeBlueprint }
  { units := [
      { decl := circle.toDecl },
      { imports := [.onDemand (.ofDotted "java.util") {}, .onDemand (.ofDotted "java.io") {}]
        decl := main.toDecl }] }

theorem circular_outcomes :
    circular.Reorders circular.reverse ∧ circular.reverse ≠ circular ∧
    (analyze circular {}).outcome = .rejected .flow ∧
    (analyze circular.reverse {}).outcome = .rejected .flow := by
  have hreorders := circular.reorders_reverse
  have hflow : (analyze circular {}).outcome = .rejected .flow := by decide +kernel
  exact ⟨hreorders, by decide +kernel, hflow, (outcome_analyze_eq hreorders rfl rfl).trans hflow⟩

end JoosStatics
