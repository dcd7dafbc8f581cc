/-
JoosStatics.Proofs.Analysis — what an accepted program has gone through.

`Passes` lists the stages with their results, and `analyze_eq_accepted_iff`
says that a program is accepted exactly when it passes them. The results of
one stage meet what the next one relies on: the numbers below `programSize`
are those of the well-formed units of the program, and every signature is
lowered from its unit. `exists_accepted` finds out about a given program.
-/
import JoosStatics.Analysis
import JoosStatics.Proofs.Bodies.Checked
import JoosStatics.Proofs.Hierarchy.Accepted

namespace JoosStatics

/-! ## §1 The stages -/

/-- A program passes all stages with the results of an analysis. -/
structure Passes (program : Program) (config : Configuration) (a : Analysis) : Prop where
  wellFormed : ∀ unit ∈ program.units, unit.decl.isWellFormed = true
  hierarchy : HasHierarchy program.units config.library a.linked a.hierarchy
  bodies : a.linked.checkBodies a.hierarchy config.collectAll = .ok a.facts
  flow : a.linked.checkFlow a.hierarchy a.facts config.collectAll = .ok ()

theorem single_eq_ok {α : Type} {stage : Stage} {result : Except Violation α} {x : α} :
    Analysis.single stage result = .ok x ↔ result = .ok x := by
  cases result <;> simp [Analysis.single]

theorem several_eq_ok {α : Type} {stage : Stage} {result : Except (List Violation) α} {x : α} :
    Analysis.several stage result = .ok x ↔ result = .ok x := by
  cases result <;> simp [Analysis.several]

section Alike

variable {α α' : Type} {stage : Stage} {E : Rejection → Rejection → Prop} {R : α → α' → Prop}

/-- A stage that reports one violation comes to the same in two runs when it does so up to
the violation. -/
theorem Alike.single {E₀ : Violation → Violation → Prop} {x : Except Violation α}
    {x' : Except Violation α'} (h : Alike E₀ R x x')
    (hE : ∀ v v', E₀ v v' → E ⟨stage, [v]⟩ ⟨stage, [v']⟩) :
    Alike E R (Analysis.single stage x) (Analysis.single stage x') := by
  cases h with
  | error h => exact .error (hE _ _ h)
  | ok h => exact .ok h

theorem Alike.several {E₀ : List Violation → List Violation → Prop}
    {x : Except (List Violation) α} {x' : Except (List Violation) α'} (h : Alike E₀ R x x')
    (hE : ∀ vs vs', E₀ vs vs' → E ⟨stage, vs⟩ ⟨stage, vs'⟩) :
    Alike E R (Analysis.several stage x) (Analysis.several stage x') := by
  cases h with
  | error h => exact .error (hE _ _ h)
  | ok h => exact .ok h

end Alike

/-- The stages succeed when each of them does on the results of those before. -/
theorem run_eq_ok_iff {program library : List CompilationUnit} {collectAll : Bool} {a : Analysis} :
    Analysis.run program library collectAll = .ok a ↔
      HasHierarchy program library a.linked a.hierarchy ∧
      a.linked.checkBodies a.hierarchy collectAll = .ok a.facts ∧
      a.linked.checkFlow a.hierarchy a.facts collectAll = .ok () := by
  unfold Analysis.run HasHierarchy
  simp only [bind_eq_ok, single_eq_ok, several_eq_ok]
  constructor
  · rintro ⟨symbols, hbuild, linked, hlink, hierarchy, hcheck, facts, hbodies, _, hflow, ha⟩
    cases ha
    exact ⟨⟨symbols, hbuild, hlink, hcheck⟩, hbodies, hflow⟩
  · rintro ⟨⟨symbols, hbuild, hlink, hcheck⟩, hbodies, hflow⟩
    exact ⟨symbols, hbuild, _, hlink, _, hcheck, _, hbodies, (), hflow, rfl⟩

/-- A program is accepted exactly when it passes all stages. -/
theorem analyze_eq_accepted_iff {program : Program} {config : Configuration} {a : Analysis} :
    analyze program config = .accepted a ↔ Passes program config a := by
  unfold analyze
  cases hmalformed : program.malformedUnit? with
  | some unit =>
    constructor
    · intro h
      cases h
    · intro h
      have hbad := List.find?_some hmalformed
      rw [h.wellFormed unit (List.mem_of_find?_eq_some hmalformed)] at hbad
      cases hbad
  | none =>
    have hwf : ∀ unit ∈ program.units, unit.decl.isWellFormed = true := by
      intro unit hunit
      simpa using List.find?_eq_none.mp hmalformed unit hunit
    cases hrun : Analysis.run program.units config.library config.collectAll with
    | error rejection =>
      constructor
      · intro h
        cases h
      · rintro ⟨-, hhierarchy, hbodies, hflow⟩
        rw [run_eq_ok_iff.mpr ⟨hhierarchy, hbodies, hflow⟩] at hrun
        cases hrun
    | ok result =>
      constructor
      · intro h
        cases h
        obtain ⟨hhierarchy, hbodies, hflow⟩ := run_eq_ok_iff.mp hrun
        exact ⟨hwf, hhierarchy, hbodies, hflow⟩
      · rintro ⟨-, hhierarchy, hbodies, hflow⟩
        rw [run_eq_ok_iff.mpr ⟨hhierarchy, hbodies, hflow⟩] at hrun
        cases hrun
        rfl

/-! ## §2 The units behind the numbers -/

namespace HasHierarchy

variable {program library : List CompilationUnit} {l : Linked} {h : Hierarchy} {id : ClassId}

theorem link (hh : HasHierarchy program library l h) : l.symbols.link = .ok l := by
  obtain ⟨s, -, hlink, -⟩ := hh
  rw [(SymbolTable.link_run hlink).1]
  exact hlink

theorem indexed (hh : HasHierarchy program library l h) : l.symbols.Indexed := by
  obtain ⟨s, hbuild, hlink, -⟩ := hh
  rw [(SymbolTable.link_run hlink).1]
  exact SymbolTable.build_indexed hbuild

/-- The first numbers are those of the units of the program. -/
theorem unitAt_mem (hh : HasHierarchy program library l h) (hid : id < l.symbols.programSize) :
    l.symbols.unitAt id ∈ program := by
  obtain ⟨s, hbuild, hlink, -⟩ := hh
  rw [(SymbolTable.link_run hlink).1] at hid ⊢
  exact SymbolTable.build_unitAt_mem hbuild hid

theorem exists_unitAt (hh : HasHierarchy program library l h) {unit : CompilationUnit}
    (hunit : unit ∈ program) : ∃ id < l.symbols.programSize, l.symbols.unitAt id = unit := by
  obtain ⟨s, hbuild, hlink, -⟩ := hh
  rw [(SymbolTable.link_run hlink).1]
  exact SymbolTable.build_exists_unitAt hbuild hunit

theorem programSize_le (hh : HasHierarchy program library l h) :
    l.symbols.programSize ≤ l.symbols.size := by
  obtain ⟨s, hbuild, hlink, -⟩ := hh
  rw [(SymbolTable.link_run hlink).1]
  exact SymbolTable.build_programSize_le hbuild

/-- Every signature is lowered from its unit. -/
theorem lowersTo (hh : HasHierarchy program library l h) (hid : id < l.symbols.size) :
    l.symbols.LowersTo id (l.table.classAt id) := by
  obtain ⟨-, -, hlowers, -⟩ := SymbolTable.link_eq_ok hh.indexed hh.link
  exact hlowers id hid

end HasHierarchy

namespace Passes

variable {program : Program} {config : Configuration} {a : Analysis}

/-- The types of an accepted program meet what their check relies on. -/
theorem checkable (hp : Passes program config a) {id : ClassId}
    (hid : id < a.linked.symbols.programSize) : a.linked.Checkable a.hierarchy id := by
  refine ⟨hp.wellFormed _ (hp.hierarchy.unitAt_mem hid), ?_⟩
  exact (hp.hierarchy.lowersTo (Nat.lt_of_lt_of_le hid hp.hierarchy.programSize_le)).isDefault_eq

/-- The type checking stage keeps its promises about an accepted program. -/
theorem bodiesChecked (hp : Passes program config a) :
    a.linked.BodiesChecked a.hierarchy a.facts :=
  Linked.checkBodies_checked (fun _ hid => hp.checkable hid) hp.bodies

end Passes

/-! ## §3 Given programs -/

/-- Whether a program is accepted with results that pass a test. -/
def acceptedWith (program : Program) (config : Configuration) (test : Analysis → Bool) : Bool :=
  match analyze program config with
  | .accepted a => test a
  | _ => false

theorem exists_accepted (program : Program) (config : Configuration) (test : Analysis → Bool)
    (h : acceptedWith program config test = true) :
    ∃ a, analyze program config = .accepted a ∧ test a = true := by
  unfold acceptedWith at h
  split at h
  · rename_i a haccepted
    exact ⟨a, haccepted, h⟩
  · cases h

end JoosStatics
