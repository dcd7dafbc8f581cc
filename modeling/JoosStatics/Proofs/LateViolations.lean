/-
JoosStatics.Proofs.LateViolations — what linking leaves for later.

Names in expressions are looked up when bodies are checked, after linking
is done. Two kinds of violations get past linking that way, and no others
do:

* `late_violation_of_name` — such a name may be ambiguous between packages
  that are imported on demand.
* `late_clash_of_name` — such a name may bring a package into use that
  clashes with a type, and then nothing reports the clash.
-/
import JoosStatics.Proofs.Bodies.LateNames
import JoosStatics.Proofs.Linking.Packages

namespace JoosStatics

/-! ## §1 Violations of linking after linking -/

namespace ClassContext

variable {cls : ClassContext} {index : Nat} {v : Violation}

theorem methodFlow_phase (h : cls.methodFlow index = some v) : v.phase = .reachability := by
  obtain ⟨body, -, h⟩ := Option.bind_eq_some_iff.mp h
  split at h
  · cases h
    rfl
  · split at h
    · cases h
      rfl
    · cases h

theorem constructorFlow_phase (h : cls.constructorFlow index = some v) :
    v.phase = .reachability := by
  obtain ⟨body, -, h⟩ := Option.bind_eq_some_iff.mp h
  split at h
  · cases h
    rfl
  · cases h

theorem flowViolations_phase (h : v ∈ cls.flowViolations) : v.phase = .reachability := by
  rcases List.mem_append.mp h with h | h
  · obtain ⟨index, -, hflow⟩ := List.mem_filterMap.mp h
    exact methodFlow_phase hflow
  · obtain ⟨index, -, hflow⟩ := List.mem_filterMap.mp h
    exact constructorFlow_phase hflow

end ClassContext

theorem TypeTable.checkConstructorCycles_phase {t : TypeTable} {targets : ConstructorTargets}
    {v : Violation} (h : t.checkConstructorCycles targets = .error v) : v.phase = .typeChecking := by
  unfold checkConstructorCycles at h
  split at h
  · cases h
    rfl
  · cases h

/-- What reachability finds is a cycle of constructors or something in the flow
of a body. -/
theorem Linked.mem_of_checkFlow {l : Linked} {h : Hierarchy} {facts : ProgramFacts}
    {collectAll : Bool} {violations : List Violation}
    (hrun : l.checkFlow h facts collectAll = .error violations) {v : Violation}
    (hv : v ∈ violations) :
    l.table.checkConstructorCycles facts.targets = .error v ∨
      ∃ id ∈ l.symbols.programIds, v ∈ (l.classContext h id).flowViolations := by
  unfold checkFlow at hrun
  rw [flowOfClasses_eq] at hrun
  split at hrun
  · rename_i cycle hcycle
    cases hrun
    exact .inl (List.mem_singleton.mp hv ▸ hcycle)
  · right
    split at hrun
    · cases hrun
    · cases hrun
      refine List.mem_flatMap.mp ?_
      split at hv
      · exact hv
      · exact List.mem_of_mem_take hv

/-- The reachability stage finds no violation of linking. -/
theorem Linked.checkFlow_phase {l : Linked} {h : Hierarchy} {facts : ProgramFacts}
    {collectAll : Bool} {violations : List Violation}
    (hrun : l.checkFlow h facts collectAll = .error violations) :
    ∀ v ∈ violations, v.phase ≠ .typeLinking := by
  intro v hv
  rcases mem_of_checkFlow hrun hv with hcycle | ⟨id, -, hflow⟩
  · rw [TypeTable.checkConstructorCycles_phase hcycle]
    decide
  · rw [ClassContext.flowViolations_phase hflow]
    decide

/-- Once a program is linked and its hierarchy accepted, the later stages find one
violation of linking only: the first identifier of a name in an expression is
ambiguous between packages imported on demand. -/
theorem late_violation_of_name {program library : List CompilationUnit} {l : Linked} {h : Hierarchy}
    (hh : HasHierarchy program library l h) (collectAll : Bool) :
    (∀ violations, l.checkBodies h collectAll = .error violations →
      ∀ v ∈ violations, v.phase = .typeLinking →
        ∃ id name range, l.Names h id name ∧ l.symbols.IsAmbiguous id name ∧
          v = l.symbols.ambiguity id name range) ∧
    ∀ facts violations, l.checkFlow h facts collectAll = .error violations →
      ∀ v ∈ violations, v.phase ≠ .typeLinking :=
  ⟨(hh.checkProgram_lateNames collectAll).2, fun _ _ => Linked.checkFlow_phase⟩

/-- A call of a static method, qualified by a type. -/
def callOf (type method : Name) : TypeBlueprint :=
  { Library.classNamed "Main" with
    methods := [{ Library.procedure "run" with
      body := some [.expression () (.callOn () (.named () (.single type)) method [])] }] }

/-- A call through a type of two packages that are imported on demand. -/
def toolUnits : List CompilationUnit :=
  [{ imports := [.onDemand (.ofDotted "left") {}, .onDemand (.ofDotted "right") {}]
     decl := (callOf "Tool" "use").toDecl },
    Library.toUnit "left" (Library.classNamed "Tool"),
    Library.toUnit "right" (Library.classNamed "Tool")]

theorem exists_tool_violation :
    ∃ l h v, HasHierarchy toolUnits coreUnits l h ∧ l.checkBodies h true = .error [v] ∧
      v.phase = .typeLinking := by
  obtain ⟨l, h, hh, htest⟩ := exists_hasHierarchy toolUnits coreUnits
    (fun l h => decide ((l.checkClasses h true l.symbols.programIds
      { lookups := l.lookups }).1.map Violation.phase = [.typeLinking])) (by decide +kernel)
  obtain ⟨v, hfound, hphase⟩ := List.map_eq_singleton_iff.mp (of_decide_eq_true htest)
  exact ⟨l, h, v, hh, Linked.checkBodies_eq_error.mpr ⟨List.cons_ne_nil _ _, hfound⟩, hphase⟩

/-- Such a program is linked and its hierarchy accepted, but the check of its body
finds a violation of linking. -/
theorem tool_violates_late :
    ¬ ∀ l h, HasHierarchy toolUnits coreUnits l h → ∀ violations,
      l.checkBodies h true = .error violations → ∀ v ∈ violations, v.phase ≠ .typeLinking := by
  intro hnone
  obtain ⟨l, h, v, hh, hrun, hphase⟩ := exists_tool_violation
  exact hnone l h hh [v] hrun v (List.mem_singleton_self v) hphase

/-- The violation is that of the name in the call. -/
theorem tool_violation_of_name :
    ∃ l h v, HasHierarchy toolUnits coreUnits l h ∧ l.checkBodies h true = .error [v] ∧
      v.phase = .typeLinking ∧ ∃ id name range, l.Names h id name ∧
        l.symbols.IsAmbiguous id name ∧ v = l.symbols.ambiguity id name range := by
  obtain ⟨l, h, v, hh, hrun, hphase⟩ := exists_tool_violation
  exact ⟨l, h, v, hh, hrun, hphase,
    (late_violation_of_name hh true).1 [v] hrun v (List.mem_singleton_self v) hphase⟩

/-! ## §2 Package clashes -/

/-- A package of an accepted program that clashes, going by the packages in use once
the bodies are checked, has supplied the first identifier of a name in an
expression, and the program refers to it in no other way. -/
theorem late_clash_of_name {program : Program} {config : Configuration} {a : Analysis}
    (haccepted : analyze program config = .accepted a) {package : PackageName}
    (hpackage : package ∈
      (a.linked.symbols.referencedPackages a.facts.lookups.usedPackages).keys)
    (hclash : a.linked.symbols.clashOf? package ≠ none) :
    package ∉ (a.linked.symbols.referencedPackages a.linked.lookups.usedPackages).keys ∧
    ∃ id name range, a.linked.Names a.hierarchy id name ∧
      package ∈ (a.linked.symbols.findSimple id name range).2 := by
  have hp := analyze_eq_accepted_iff.mp haccepted
  have hlate := (hp.hierarchy.checkProgram_lateNames config.collectAll).1 _ hp.bodies
  have hearly : package ∉
      (a.linked.symbols.referencedPackages a.linked.lookups.usedPackages).keys := by
    obtain ⟨s, -, hlink, -⟩ := hp.hierarchy
    obtain ⟨rfl, -, hclashes⟩ := SymbolTable.link_run hlink
    exact fun hmem => hclash (SymbolTable.checkPackageClashes_eq_ok.mp hclashes package hmem)
  refine ⟨hearly, ?_⟩
  rw [SymbolTable.mem_referencedPackages] at hpackage hearly
  obtain ⟨hne, hnamed | hused⟩ := hpackage
  · exact absurd ⟨hne, .inl hnamed⟩ hearly
  · rcases hlate.used package hused with hused | hname
    · exact absurd ⟨hne, .inr hused⟩ hearly
    · exact hname

/-- A class that is named like the package `java.lang`, and a call through a type of
that package. -/
def systemUnits : List CompilationUnit :=
  Library.toUnit "java" (Library.classNamed "lang") :: unitsOf [callOf "System" "gc"]

theorem exists_system_clash :
    ∃ a, analyze { units := systemUnits } {} = .accepted a ∧
      .ofDotted "java.lang" ∈
        (a.linked.symbols.referencedPackages a.facts.lookups.usedPackages).keys ∧
      a.linked.symbols.clashOf? (.ofDotted "java.lang") ≠ none := by
  obtain ⟨a, haccepted, htest⟩ := exists_accepted { units := systemUnits } {}
    (fun a => decide (.ofDotted "java.lang" ∈
        (a.linked.symbols.referencedPackages a.facts.lookups.usedPackages).keys ∧
      a.linked.symbols.clashOf? (.ofDotted "java.lang") ≠ none)) (by decide +kernel)
  exact ⟨a, haccepted, of_decide_eq_true htest⟩

/-- Such a program is accepted, although the package and the class clash once the
call is checked. -/
theorem system_clashes_late :
    ∃ a, analyze { units := systemUnits } {} = .accepted a ∧
      a.linked.symbols.checkPackageClashes a.facts.lookups.usedPackages ≠ .ok () := by
  obtain ⟨a, haccepted, hpackage, hclash⟩ := exists_system_clash
  exact ⟨a, haccepted, fun hok =>
    hclash (SymbolTable.checkPackageClashes_eq_ok.mp hok _ hpackage)⟩

/-- The package has supplied the name in the call. -/
theorem system_clash_of_name :
    ∃ a, analyze { units := systemUnits } {} = .accepted a ∧
      .ofDotted "java.lang" ∈
        (a.linked.symbols.referencedPackages a.facts.lookups.usedPackages).keys ∧
      ∃ id name range, a.linked.Names a.hierarchy id name ∧
        .ofDotted "java.lang" ∈ (a.linked.symbols.findSimple id name range).2 := by
  obtain ⟨a, haccepted, hpackage, hclash⟩ := exists_system_clash
  exact ⟨a, haccepted, hpackage, (late_clash_of_name haccepted hpackage hclash).2⟩

end JoosStatics
