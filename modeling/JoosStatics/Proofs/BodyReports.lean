/-
JoosStatics.Proofs.BodyReports — what the checks of all bodies report.

The report of a program is put together from what each body violates when
it is checked alone, right after linking: nothing is added, lost or moved.

* `error_iff_alone` — the whole report. Only the place of an ambiguous name
  may be another one, that of its first use in the type.
* `reportAmong_eq_atSpan` — nothing else of a violation changes.
-/
import JoosStatics.Proofs.Bodies.Independence
import JoosStatics.Proofs.LateViolations

namespace JoosStatics

namespace HasHierarchy

variable {program library : List CompilationUnit} {l : Linked} {h : Hierarchy}

/-- A violation is reported with its own cause and in its own type, if perhaps at
another place. -/
theorem reportAmong_eq_atSpan (hh : HasHierarchy program library l h) {id : ClassId}
    (hid : id < l.symbols.programSize) {v : Violation} (hv : v ∈ l.violationsAlone h id) :
    v.reportAmong (l.violationsAlone h id) = v ∨ ∃ range,
      v.reportAmong (l.violationsAlone h id) = { v with location := v.location.atSpan range } := by
  have hambiguity {w : Violation} (hw : w ∈ l.violationsAlone h id) {name : Name}
      (hname : w.ambiguousName? = some name) : ∃ range, w = l.symbols.ambiguity id name range := by
    obtain ⟨owner, howner, halone⟩ := List.mem_filterMap.mp hw
    exact hh.violationAlone_eq_ambiguity hid howner halone hname
  unfold Violation.reportAmong
  cases hname : v.ambiguousName? with
  | none => exact .inl rfl
  | some name =>
    simp only
    cases hfirst : (l.violationsAlone h id).find? (fun w => w.ambiguousName? = some name) with
    | none => exact .inl rfl
    | some first =>
      obtain ⟨range, rfl⟩ := hambiguity hv hname
      obtain ⟨place, rfl⟩ := hambiguity (List.mem_of_find?_eq_some hfirst)
        (by simpa using List.find?_some hfirst)
      exact .inr ⟨place, rfl⟩

/-- The checks of all bodies report, type by type and body by body, what each body
violates alone; of several violations about one ambiguous name in a type, the first
stands for each. -/
theorem error_iff_alone (hh : HasHierarchy program library l h) (violations : List Violation) :
    l.checkBodies h true = .error violations ↔ violations ≠ [] ∧
      violations = l.symbols.programIds.flatMap (fun id =>
        (l.violationsAlone h id).map (Violation.reportAmong (l.violationsAlone h id))) := by
  have hreport : (l.checkClasses h true l.symbols.programIds { lookups := l.lookups }).1 =
      l.symbols.programIds.flatMap (fun id =>
        (l.violationsAlone h id).map (Violation.reportAmong (l.violationsAlone h id))) :=
    hh.checkClasses_eq_alone (fun _ hid => List.mem_range.mp hid) List.nodup_range
      hh.lateLookups (fun _ _ _ => rfl)
  rw [Linked.checkBodies_eq_error, hreport]
  exact and_congr_right (fun _ => eq_comm)

end HasHierarchy

/-- The arena with every expression at a place of its own. -/
def BodyArena.spread (a : BodyArena) : BodyArena :=
  { a with exprs := a.exprs.mapIdx (fun id node =>
      { node with range := { start := id.toUInt64, stop := (id + 1).toUInt64 } }) }

/-- Two methods that call through a type of two packages that are imported on demand,
each with its own name node. -/
def twoToolUnits : List CompilationUnit :=
  let call : List (Stmt Unit) := [.expression () (.callOn () (.named () (.single "Tool")) "use" [])]
  let decl := { Library.classNamed "Main" with
    methods := ["run", "rest"].map (fun name =>
      { Library.procedure name with body := some call }) : TypeBlueprint }.toDecl
  [{ imports := [.onDemand (.ofDotted "left") {}, .onDemand (.ofDotted "right") {}]
     decl := { decl with bodies := decl.bodies.spread } },
    Library.toUnit "left" (Library.classNamed "Tool"),
    Library.toUnit "right" (Library.classNamed "Tool")]

theorem exists_twoTool_report :
    ∃ l h violations, HasHierarchy twoToolUnits coreUnits l h ∧
      l.checkBodies h true = .error violations ∧
      violations ≠ l.symbols.programIds.flatMap (l.violationsAlone h) := by
  obtain ⟨l, h, hh, htest⟩ := exists_hasHierarchy twoToolUnits coreUnits
    (fun l h =>
      let report := (l.checkClasses h true l.symbols.programIds { lookups := l.lookups }).1
      decide (report ≠ [] ∧ report ≠ l.symbols.programIds.flatMap (l.violationsAlone h)))
    (by decide +kernel)
  obtain ⟨hne, hdiffers⟩ := of_decide_eq_true htest
  exact ⟨l, h, _, hh, Linked.checkBodies_eq_error.mpr ⟨hne, rfl⟩, hdiffers⟩

/-- The second call is reported at the place of the first, and not at its own as the
check of its body alone reports it. -/
theorem twoTool_report_moves :
    ¬ ∀ l h, HasHierarchy twoToolUnits coreUnits l h → ∀ violations,
      l.checkBodies h true = .error violations →
        violations = l.symbols.programIds.flatMap (l.violationsAlone h) := by
  intro hmoves
  obtain ⟨l, h, violations, hh, herror, hne⟩ := exists_twoTool_report
  exact hne (hmoves l h hh violations herror)

/-- The first of the two stands for both. -/
theorem twoTool_report_of_first :
    ∃ l h violations, HasHierarchy twoToolUnits coreUnits l h ∧
      l.checkBodies h true = .error violations ∧ violations ≠ [] ∧
      violations = l.symbols.programIds.flatMap (fun id =>
        (l.violationsAlone h id).map (Violation.reportAmong (l.violationsAlone h id))) := by
  obtain ⟨l, h, violations, hh, herror, -⟩ := exists_twoTool_report
  exact ⟨l, h, violations, hh, herror, (hh.error_iff_alone violations).mp herror⟩

end JoosStatics
