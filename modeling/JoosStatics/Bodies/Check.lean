/-
JoosStatics.Bodies.Check — the type checking stage.

Every body of every program type is checked; library bodies are trusted.
The first broken rule ends the check of its body. Other bodies are still
checked, unless only the first violation is wanted. Lookups are shared by
all bodies, facts by the bodies of one type.
-/
import JoosStatics.Bodies.Members

namespace JoosStatics

/-- The results of type checking. -/
structure ProgramFacts where
  classes : OrderedMap ClassId ClassFacts := ∅
  targets : ConstructorTargets := ∅
  lookups : LookupState := {}

instance : Inhabited ProgramFacts := ⟨{}⟩

namespace ProgramFacts

/-- The facts recorded for a type. -/
def classFacts (f : ProgramFacts) (id : ClassId) : ClassFacts := (f.classes.find? id).getD {}

end ProgramFacts

/-- Checks bodies in order. Returns the violations found, all of them or only
the first. -/
def ClassContext.checkBodies (cls : ClassContext) (collectAll : Bool) :
    List BodyOwner → CheckState → List Violation × CheckState
  | [], state => ([], state)
  | owner :: rest, state =>
    match cls.checkBody owner state with
    | (.ok (), state) => cls.checkBodies collectAll rest state
    | (.error violation, state) =>
      if collectAll then
        let (violations, state) := cls.checkBodies collectAll rest state
        (violation :: violations, state)
      else ([violation], state)

namespace Linked

/-- What the checks of all bodies of a type have in common. -/
def classContext (l : Linked) (hierarchy : Hierarchy) (id : ClassId) : ClassContext :=
  { symbols := l.symbols, table := l.table, hierarchy, classId := id
    decl := (l.symbols.unitAt id).decl }

section BodyContext

variable (l : Linked) (hierarchy : Hierarchy) (id : ClassId) (owner : BodyOwner)

theorem bodyContext_symbols :
    ((l.classContext hierarchy id).bodyContext owner).symbols = l.symbols := by
  rw [ClassContext.toClassContext_bodyContext]
  rfl

theorem bodyContext_table :
    ((l.classContext hierarchy id).bodyContext owner).table = l.table := by
  rw [ClassContext.toClassContext_bodyContext]
  rfl

theorem bodyContext_classId :
    ((l.classContext hierarchy id).bodyContext owner).classId = id := by
  rw [ClassContext.toClassContext_bodyContext]
  rfl

end BodyContext

/-- Checks the bodies of types in order. Returns the violations found, all of
them or only the first. -/
def checkClasses (l : Linked) (hierarchy : Hierarchy) (collectAll : Bool) :
    List ClassId → ProgramFacts → List Violation × ProgramFacts
  | [], facts => ([], facts)
  | id :: rest, facts =>
    let cls := l.classContext hierarchy id
    let (violations, state) := cls.checkBodies collectAll cls.owners
      { lookups := facts.lookups, targets := facts.targets }
    let facts : ProgramFacts := {
      classes := facts.classes.insert id state.facts
      targets := state.targets
      lookups := state.lookups }
    if violations.isEmpty || collectAll then
      let (others, facts) := l.checkClasses hierarchy collectAll rest facts
      (violations ++ others, facts)
    else (violations, facts)

/-- Checks every body of the program. -/
def checkBodies (l : Linked) (hierarchy : Hierarchy) (collectAll : Bool) :
    Except (List Violation) ProgramFacts :=
  match l.checkClasses hierarchy collectAll l.symbols.programIds { lookups := l.lookups } with
  | ([], facts) => .ok facts
  | (violations, _) => .error violations

variable {l : Linked} {hierarchy : Hierarchy} {collectAll : Bool}

theorem checkBodies_eq_ok {facts : ProgramFacts} :
    l.checkBodies hierarchy collectAll = .ok facts ↔
      l.checkClasses hierarchy collectAll l.symbols.programIds { lookups := l.lookups } =
        ([], facts) := by
  unfold checkBodies
  split
  · rename_i facts' hrun
    rw [hrun, Except.ok.injEq, Prod.mk.injEq, and_iff_right rfl]
  · rename_i violations facts' hne hrun
    rw [hrun, Prod.mk.injEq]
    exact iff_of_false nofun (fun h => hne h.1)

theorem checkBodies_eq_error {violations : List Violation} :
    l.checkBodies hierarchy collectAll = .error violations ↔ violations ≠ [] ∧
      (l.checkClasses hierarchy collectAll l.symbols.programIds { lookups := l.lookups }).1 =
        violations := by
  unfold checkBodies
  split
  · rename_i facts' hrun
    rw [hrun]
    exact iff_of_false nofun (fun h => h.1 h.2.symm)
  · rename_i found facts' hne hrun
    rw [hrun, Except.error.injEq]
    exact ⟨fun h => ⟨h ▸ hne, h⟩, fun h => h.2⟩

end Linked

end JoosStatics
