/-
JoosStatics.Analysis — the analysis of a whole program.

`analyze` validates the units and runs the stages in order: symbol table,
linking, hierarchy, type checking, flow. The first stage that finds a
violation ends the analysis.
-/
import JoosStatics.Configuration.Basic
import JoosStatics.Flow.Check
import JoosStatics.Library.Units

namespace JoosStatics

/-- The stages of the analysis. -/
inductive Stage where
  | symbols | linking | hierarchy | typeChecking | flow
  deriving DecidableEq, Repr

/-- The stage that rejects a program, with the violations that it reports. -/
structure Rejection where
  stage : Stage
  violations : List Violation
  deriving DecidableEq, Repr

/-- The results for an accepted program. -/
structure Analysis where
  linked : Linked
  hierarchy : Hierarchy
  facts : ProgramFacts

namespace Analysis

/-- The types declared by the program, in input order. -/
def programTypes (a : Analysis) : List ClassId := a.linked.symbols.programIds

/-- A stage that reports a single violation. -/
def single {α : Type} (stage : Stage) : Except Violation α → Except Rejection α
  | .ok result => .ok result
  | .error violation => .error ⟨stage, [violation]⟩

/-- A stage that reports several violations. -/
def several {α : Type} (stage : Stage) : Except (List Violation) α → Except Rejection α
  | .ok result => .ok result
  | .error violations => .error ⟨stage, violations⟩

/-- Runs the stages on the units of a program and of the library. -/
def run (program library : List CompilationUnit) (collectAll : Bool) :
    Except Rejection Analysis := do
  let symbols ← single .symbols (SymbolTable.build program library)
  let linked ← single .linking symbols.link
  let hierarchy ← single .hierarchy linked.table.checkHierarchy
  let facts ← several .typeChecking (linked.checkBodies hierarchy collectAll)
  several .flow (linked.checkFlow hierarchy facts collectAll)
  return { linked, hierarchy, facts }

end Analysis

/-- The outcome of an analysis. -/
inductive Verdict where
  | accepted (result : Analysis)
  | rejected (rejection : Rejection)
  /-- A unit refers to nodes that its arena does not contain, or its bodies
  are not disjoint trees. -/
  | malformed (type : QualifiedName)

/-- The library that a configuration adds to a program. -/
def Configuration.library (c : Configuration) : List CompilationUnit :=
  if c.includeStdlib then Library.units else []

/-- The first unit of a program that is not well formed. -/
def Program.malformedUnit? (p : Program) : Option CompilationUnit :=
  p.units.find? (fun unit => !unit.decl.isWellFormed)

/-- Analyzes a program as a whole. -/
def analyze (program : Program) (config : Configuration) : Verdict :=
  match program.malformedUnit? with
  | some unit => .malformed unit.typeName
  | none =>
    match Analysis.run program.units config.library config.collectAll with
    | .ok result => .accepted result
    | .error rejection => .rejected rejection

/-- The sentence about a malformed unit. -/
def malformedMessage (type : QualifiedName) : String :=
  "malformed compilation unit for `" ++ type.toDotted ++ "`"

/-- The sentence about a rejection: its only violation, or their number. -/
def Rejection.summary (r : Rejection) : String :=
  match r.violations with
  | [violation] => violation.message
  | violations => "program rejected with " ++ toString violations.length ++ " errors"

end JoosStatics
