/-
JoosStatics.Proofs.InputFiles — a program may be split over files.

A run loads the units of its input files in order: those of a program as they
are, a unit that stands alone with the path of its file where it names none
(`SourceFile.Loads`). Files decide nothing, so the run ends as the analysis of
the units that were written does, however they are divided into files.

* `loadProgram_of_stored` — what is loaded from stored files.
* `outcome_congr_files` — units that differ in files only end a run alike.
* `run_of_files` — the whole run: its outcome, and when it exits with 0, 42
  and 1.
-/
import JoosStatics.Proofs.FirstViolation
import JoosStatics.Proofs.SpanErasure
import JoosStatics.Proofs.Syntax.WrittenText

namespace JoosStatics

/-! ## §1 Files -/

namespace InputFile

/-- The units of a file as they are written. -/
def written : InputFile → List CompilationUnit
  | .whole program => program.units
  | .single unit => [unit]

/-- What a file holds as JSON. -/
def toJson : InputFile → Json
  | .whole program => program.toJson
  | .single unit => unit.toJson

/-- A text of the JSON of a file is read as what the file holds. -/
theorem ofText?_of_toJson {text : String} {content : InputFile}
    (htext : Json.ofText? text = some content.toJson)
    (haddressable : ∀ unit ∈ content.written, unit.Addressable) : ofText? text = some content := by
  rw [ofText?, htext]
  cases content with
  | whole program =>
    have hread : Program.ofJson? .numbered program.toJson = some program :=
      Program.ofJson?_toJson .numbered haddressable
    simp [toJson, ofJson?, hread]
  | single unit =>
    have hread : CompilationUnit.ofJson? .numbered unit.toJson = some unit :=
      CompilationUnit.ofJson?_toJson .numbered (haddressable unit List.mem_cons_self)
    simp [toJson, ofJson?, Program.ofJson?_unit, hread]

end InputFile

/-- An input file: its path and what it holds. -/
structure SourceFile where
  path : String
  content : InputFile

namespace SourceFile

/-- The path can be read, and the text there is one of the file's JSON. -/
def IsStored (file : SourceFile) (read : String → Id (Option String)) : Prop :=
  ∃ text, read file.path = some text ∧ Json.ofText? text = some file.content.toJson

/-- The units that a file is loaded as. Only a unit that stands alone and names no file gets
one, the path it was read from. -/
inductive Loads : SourceFile → List CompilationUnit → Prop where
  | whole (path : String) (program : Program) : Loads ⟨path, .whole program⟩ program.units
  | named (path : String) (unit : CompilationUnit) (h : unit.file ≠ none) :
      Loads ⟨path, .single unit⟩ [unit]
  | unnamed (path : String) (unit : CompilationUnit) (h : unit.file = none) :
      Loads ⟨path, .single unit⟩ [{ unit with file := some path }]

variable {file : SourceFile} {read : String → Id (Option String)}

theorem loads_units (file : SourceFile) : file.Loads (file.content.units file.path) := by
  obtain ⟨path, content⟩ := file
  cases content with
  | whole program => exact .whole path program
  | single unit =>
    cases hfile : unit.file with
    | none =>
      simp only [InputFile.units, hfile, Option.getD_none]
      exact .unnamed path unit hfile
    | some name =>
      simp only [InputFile.units, hfile, Option.getD_some]
      have hsame : { unit with file := some name } = unit := by rw [← hfile]
      rw [hsame]
      exact .named path unit (by simp [hfile])

/-- Loading changes files only. -/
theorem Loads.mapSpans_eq {units : List CompilationUnit} (h : file.Loads units)
    (f : Span → Span) : units.map (CompilationUnit.mapSpans f) =
      file.content.written.map (CompilationUnit.mapSpans f) := by
  cases h <;> rfl

/-- A file that is stored is loaded. -/
theorem IsStored.loadInput (h : file.IsStored read)
    (haddressable : ∀ unit ∈ file.content.written, unit.Addressable) :
    CommandLine.loadInput read file.path = pure (file.content.units file.path) := by
  obtain ⟨text, hread, htext⟩ := h
  have hcontent := InputFile.ofText?_of_toJson htext haddressable
  have hlift : (ExceptT.lift (read file.path) : ExceptT Failure Id _) =
      pure (some text) := by
    rw [hread]
    rfl
  unfold CommandLine.loadInput
  rw [hlift, pure_bind]
  simp only [hcontent]

/-- A file whose JSON is written on one line is stored, as long as its array types are not
nested beyond what the reader of JSON takes. -/
theorem isStored_of_compact (hread : read file.path = some file.content.toJson.compact)
    (haddressable : ∀ unit ∈ file.content.written, unit.Addressable)
    (hdims : ∀ unit ∈ file.content.written, ∀ type ∈ unit.decl.types, type.dims ≤ 116) :
    file.IsStored read := by
  refine ⟨_, hread, Json.ofText?_compact ?_⟩
  obtain ⟨path, content⟩ := file
  cases content with
  | whole program => exact Program.toJson_fits haddressable hdims
  | single unit =>
    have hunit : Json.Fits (118 + 9) unit.toJson := by
      refine CompilationUnit.toJson_fits (haddressable unit List.mem_cons_self) ?_
      intro type htype
      exact (hdims unit List.mem_cons_self type htype).trans (by omega)
    exact hunit

end SourceFile

/-- The units of stored files are loaded file by file, in order. -/
theorem loadProgram_of_stored {files : List SourceFile} {read : String → Id (Option String)}
    (hstored : ∀ file ∈ files, file.IsStored read)
    (haddressable : ∀ file ∈ files, ∀ unit ∈ file.content.written, unit.Addressable) :
    CommandLine.loadProgram read (files.map SourceFile.path) =
      pure ⟨files.flatMap (fun file => file.content.units file.path)⟩ := by
  have hunits : (files.map SourceFile.path).mapM (CommandLine.loadInput read) =
      pure (files.map (fun file => file.content.units file.path)) := by
    induction files with
    | nil => rfl
    | cons file files ih =>
      have hfile := (hstored file List.mem_cons_self).loadInput
        (haddressable file List.mem_cons_self)
      have hfiles := ih (fun other hother => hstored other (List.mem_cons_of_mem _ hother))
        (fun other hother => haddressable other (List.mem_cons_of_mem _ hother))
      simp [List.mapM_cons, hfile, hfiles]
  simp [CommandLine.loadProgram, hunits, List.flatMap_def]

/-! ## §2 Outcomes -/

@[simp] theorem Rejection.mapSpans_id (r : Rejection) : r.mapSpans id = r := by
  have hviolation : Violation.mapSpan id = id := by
    funext v
    obtain ⟨cause, ⟨type?, member?, span?⟩⟩ := v
    simp [Violation.mapSpan, Location.mapSpan]
  simp [Rejection.mapSpans, hviolation]

/-- Programs whose units differ in files only end a run alike. -/
theorem outcome_congr_files {p q : Program} (h : p.mapSpans id = q.mapSpans id)
    (c : Configuration) (format : ReportFormat) :
    CommandLine.outcome format (analyze p c) = CommandLine.outcome format (analyze q c) := by
  have hunits := congrArg Program.units h
  have hmalformed : p.malformedUnit?.map CompilationUnit.typeName =
      q.malformedUnit?.map CompilationUnit.typeName := by
    have hfirst := congrArg Program.malformedUnit? h
    rw [Program.malformedUnit?_mapSpans, Program.malformedUnit?_mapSpans] at hfirst
    have hname : CompilationUnit.typeName ∘ CompilationUnit.mapSpans id =
        CompilationUnit.typeName := rfl
    simpa [hname] using congrArg (Option.map CompilationUnit.typeName) hfirst
  unfold analyze
  cases hp : p.malformedUnit? with
  | some unit =>
    obtain ⟨unit', hq, htype⟩ : ∃ unit', q.malformedUnit? = some unit' ∧
        unit'.typeName = unit.typeName := by
      simpa [hp] using hmalformed.symm
    rw [hq]
    simp [htype]
  | none =>
    have hq : q.malformedUnit? = none := by simpa [hp] using hmalformed.symm
    rw [hq]
    rcases (Analysis.run_congr_mapSpans rfl hunits c.library c.collectAll).outcomes with
      ⟨r, r', hr, hr', hsame⟩ | ⟨a, a', ha, ha', -⟩
    · obtain rfl : r = r' := by simpa using hsame
      simp [hr, hr']
    · simp [ha, ha', CommandLine.outcome]

/-- A program is rejected for some violation. -/
theorem violations_ne_nil {p : Program} {c : Configuration} {r : Rejection}
    (h : analyze p c = .rejected r) : r.violations ≠ [] := by
  have hrun : Analysis.run p.units c.library c.collectAll = .error r := by
    unfold analyze at h
    cases hp : p.malformedUnit? with
    | some unit => simp [hp] at h
    | none =>
      cases hrun : Analysis.run p.units c.library c.collectAll with
      | ok a => simp [hp, hrun] at h
      | error r' => simpa [hp, hrun] using h
  -- Whether all violations are collected or not, the first one is reported.
  rcases (Analysis.run_cut p.units c.library).outcomes with
    ⟨_, _, hcollecting, hstopping, stage, first, others⟩ | ⟨a, _, hcollecting, hstopping, rfl⟩
  · cases hall : c.collectAll with
    | true =>
      rw [hall, hcollecting] at hrun
      obtain rfl := Except.error.inj hrun
      simp
    | false =>
      rw [hall, hstopping] at hrun
      obtain rfl := Except.error.inj hrun
      simp
  · cases hall : c.collectAll with
    | true => simp [hall, hcollecting] at hrun
    | false => simp [hall, hstopping] at hrun

/-- The exit code tells the three verdicts apart. -/
theorem exit_outcome (p : Program) (c : Configuration) (format : ReportFormat) :
    ((CommandLine.outcome format (analyze p c)).exit = 0 ↔
      ∃ a, analyze p c = .accepted a) ∧
    ((CommandLine.outcome format (analyze p c)).exit = 42 ↔
      ∃ r, analyze p c = .rejected r) ∧
    ((CommandLine.outcome format (analyze p c)).exit = 1 ↔
      ∃ type, analyze p c = .malformed type) := by
  cases h : analyze p c with
  | accepted a => simp [CommandLine.outcome, CommandLine.exitCode]
  | rejected r =>
    have hne := violations_ne_nil h
    simp [CommandLine.outcome, CommandLine.exitCode, hne]
  | malformed type => simp [CommandLine.outcome]

/-- A program is malformed when one of its units is. -/
theorem exists_malformed_iff {p : Program} {c : Configuration} :
    (∃ type, analyze p c = .malformed type) ↔
      ∃ unit ∈ p.units, unit.decl.isWellFormed = false := by
  have hfind : p.malformedUnit?.isSome ↔ ∃ unit ∈ p.units, unit.decl.isWellFormed = false := by
    simp [Program.malformedUnit?, List.find?_isSome]
  rw [← hfind]
  unfold analyze
  cases p.malformedUnit? with
  | some unit => simp
  | none => cases Analysis.run p.units c.library c.collectAll <;> simp

/-! ## §3 Runs -/

open CommandLine in
/-- However the units of a program are divided into stored files, in order: they are loaded
as they were written, files aside, and the run ends as the analysis of the units does. It
exits with 0 for an accepted program, 42 for a rejected one and 1 for a malformed one. -/
theorem run_of_files {files : List SourceFile} {units : List CompilationUnit}
    {read : String → Id (Option String)} {args : List String} {options : Options}
    {config : Configuration}
    (hunits : files.flatMap (fun file => file.content.written) = units)
    (haddressable : ∀ unit ∈ units, unit.Addressable)
    (hstored : ∀ file ∈ files, file.IsStored read)
    (hargs : Request.ofArgs args = .analyze options)
    (hinputs : options.inputs = files.map SourceFile.path)
    (hconfig : (loadConfig read options).run = .ok config) :
    (∃ loaded, List.Forall₂ SourceFile.Loads files loaded ∧
      (loadProgram read options.inputs).run = .ok ⟨loaded.flatten⟩) ∧
    (run read args).run = outcome (options.format.getD .text) (analyze ⟨units⟩ config) ∧
    ((run read args).run.exit = 0 ↔ ∃ a, analyze ⟨units⟩ config = .accepted a) ∧
    ((run read args).run.exit = 42 ↔ ∃ r, analyze ⟨units⟩ config = .rejected r) ∧
    ((run read args).run.exit = 1 ↔ ∃ unit ∈ units, unit.decl.isWellFormed = false) := by
  subst hunits
  have hload : loadProgram read options.inputs =
      pure ⟨files.flatMap (fun file => file.content.units file.path)⟩ := by
    rw [hinputs]
    refine loadProgram_of_stored hstored (fun file hfile unit hunit => ?_)
    exact haddressable unit (List.mem_flatMap.mpr ⟨file, hfile, hunit⟩)
  have hsame : Program.mapSpans id ⟨files.flatMap (fun file => file.content.units file.path)⟩ =
      Program.mapSpans id ⟨files.flatMap (fun file => file.content.written)⟩ := by
    simp only [Program.mapSpans, List.map_flatMap, SourceFile.loads_units _ |>.mapSpans_eq]
  have hrun : (run read args).run = outcome (options.format.getD .text)
      (analyze ⟨files.flatMap (fun file => file.content.written)⟩ config) := by
    have hverdict : analyzeInputs read options =
        pure (analyze ⟨files.flatMap (fun file => file.content.units file.path)⟩ config) := by
      unfold analyzeInputs
      rw [show loadConfig read options = pure config from hconfig, hload]
      simp
    rw [← outcome_congr_files hsame config, run, hargs]
    simp only [hverdict]
    rfl
  have hexit := exit_outcome ⟨files.flatMap (fun file => file.content.written)⟩ config
    (options.format.getD .text)
  rw [hrun]
  refine ⟨⟨_, ?_, by rw [hload, List.flatMap_def]; rfl⟩, rfl, hexit.1, hexit.2.1, ?_⟩
  · exact List.forall₂_map_right_iff.mpr (List.forall₂_same.mpr (fun file _ => file.loads_units))
  · exact hexit.2.2.trans exists_malformed_iff

/-- A class that stands alone in its file, and a class below it in a program. -/
def baseAndDerived : List SourceFile :=
  let base := { Library.classNamed "Base" with
    methods := [{ Library.procedure "run" with body := some [] }] : TypeBlueprint }
  let derived := { Library.classNamed "Derived" with
    superclass := some { name := .ofDotted "Base" } : TypeBlueprint }
  [⟨"Base.json", .single { package := some (.ofDotted "lib"), decl := base.toDecl }⟩,
    ⟨"Rest.json", .whole { units := [{
      imports := [.single (.ofDotted "lib.Base") {}], decl := derived.toDecl }] }⟩]

/-- The texts of the files, each on one line. -/
def readBaseAndDerived (path : String) : Id (Option String) :=
  (baseAndDerived.find? (fun file => file.path == path)).map
    (fun file => file.content.toJson.compact)

/-- The two files are read as one program: the import in the second is resolved by the first. -/
theorem baseAndDerived_accepted :
    (∀ file ∈ baseAndDerived, file.IsStored readBaseAndDerived) ∧
    (CommandLine.run readBaseAndDerived ["Base.json", "Rest.json"]).run.exit = 0 := by
  have haddressable : ∀ file ∈ baseAndDerived, ∀ unit ∈ file.content.written,
      unit.Addressable := by decide +kernel
  have hdims : ∀ file ∈ baseAndDerived, ∀ unit ∈ file.content.written,
      ∀ type ∈ unit.decl.types, type.dims ≤ 116 := by decide +kernel
  have hread : ∀ file ∈ baseAndDerived,
      readBaseAndDerived file.path = some file.content.toJson.compact := by
    simp [baseAndDerived, readBaseAndDerived]
  have hstored : ∀ file ∈ baseAndDerived, file.IsStored readBaseAndDerived :=
    fun file hfile => SourceFile.isStored_of_compact (hread file hfile) (haddressable file hfile)
      (hdims file hfile)
  obtain ⟨a, haccepted, -⟩ := exists_accepted
    ⟨baseAndDerived.flatMap (fun file => file.content.written)⟩ {} (fun _ => true)
    (by decide +kernel)
  have hunits : ∀ unit ∈ baseAndDerived.flatMap (fun file => file.content.written),
      unit.Addressable := by
    intro unit hunit
    obtain ⟨file, hfile, hunit⟩ := List.mem_flatMap.mp hunit
    exact haddressable file hfile unit hunit
  have hargs : Request.ofArgs ["Base.json", "Rest.json"] =
      .analyze { inputs := ["Base.json", "Rest.json"] } := by decide +kernel
  have hrun := run_of_files rfl hunits hstored hargs rfl rfl
  exact ⟨hstored, hrun.2.2.1.mpr ⟨a, haccepted⟩⟩

end JoosStatics
