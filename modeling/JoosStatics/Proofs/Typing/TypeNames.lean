/-
JoosStatics.Proofs.Typing.TypeNames — one name in a declaration and in an
expression.

A dotted name that stands for a type is read in two ways. In a declaration
no proper beginning of it may be a type, and then it is looked up as a
whole; in an expression it is classified from left to right. Both readings
agree but for one case: when several packages imported on demand have a
type under the first identifier, the name in the expression fails, while
in the declaration the identifier passes for no type.

* `extendAll_package` — which name of a package is classified as a type.
* `classify_type_iff` — the two readings of a name.
-/
import JoosStatics.Bodies.Check
import JoosStatics.Proofs.Linking.Library
import JoosStatics.Proofs.Linking.Tiers
import JoosStatics.Proofs.Typing.Selection

namespace JoosStatics

/-! ## §1 Names in declarations -/

namespace SymbolTable

variable {s : SymbolTable}

/-- No proper beginning of two or more identifiers is a full type name. -/
theorem leadingTypeLength?_eq_none (name : QualifiedName) :
    s.leadingTypeLength? name = none ↔
      ∀ count, 1 < count → count < name.length → s.lookup (name.take count) = none := by
  unfold leadingTypeLength?
  simp only [List.find?_eq_none, List.mem_range'_1, Bool.not_eq_true,
    Option.isSome_eq_false_iff, Option.isNone_iff_eq_none]
  constructor
  · exact fun h count hone hcount => h count ⟨hone, by omega⟩
  · exact fun h count hcount => h count hcount.1 (by omega)

/-- A resolution finds what the name denotes, whatever is remembered. -/
theorem resolveTypeName_eq_ok {ctx : ClassId} {name : QualifiedName} {range : Span}
    {st : LookupState} (hst : s.Recorded st) {found : ClassId} :
    (s.resolveTypeName ctx name range st).1 = .ok found ↔ s.namedType? ctx name = some found := by
  obtain ⟨-, ⟨hvalid, hok, -⟩ | ⟨hinvalid, v, herror⟩⟩ :=
    resolveTypeName_denotes ctx name range st hst
  · obtain ⟨id, hid⟩ := Option.isSome_iff_exists.mp hvalid
    rw [hok, denotation, hid]
    exact ⟨fun h => by cases h; rfl, fun h => by cases h; rfl⟩
  · rw [Option.not_isSome_iff_eq_none.mp hinvalid, herror]
    exact ⟨nofun, nofun⟩

end SymbolTable

/-! ## §2 Names in expressions -/

namespace BodyContext

variable {ctx : BodyContext} {range : Span} {found : ClassId}

/-- A name that begins with a value is no type. -/
theorem extendAll_value_ne (type : Ty) (kind : ValueKind) (names : List Name) :
    ctx.extendAll range (.value type kind) names ≠ .ok (.type found) := by
  induction names generalizing type kind with
  | nil => exact nofun
  | cons name names ih =>
    intro h
    obtain ⟨next, hnext, hrest⟩ := bind_eq_ok.mp h
    cases extend_eq_ok hnext with
    | value hselect => exact ih _ _ hrest

/-- A name that begins with a type is that type or none. -/
theorem extendAll_type {id : ClassId} {names : List Name} :
    ctx.extendAll range (.type id) names = .ok (.type found) ↔ names = [] ∧ id = found := by
  cases names with
  | nil =>
    constructor
    · intro h
      cases h
      exact ⟨rfl, rfl⟩
    · rintro ⟨-, rfl⟩
      rfl
  | cons name names =>
    refine ⟨fun h => ?_, fun h => absurd h.1 (List.cons_ne_nil name names)⟩
    obtain ⟨next, hnext, hrest⟩ := bind_eq_ok.mp h
    cases extend_eq_ok hnext with
    | type hselect => exact absurd hrest (extendAll_value_ne _ _ names)

/-- A package is extended to a type, or else to a package within it. -/
theorem extendAll_package_cons (package : PackageName) (name : Name) (names : List Name) :
    ctx.extendAll range (.package package) (name :: names) =
      match ctx.symbols.lookup (package.child name) with
      | some id => ctx.extendAll range (.type id) names
      | none => ctx.extendAll range (.package (package.child name)) names := by
  show ctx.extend range (.package package) name >>= _ = _
  unfold extend
  dsimp only
  cases ctx.symbols.lookup (package.child name) <;> rfl

/-- A longer name than that of a package is classified as a type when it is the full name
of one, and nothing between the two is. -/
theorem extendAll_package {package : PackageName} (path : QualifiedName) {names : List Name}
    (hpath : path.segments = package.segments ++ names) :
    ctx.extendAll range (.package package) names = .ok (.type found) ↔
      names ≠ [] ∧ (∀ count, package.length < count → count < path.length →
        ctx.symbols.lookup (path.take count) = none) ∧ ctx.symbols.lookup path = some found := by
  induction names generalizing package with
  | nil => exact ⟨nofun, fun h => absurd rfl h.1⟩
  | cons name names ih =>
    have hlength : path.length = package.length + 1 + names.length := by
      unfold QualifiedName.length
      rw [hpath, List.length_append, List.length_cons]
      omega
    have hchild : path.take (package.length + 1) = package.child name := by
      unfold QualifiedName.take QualifiedName.child QualifiedName.length
      rw [hpath, List.take_length_add_append]
      rfl
    have hwhole (hnil : names = []) : package.child name = path := by
      subst hnil
      cases path
      exact congrArg _ hpath.symm
    rw [extendAll_package_cons]
    cases hlookup : ctx.symbols.lookup (package.child name) with
    | some id =>
      dsimp only
      rw [extendAll_type]
      constructor
      · rintro ⟨hnil, rfl⟩
        refine ⟨List.cons_ne_nil name names, fun count hlow hhigh => ?_, hwhole hnil ▸ hlookup⟩
        rw [hlength, hnil] at hhigh
        exact absurd hhigh (Nat.not_lt.mpr hlow)
      · rintro ⟨-, hbetween, hfound⟩
        -- the child is a type, so that it has to be the whole name
        have hnil : names = [] := by
          by_contra hne
          have hnone := hbetween (package.length + 1) (Nat.lt_succ_self _)
            (hlength ▸ Nat.lt_add_of_pos_right (List.length_pos_iff.mpr hne))
          rw [hchild, hlookup] at hnone
          cases hnone
        rw [hwhole hnil, hfound] at hlookup
        exact ⟨hnil, (Option.some.inj hlookup).symm⟩
    | none =>
      have hlonger : path.segments = (package.child name).segments ++ names := by
        rw [hpath, QualifiedName.child, List.append_assoc, List.singleton_append]
      have hdeeper : (package.child name).length = package.length + 1 := by
        unfold QualifiedName.length QualifiedName.child
        rw [List.length_append, List.length_singleton]
      dsimp only
      rw [ih hlonger, hdeeper]
      constructor
      · rintro ⟨-, hbetween, hfound⟩
        refine ⟨List.cons_ne_nil name names, fun count hlow hhigh => ?_, hfound⟩
        rcases Nat.eq_or_lt_of_le hlow with hcount | hlow
        · rw [← hcount, hchild, hlookup]
        · exact hbetween count hlow hhigh
      · rintro ⟨-, hbetween, hfound⟩
        refine ⟨fun hnil => ?_, fun count hlow => hbetween count (Nat.lt_of_succ_lt hlow), hfound⟩
        rw [← hwhole hnil, hlookup] at hfound
        cases hfound

/-! ## §3 The two readings -/

section Classify

variable {scope : Scope} {path : QualifiedName} {first : Name} {rest : List Name}

/-- A first identifier that is neither a variable nor a field is looked up as a type. -/
theorem classify_of_not_variable (hpath : path.segments = first :: rest)
    (hlocal : scope.find? first = none)
    (hfield : (ctx.hierarchy.members ctx.classId).field? first = none) (range : Span)
    (st : CheckState) :
    (ctx.classify scope path range st).1 =
      match (ctx.symbols.lookupSimple ctx.classId first range st.lookups).1 with
      | .error v => .error v
      | .ok (some id) => ctx.extendAll range (.type id) rest
      | .ok none => ctx.extendAll range (.package (.single first)) rest := by
  unfold classify classifySimple
  rw [hpath]
  dsimp only
  rw [hlocal, hfield]
  simp only [run_bind, CheckM.lookup]
  rcases ctx.symbols.lookupSimple ctx.classId first range st.lookups with ⟨_ | _ | _, _⟩ <;> rfl

/-- A name in a declaration is read like one in an expression whose first identifier is
a type where it denotes one, and else a package. -/
theorem namedType?_eq_some (hpath : path.segments = first :: rest) (range : Span) :
    ctx.symbols.namedType? ctx.classId path = some found ↔
      match ctx.symbols.simpleType? ctx.classId first with
      | some id => ctx.extendAll range (.type id) rest = .ok (.type found)
      | none => ctx.extendAll range (.package (.single first)) rest = .ok (.type found) := by
  obtain ⟨segments⟩ := path
  cases hpath
  unfold SymbolTable.namedType?
  cases rest with
  | nil =>
    dsimp only
    cases ctx.symbols.simpleType? ctx.classId first with
    | some id =>
      dsimp only
      rw [extendAll_type, Option.some.injEq]
      exact (and_iff_right rfl).symm
    | none => exact ⟨nofun, nofun⟩
  | cons second others =>
    dsimp only
    cases ctx.symbols.simpleType? ctx.classId first with
    | some id =>
      dsimp only
      rw [extendAll_type]
      exact ⟨nofun, fun h => absurd h.1 (List.cons_ne_nil second others)⟩
    | none =>
      dsimp only
      rw [extendAll_package ⟨first :: second :: others⟩ rfl]
      have hleading := ctx.symbols.leadingTypeLength?_eq_none ⟨first :: second :: others⟩
      cases hcount : ctx.symbols.leadingTypeLength? ⟨first :: second :: others⟩ with
      | some count =>
        rw [hcount] at hleading
        exact ⟨nofun, fun h => absurd (hleading.mpr h.2.1) nofun⟩
      | none =>
        exact ⟨fun h => ⟨List.cons_ne_nil second others, hleading.mp hcount, h⟩, fun h => h.2.2⟩

/-- In a unit with valid imports the two readings agree, unless the first identifier is
ambiguous. -/
theorem classify_eq_type (hs : ctx.symbols.Indexed)
    (himports : ctx.symbols.checkImports ctx.classId = .ok ())
    (hpath : path.segments = first :: rest) (hlocal : scope.find? first = none)
    (hfield : (ctx.hierarchy.members ctx.classId).field? first = none) (range : Span)
    {st : CheckState} (hst : ctx.symbols.AnswersFound st.lookups) :
    (∀ found, (ctx.classify scope path range st).1 = .ok (.type found) ↔
      ctx.symbols.namedType? ctx.classId path = some found ∧
        ¬ ctx.symbols.AmbiguousOnDemand ctx.classId first) ∧
    (ctx.symbols.AmbiguousOnDemand ctx.classId first → ∃ v names,
      (ctx.classify scope path range st).1 = .error v ∧
        v.cause = .ambiguousOnDemandImport first names) := by
  obtain ⟨place, hanswer⟩ := SymbolTable.answers_lookupSimple hs himports hst first range
  rw [classify_of_not_variable hpath hlocal hfield]
  simp only [namedType?_eq_some hpath range]
  cases hfirst : (ctx.symbols.lookupSimple ctx.classId first range st.lookups).1 with
  | error v =>
    obtain ⟨hambiguous, names, hcause⟩ := (hfirst ▸ hanswer).ambiguousOnDemand
    exact ⟨fun found => ⟨nofun, fun h => absurd hambiguous h.2⟩, fun _ => ⟨v, names, rfl, hcause⟩⟩
  | ok answer =>
    have hclear := (hfirst ▸ hanswer).not_ambiguousOnDemand
    rw [SymbolTable.simpleType?_of_lookupSimple hst hfirst]
    refine ⟨fun found => ?_, fun h => absurd h hclear⟩
    cases answer with
    | none => exact (and_iff_left hclear).symm
    | some id => exact (and_iff_left hclear).symm

end Classify

end BodyContext

/-- In an expression of a linked program a dotted name that does not begin with a variable
denotes the type that it denotes in a declaration, unless several packages imported on
demand have a type under its first identifier: then the name in the expression fails. -/
theorem classify_type_iff {program library : List CompilationUnit} {l : Linked}
    (hl : IsLinked program library l) {hierarchy : Hierarchy} {id : ClassId}
    (hid : id < l.symbols.programSize) (ctx : BodyContext)
    (hctx : ctx.toClassContext = l.classContext hierarchy id) (path : QualifiedName) {first : Name}
    {rest : List Name} (hpath : path.segments = first :: rest) (scope : Scope)
    (hlocal : scope.find? first = none) (hfield : (hierarchy.members id).field? first = none)
    (calls before : List LookupCall) (st : CheckState)
    (hst : st.lookups = l.symbols.afterCalls calls l.lookups) (range place : Span) :
    (∀ found, (ctx.classify scope path range st).1 = .ok (.type found) ↔
      (l.symbols.resolveTypeName id path place (l.symbols.afterCalls before l.lookups)).1 =
        .ok found ∧ ¬ l.symbols.AmbiguousOnDemand id first) ∧
    (l.symbols.AmbiguousOnDemand id first → ∃ v names,
      (ctx.classify scope path range st).1 = .error v ∧
        v.cause = .ambiguousOnDemandImport first names) := by
  obtain ⟨s, hbuild, hlink⟩ := hl
  obtain ⟨rfl, -⟩ := SymbolTable.link_run hlink
  have himports := SymbolTable.link_checkImports hlink
    (Nat.lt_of_lt_of_le hid (SymbolTable.build_programSize_le hbuild))
  have hrecorded (calls : List LookupCall) :=
    (SymbolTable.afterCalls_recorded calls (SymbolTable.link_lowers hlink).2.1).1
  obtain ⟨cls, member, isStatic, thisForbidden, expectedReturn, throws⟩ := ctx
  obtain rfl : cls = l.classContext hierarchy id := hctx
  simp only [SymbolTable.resolveTypeName_eq_ok (hrecorded before)]
  exact BodyContext.classify_eq_type (SymbolTable.build_indexed hbuild) himports hpath hlocal hfield
    range (hst ▸ (hrecorded calls).found)

/-- A class whose method declares a variable of the class `foo.Bar` and calls a method of
that class. -/
def fooMain : TypeBlueprint :=
  { Library.classNamed "Main" with
    methods := [{ Library.procedure "run" with
      body := some [.localVar () (Library.named "foo.Bar") "bar" none,
        .expression () (.callOn () (.named () (.ofDotted "foo.Bar")) "use" [])] }] }

/-- That class with two imports on demand, of packages that both have a class `foo`. -/
def fooUnits : List CompilationUnit :=
  [{ imports := [.onDemand (.ofDotted "left") {}, .onDemand (.ofDotted "right") {}]
     decl := fooMain.toDecl },
    Library.toUnit "left" (Library.classNamed "foo"),
    Library.toUnit "right" (Library.classNamed "foo"),
    Library.toUnit "foo" { Library.classNamed "Bar" with
      methods := [{ Library.staticProcedure "use" with body := some [] }] }]

/-- The full name of the class. -/
def fooBar : QualifiedName := .ofDotted "foo.Bar"

/-- The body of the method. -/
def fooContext (l : Linked) (h : Hierarchy) : BodyContext :=
  { toClassContext := l.classContext h 0, member := "run" }

theorem exists_foo_linked : ∃ l h, HasHierarchy fooUnits coreUnits l h ∧
    0 < l.symbols.programSize ∧ (h.members 0).field? "foo" = none ∧
    (l.symbols.resolveTypeName 0 fooBar {} l.lookups).1 = .ok 3 ∧
    ((fooContext l h).classify [] fooBar {} { lookups := l.lookups }).1 ≠ .ok (.type 3) := by
  obtain ⟨l, h, hh, htest⟩ := exists_hasHierarchy fooUnits coreUnits (fun l h => decide (
    0 < l.symbols.programSize ∧ (h.members 0).field? "foo" = none ∧
    (l.symbols.resolveTypeName 0 fooBar {} l.lookups).1 = .ok 3 ∧
    ((fooContext l h).classify [] fooBar {} { lookups := l.lookups }).1 ≠ .ok (.type 3)))
    (by decide +kernel)
  exact ⟨l, h, hh, of_decide_eq_true htest⟩

/-- The name of the class denotes it in the declaration only. -/
theorem foo_read_in_two_ways :
    ¬ ∀ l h, HasHierarchy fooUnits coreUnits l h → (h.members 0).field? "foo" = none →
      ∀ ctx : BodyContext, ctx.toClassContext = l.classContext h 0 → ∀ found,
        ((ctx.classify [] fooBar {} { lookups := l.lookups }).1 = .ok (.type found) ↔
          (l.symbols.resolveTypeName 0 fooBar {} l.lookups).1 = .ok found) := by
  intro hsame
  obtain ⟨l, h, hh, -, hfield, hresolves, hclassifies⟩ := exists_foo_linked
  exact hclassifies ((hsame l h hh hfield _ rfl 3).mpr hresolves)

/-- In the call the first identifier of the name is ambiguous. -/
theorem foo_call_fails : ∃ l h, HasHierarchy fooUnits coreUnits l h ∧
    l.symbols.AmbiguousOnDemand 0 "foo" ∧
    ∃ v names, ((fooContext l h).classify [] fooBar {} { lookups := l.lookups }).1 = .error v ∧
        v.cause = .ambiguousOnDemandImport "foo" names := by
  obtain ⟨l, h, hh, hid, hfield, hresolves, hclassifies⟩ := exists_foo_linked
  obtain ⟨s, hbuild, hlink, -⟩ := id hh
  obtain ⟨hiff, hfails⟩ := classify_type_iff ⟨s, hbuild, hlink⟩ hid (fooContext l h) rfl fooBar rfl
    [] rfl hfield [] [] { lookups := l.lookups } rfl {} {}
  have hambiguous : l.symbols.AmbiguousOnDemand 0 "foo" := by
    by_contra hclear
    exact hclassifies ((hiff 3).mpr ⟨hresolves, hclear⟩)
  exact ⟨l, h, hh, hambiguous, hfails hambiguous⟩

end JoosStatics
