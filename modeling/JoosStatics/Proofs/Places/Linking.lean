/-
JoosStatics.Proofs.Places.Linking — linking with other spans.

Two runs of the linker, on units that differ in spans and files only,
remember the same answers and come to the same result, up to spans: a
violation of one is the violation of the other at the place that stands for
its place. Declarations are walked as by any `PairedLinkers`; what is shown here is
that imports, lookups and bodies are paired.
-/
import JoosStatics.Linking.Packages
import JoosStatics.Proofs.Linking.Lockstep

namespace JoosStatics

variable (f : Span → Span)

/-! ## §1 Symbol tables -/

/-- Two outcomes are the same up to spans. -/
abbrev SameUpTo {α α' : Type} (R : α → α' → Prop) (x : Except Violation α)
    (x' : Except Violation α') : Prop :=
  Alike (fun v v' => v' = v.mapSpan f) R x x'

theorem CompilationUnit.sameSignature_mapSpans (u : CompilationUnit) :
    u.SameSignature f (u.mapSpans f) where
  typeName := u.typeName_mapSpans f
  kind := rfl
  modifiers := rfl
  superclass := rfl
  interfaces := rfl
  fields := rfl
  methods := rfl
  constructors := rfl
  range := rfl

/-- The same import at another place. -/
def SingleImport.mapSpan (i : SingleImport) : SingleImport := { i with range := f i.range }

/-- The same import at another place. -/
def OnDemandImport.mapSpan (i : OnDemandImport) : OnDemandImport := { i with range := f i.range }

namespace SymbolTable

/-- The same units with other spans, and without their files. -/
def mapSpans (s : SymbolTable) : SymbolTable :=
  { s with units := s.units.map (CompilationUnit.mapSpans f) }

variable (s : SymbolTable)

@[simp] theorem size_mapSpans : (s.mapSpans f).size = s.size := by
  simp [size, mapSpans]

@[simp] theorem ids_mapSpans : (s.mapSpans f).ids = s.ids := by
  simp [ids]

theorem programIds_mapSpans : (s.mapSpans f).programIds = s.programIds := rfl

theorem add_mapSpans (unit : CompilationUnit) :
    SameUpTo f (fun s s' => s' = s.mapSpans f) (s.add unit)
      ((s.mapSpans f).add (unit.mapSpans f)) := by
  have hsame : (s.mapSpans f).byName.contains (unit.mapSpans f).typeName =
      s.byName.contains unit.typeName := rfl
  unfold add
  simp only [hsame]
  split
  · exact .error rfl
  · refine .ok ?_
    simp only [mapSpans, size, Array.map_push, Array.size_map]
    rfl

theorem addAll_mapSpans (units : List CompilationUnit) :
    SameUpTo f (fun s s' => s' = s.mapSpans f) (s.addAll units)
      ((s.mapSpans f).addAll (units.map (CompilationUnit.mapSpans f))) := by
  induction units generalizing s with
  | nil => exact .ok rfl
  | cons unit units ih =>
    have hadd := s.add_mapSpans f unit
    unfold addAll
    simp only [List.map_cons]
    cases hrun : s.add unit with
    | error v =>
      rw [hrun] at hadd
      generalize (s.mapSpans f).add (unit.mapSpans f) = result at hadd
      cases hadd with
      | error h => exact .error h
    | ok added =>
      rw [hrun] at hadd
      generalize (s.mapSpans f).add (unit.mapSpans f) = result at hadd
      cases hadd with
      | ok h =>
        subst h
        exact ih added

/-- The tables of two programs that differ in spans and files only do so, too. -/
theorem build_mapSpans (program library : List CompilationUnit) :
    SameUpTo f (fun s s' => s' = s.mapSpans f) (build program library)
      (build (program.map (CompilationUnit.mapSpans f))
        (library.map (CompilationUnit.mapSpans f))) := by
  have hall := ({ programSize := program.length } : SymbolTable).addAll_mapSpans f
    (program ++ library)
  have hempty : ({ programSize := program.length } : SymbolTable).mapSpans f =
      { programSize := program.length } := by
    simp [mapSpans]
  unfold build
  rw [List.length_map, ← List.map_append]
  rwa [hempty] at hall

section Places

variable {f} {s} (hf : f {} = {})
include hf

theorem unitAt_mapSpans (id : ClassId) :
    (s.mapSpans f).unitAt id = (s.unitAt id).mapSpans f := by
  unfold unitAt mapSpans
  rw [Array.getD_eq_getD_getElem?, Array.getD_eq_getD_getElem?, Array.getElem?_map]
  cases s.units[id]? with
  | some d => rfl
  | none =>
    show (default : CompilationUnit) = CompilationUnit.mapSpans f default
    simp [CompilationUnit.mapSpans, TypeDecl.mapSpans, BodyArena.mapSpans, default, hf]

theorem locate_mapSpans (id : ClassId) (range : Span) :
    (s.mapSpans f).locate id (f range) = (s.locate id range).mapSpan f := by
  unfold locate
  rw [unitAt_mapSpans hf]
  rfl

theorem single_mapSpans (id : ClassId) :
    ((s.mapSpans f).importsOf id).single = (s.importsOf id).single.map (SingleImport.mapSpan f) := by
  unfold importsOf Imports.ofUnit
  rw [unitAt_mapSpans hf]
  simp only [CompilationUnit.mapSpans, List.filterMap_map, List.map_filterMap]
  refine List.filterMap_congr (fun imp _ => ?_)
  cases imp with
  | single path range =>
    simp only [Function.comp_apply, ImportDecl.mapSpan, ImportDecl.single?]
    cases path.last? <;> rfl
  | onDemand package range => rfl

theorem onDemand_mapSpans (id : ClassId) :
    ((s.mapSpans f).importsOf id).onDemand =
      (s.importsOf id).onDemand.map (OnDemandImport.mapSpan f) := by
  have hjavaLang : Imports.javaLang = Imports.javaLang.mapSpan f := by
    simp [Imports.javaLang, OnDemandImport.mapSpan, hf]
  unfold importsOf Imports.ofUnit
  rw [unitAt_mapSpans hf, List.map_append, List.map_singleton, ← hjavaLang]
  simp only [CompilationUnit.mapSpans, List.filterMap_map, List.map_filterMap]
  congr 1
  refine List.filterMap_congr (fun imp _ => ?_)
  cases imp <;> rfl

/-! ## §2 Imports -/

theorem checkSingleImports_mapSpans (id : ClassId) (earlier imports : List SingleImport) :
    SameUpTo f (fun _ _ => True) (s.checkSingleImports id earlier imports)
      ((s.mapSpans f).checkSingleImports id (earlier.map (SingleImport.mapSpan f))
        (imports.map (SingleImport.mapSpan f))) := by
  induction imports generalizing earlier with
  | nil => exact .ok trivial
  | cons imp rest ih =>
    have hfail (cause : Cause) : SameUpTo f (fun _ _ => True)
        (.error { cause, location := s.locate id imp.range } : Except Violation Unit)
        (.error { cause, location := (s.mapSpans f).locate id (f imp.range) } :
          Except Violation Unit) :=
      .error (congrArg _ (locate_mapSpans hf id imp.range))
    have hlookup : (s.mapSpans f).lookup (imp.mapSpan f).path = s.lookup imp.path := rfl
    rw [List.map_cons]
    unfold checkSingleImports
    simp only [hlookup, unitAt_mapSpans hf, List.find?_map]
    split
    · exact hfail _
    · split
      · rename_i hclash
        rw [if_pos (show (imp.mapSpan f).imported = ((s.unitAt id).mapSpans f).decl.name ∧
          (imp.mapSpan f).path ≠ ((s.unitAt id).mapSpans f).typeName from hclash)]
        exact hfail _
      · rename_i hclash
        rw [if_neg (show ¬ ((imp.mapSpan f).imported = ((s.unitAt id).mapSpans f).decl.name ∧
          (imp.mapSpan f).path ≠ ((s.unitAt id).mapSpans f).typeName) from hclash)]
        have hsame : (fun e : SingleImport => decide (e.imported = (imp.mapSpan f).imported ∧
            e.path ≠ (imp.mapSpan f).path)) ∘ SingleImport.mapSpan f =
            fun e => decide (e.imported = imp.imported ∧ e.path ≠ imp.path) := rfl
        rw [hsame]
        cases earlier.find? (fun e => decide (e.imported = imp.imported ∧ e.path ≠ imp.path)) with
        | some e => exact hfail _
        | none =>
          have hnext := ih (earlier ++ [imp])
          rwa [List.map_append, List.map_singleton] at hnext

theorem checkOnDemandImports_mapSpans (id : ClassId) (imports : List OnDemandImport) :
    SameUpTo f (fun _ _ => True) (s.checkOnDemandImports id imports)
      ((s.mapSpans f).checkOnDemandImports id (imports.map (OnDemandImport.mapSpan f))) := by
  induction imports with
  | nil => exact .ok trivial
  | cons imp rest ih =>
    have hexists : (s.mapSpans f).packageExists (imp.mapSpan f).package =
        s.packageExists imp.package := rfl
    rw [List.map_cons]
    unfold checkOnDemandImports
    simp only [hexists]
    split
    · exact ih
    · exact .error (congrArg _ (locate_mapSpans hf id imp.range))

theorem checkImports_mapSpans (id : ClassId) :
    SameUpTo f (fun _ _ => True) (s.checkImports id) ((s.mapSpans f).checkImports id) := by
  have hexplicit : ((s.mapSpans f).importsOf id).explicitOnDemand =
      (s.importsOf id).explicitOnDemand.map (OnDemandImport.mapSpan f) := by
    unfold Imports.explicitOnDemand
    rw [onDemand_mapSpans hf, List.filter_map]
    rfl
  unfold checkImports
  rw [single_mapSpans hf, hexplicit]
  exact .bind (checkSingleImports_mapSpans hf id [] _) (fun _ _ _ =>
    checkOnDemandImports_mapSpans hf id _)

/-! ## §3 Lookups -/

theorem onDemandHits_mapSpans (ctx : ClassId) (name : Name) :
    (s.mapSpans f).onDemandHits ctx name = s.onDemandHits ctx name := by
  unfold onDemandHits
  rw [onDemand_mapSpans hf, List.filterMap_map]
  rfl

theorem findImported_mapSpans (ctx : ClassId) (name : Name) (range : Span) (first : SingleImport)
    (others : List SingleImport) :
    (s.mapSpans f).findImported ctx name (f range) (first.mapSpan f)
        (others.map (SingleImport.mapSpan f)) =
      (s.findImported ctx name range first others).mapError (Violation.mapSpan f) := by
  have hpath : (fun imp : SingleImport => decide (imp.path ≠ (first.mapSpan f).path)) ∘
      SingleImport.mapSpan f = fun imp => decide (imp.path ≠ first.path) := rfl
  have hlookup : (s.mapSpans f).lookup (first.mapSpan f).path = s.lookup first.path := rfl
  have hplace : (s.mapSpans f).locate ctx (first.mapSpan f).range =
      (s.locate ctx first.range).mapSpan f := locate_mapSpans hf ctx first.range
  unfold findImported
  rw [List.find?_map, hpath, hlookup, hplace, locate_mapSpans hf]
  cases others.find? (fun imp => decide (imp.path ≠ first.path)) with
  | some other => rfl
  | none => cases s.lookup first.path <;> rfl

/-- A search finds the same. -/
theorem findSimple_mapSpans (ctx : ClassId) (name : Name) (range : Span) :
    (s.mapSpans f).findSimple ctx name (f range) =
      ((s.findSimple ctx name range).1.mapError (Violation.mapSpan f),
        (s.findSimple ctx name range).2) := by
  have hname (id : ClassId) :
      ((s.mapSpans f).unitAt id).typeName.toDotted = (s.unitAt id).typeName.toDotted := by
    rw [unitAt_mapSpans hf, CompilationUnit.typeName_mapSpans]
  have hown : ((s.mapSpans f).unitAt ctx).decl.name = (s.unitAt ctx).decl.name := by
    rw [unitAt_mapSpans hf]
    rfl
  have hpackage : ((s.mapSpans f).unitAt ctx).packageName = (s.unitAt ctx).packageName := by
    rw [unitAt_mapSpans hf]
    rfl
  have himported : (fun imp : SingleImport => decide (imp.imported = name)) ∘
      SingleImport.mapSpan f = fun imp => decide (imp.imported = name) := rfl
  have hlookupIn : (s.mapSpans f).lookupIn = s.lookupIn := rfl
  have hlibrary : (s.mapSpans f).isLibrary = s.isLibrary := rfl
  unfold findSimple
  simp only [hown, hpackage, hname, hlookupIn, hlibrary, single_mapSpans hf, List.filter_map,
    himported, onDemandHits_mapSpans hf, locate_mapSpans hf]
  split
  · rfl
  · cases (s.importsOf ctx).single.filter (fun imp => decide (imp.imported = name)) with
    | cons first others =>
      simp only [List.map_cons, findImported_mapSpans hf]
    | nil =>
      simp only [List.map_nil]
      cases s.lookupIn (s.unitAt ctx).packageName name with
      | some id => rfl
      | none =>
        simp only
        match distinctHits (s.onDemandHits ctx name) with
        | [] => rfl
        | [_] => rfl
        | _ :: _ :: _ => rfl

end Places

end SymbolTable

/-- The same answers, with violations at other places. -/
def LookupState.mapSpans (st : LookupState) : LookupState :=
  { st with answers := st.answers.map (fun entry =>
      (entry.1, entry.2.mapError (Violation.mapSpan f))) }

theorem LookupState.lookup_mapSpans (st : LookupState) (key : ClassId × Name) :
    (st.mapSpans f).answers.lookup key =
      (st.answers.lookup key).map (Except.mapError (Violation.mapSpan f)) := by
  unfold mapSpans
  induction st.answers with
  | nil => rfl
  | cons entry rest ih =>
    rw [List.map_cons, List.lookup_cons, List.lookup_cons, ih]
    cases key == entry.1 <;> rfl

/-- Two computations that look names up do the same up to spans. -/
abbrev LooksAlike {α α' : Type} (R : α → α' → Prop) (x : LookupM α) (x' : LookupM α') : Prop :=
  Simulates (fun st st' => st' = st.mapSpans f) (fun v v' => v' = v.mapSpan f) R x x'

namespace SymbolTable

variable {f} {s : SymbolTable} (hf : f {} = {})
include hf

/-- A lookup answers and remembers the same. -/
theorem lookupSimple_run_mapSpans (ctx : ClassId) (name : Name) (range : Span) (st : LookupState) :
    (s.mapSpans f).lookupSimple ctx name (f range) (st.mapSpans f) =
      ((s.lookupSimple ctx name range st).1.mapError (Violation.mapSpan f),
        (s.lookupSimple ctx name range st).2.mapSpans f) := by
  cases hanswer : st.answers.lookup (ctx, name) with
  | some answer =>
    have hanswer' := st.lookup_mapSpans f (ctx, name)
    rw [hanswer] at hanswer'
    rw [lookupSimple_of_answer hanswer, lookupSimple_of_answer hanswer']
  | none =>
    have hanswer' := st.lookup_mapSpans f (ctx, name)
    rw [hanswer] at hanswer'
    rw [lookupSimple_of_none hanswer, lookupSimple_of_none hanswer', findSimple_mapSpans hf]
    rfl

theorem lookupSimple_mapSpans (ctx : ClassId) (name : Name) (range : Span) :
    LooksAlike f Eq (s.lookupSimple ctx name range)
      ((s.mapSpans f).lookupSimple ctx name (f range)) := by
  intro st st' hst
  subst hst
  rw [lookupSimple_run_mapSpans hf]
  refine ⟨rfl, ?_⟩
  cases (s.lookupSimple ctx name range st).1 with
  | ok found => exact .ok rfl
  | error v => exact .error rfl

theorem pairedLookups_mapSpans :
    PairedLookups f (fun st st' => st' = st.mapSpans f) (fun v v' => v' = v.mapSpan f) s
      (s.mapSpans f) where
  lookup := rfl
  broken ctx range _ := congrArg _ (locate_mapSpans hf ctx range)
  lookupSimple := lookupSimple_mapSpans hf

/-! ## §4 Bodies and signatures -/

theorem linkBodies_mapSpans (id : ClassId) (d : TypeDecl) :
    LooksAlike f (fun _ _ => True) (s.linkBodies id d)
      ((s.mapSpans f).linkBodies id (d.mapSpans f)) := by
  have hlibrary : (s.mapSpans f).isLibrary id = s.isLibrary id := rfl
  have htypes : (d.mapSpans f).bodies.writtenTypes =
      d.bodies.writtenTypes.map (TypeSyntax.mapSpans f) := d.bodies.writtenTypes_mapSpans f
  unfold linkBodies
  rw [hlibrary, htypes]
  split
  · exact Simulates.forM (fun type _ =>
      .bind ((pairedLookups_mapSpans hf).resolveType id type) (fun _ _ _ => .pure trivial))
  · exact .pure trivial

/-- Units and the same ones with other spans are linked side by side. -/
theorem pairedLinkers_mapSpans :
    PairedLinkers f (fun st st' => st' = st.mapSpans f) (fun v v' => v' = v.mapSpan f) s
      (s.mapSpans f) where
  toPairedLookups := pairedLookups_mapSpans hf
  ids := s.ids_mapSpans f
  missing _ := rfl
  checkImports := checkImports_mapSpans hf
  signature id := by
    rw [unitAt_mapSpans hf]
    exact (s.unitAt id).sameSignature_mapSpans f
  linkBodies id := by
    rw [unitAt_mapSpans hf]
    exact linkBodies_mapSpans hf id (s.unitAt id).decl

/-! ## §5 The stage -/

theorem checkPackageClashes_mapSpans (used : OrderedSet PackageName) :
    SameUpTo f Eq (s.checkPackageClashes used) ((s.mapSpans f).checkPackageClashes used) := by
  have hpackage (id : ClassId) : ((s.mapSpans f).unitAt id).packageName =
      (s.unitAt id).packageName := by
    rw [unitAt_mapSpans hf]
    rfl
  have hname (id : ClassId) : ((s.mapSpans f).unitAt id).typeName = (s.unitAt id).typeName := by
    rw [unitAt_mapSpans hf]
    rfl
  have hpackages : (s.mapSpans f).referencedPackages used = s.referencedPackages used := by
    unfold referencedPackages
    simp only [programIds_mapSpans, hpackage, single_mapSpans hf, List.map_map]
    rfl
  have hclash : (s.mapSpans f).clashOf? = s.clashOf? := rfl
  unfold checkPackageClashes
  simp only [hpackages, hclash, hname]
  split
  · exact .ok rfl
  · exact .error rfl

end SymbolTable

/-- The same linked program with other spans. -/
def Linked.mapSpans (l : Linked) : Linked where
  symbols := l.symbols.mapSpans f
  table := l.table.mapSpans f
  lookups := l.lookups.mapSpans f

/-- Two programs that differ in spans and files only are linked to the same, up to
spans. -/
theorem SymbolTable.link_mapSpans {f : Span → Span} (hf : f {} = {}) (s : SymbolTable) :
    SameUpTo f (fun l l' => l' = l.mapSpans f) s.link (s.mapSpans f).link := by
  have hlower := (pairedLinkers_mapSpans (s := s) hf).lowerAll {} {} rfl
  unfold link
  revert hlower
  rcases s.lowerAll {} with ⟨result, lookups⟩
  rcases (s.mapSpans f).lowerAll {} with ⟨result', lookups'⟩
  rintro ⟨rfl, hresult⟩
  refine .bind hresult (fun t t' ht => ?_)
  refine .bind (checkPackageClashes_mapSpans hf lookups.usedPackages) (fun _ _ _ => ?_)
  subst ht
  exact .ok rfl

end JoosStatics
