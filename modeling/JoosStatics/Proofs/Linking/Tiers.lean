/-
JoosStatics.Proofs.Linking.Tiers — the four tiers in which a simple name is
looked for.

A simple name denotes the unit's own type; failing that, the type of a
single-type import; failing that, a type of the unit's package; failing
that, a type of a package that is imported on demand. §1 states these tiers
over the imports as they are written and the types as they are declared, so
that an answer is right or wrong without a search (`Answers`). §2 shows that
the search gives the one right answer where imports are valid.

* `findSimple_answers`, `Answers.eq_findSimple` — the answer of a search is right,
  and there is no other right one.
* `lookupSimple_tiers` — the same of lookups, and what they never answer.
-/
import JoosStatics.Proofs.Linking.Ambiguity
import JoosStatics.Proofs.Linking.Calls
import JoosStatics.Proofs.Linking.Resolution

namespace JoosStatics

/-! ## §1 Tiers -/

namespace CompilationUnit

/-- A single-type import that ends in a simple name. -/
def ImportsSingle (u : CompilationUnit) (path : QualifiedName) (name : Name) : Prop :=
  path.last? = some name ∧ ∃ range, .single path range ∈ u.imports

/-- A package is imported on demand; `java.lang` is so without being written. -/
def ImportsOnDemand (u : CompilationUnit) (package : PackageName) : Prop :=
  package = .ofDotted "java.lang" ∨ ∃ range, .onDemand package range ∈ u.imports

end CompilationUnit

namespace SymbolTable

variable {s : SymbolTable} {ctx : ClassId} {name : Name} {range : Span}

/-- A type has a full name. -/
def HasFullName (s : SymbolTable) (id : ClassId) (path : QualifiedName) : Prop :=
  id < s.size ∧ (s.unitAt id).typeName = path

/-- A type is declared in a package under a simple name. -/
def DeclaredIn (s : SymbolTable) (package : PackageName) (name : Name) (id : ClassId) : Prop :=
  id < s.size ∧ (s.unitAt id).packageName = package ∧ (s.unitAt id).decl.name = name

/-- A package that is imported on demand declares a type under a simple name. -/
def Supplies (s : SymbolTable) (ctx : ClassId) (name : Name) (id : ClassId) : Prop :=
  ∃ package, (s.unitAt ctx).ImportsOnDemand package ∧ s.DeclaredIn package name id

/-- A name is not known before the packages that are imported on demand. -/
structure OnlyOnDemand (s : SymbolTable) (ctx : ClassId) (name : Name) : Prop where
  own : (s.unitAt ctx).decl.name ≠ name
  imported : ∀ path, ¬ (s.unitAt ctx).ImportsSingle path name
  package : ∀ id, ¬ s.DeclaredIn (s.unitAt ctx).packageName name id

/-- The right answer to a simple name at a place of a unit. -/
inductive Answers (s : SymbolTable) (ctx : ClassId) (name : Name) (range : Span) :
    SimpleAnswer → Prop
  | own (h : (s.unitAt ctx).decl.name = name) : s.Answers ctx name range (.ok (some ctx))
  | imported {path : QualifiedName} {id : ClassId} (hown : (s.unitAt ctx).decl.name ≠ name)
      (himport : (s.unitAt ctx).ImportsSingle path name) (hid : s.HasFullName id path) :
      s.Answers ctx name range (.ok (some id))
  | package {id : ClassId} (hown : (s.unitAt ctx).decl.name ≠ name)
      (himports : ∀ path, ¬ (s.unitAt ctx).ImportsSingle path name)
      (hid : s.DeclaredIn (s.unitAt ctx).packageName name id) :
      s.Answers ctx name range (.ok (some id))
  | unknown (h : s.OnlyOnDemand ctx name) (hnone : ∀ id, ¬ s.Supplies ctx name id) :
      s.Answers ctx name range (.ok none)
  | onDemand {id : ClassId} (h : s.OnlyOnDemand ctx name)
      (hid : ∀ other, s.Supplies ctx name other ↔ other = id) :
      s.Answers ctx name range (.ok (some id))
  | ambiguous {ids : List ClassId} (h : s.OnlyOnDemand ctx name)
      (hids : ∀ id, s.Supplies ctx name id ↔ id ∈ ids) (hsorted : ids.Pairwise (· < ·))
      (hseveral : 2 ≤ ids.length) :
      s.Answers ctx name range (.error {
        cause := .ambiguousOnDemandImport name
          (ids.map (fun id => (s.unitAt id).typeName.toDotted))
        location := s.locate ctx range })

/-- A name is left to the packages that are imported on demand, and several of them supply
a type under it. -/
def AmbiguousOnDemand (s : SymbolTable) (ctx : ClassId) (name : Name) : Prop :=
  s.OnlyOnDemand ctx name ∧
    ∃ id other, id ≠ other ∧ s.Supplies ctx name id ∧ s.Supplies ctx name other

/-- A right answer fails for an ambiguous name only. -/
theorem Answers.ambiguousOnDemand {v : Violation} (h : s.Answers ctx name range (.error v)) :
    s.AmbiguousOnDemand ctx name ∧ ∃ names, v.cause = .ambiguousOnDemandImport name names := by
  cases h with
  | @ambiguous ids honly hids hsorted hseveral =>
    refine ⟨⟨honly, ?_⟩, _, rfl⟩
    match ids, hseveral with
    | id :: other :: _, _ =>
      have hlt := List.rel_of_pairwise_cons hsorted List.mem_cons_self
      exact ⟨id, other, Nat.ne_of_lt hlt, (hids id).mpr List.mem_cons_self,
        (hids other).mpr (List.mem_cons_of_mem _ List.mem_cons_self)⟩

/-- A name is not ambiguous when there is a right answer that does not fail. -/
theorem Answers.not_ambiguousOnDemand {found : Option ClassId}
    (h : s.Answers ctx name range (.ok found)) : ¬ s.AmbiguousOnDemand ctx name := by
  rintro ⟨honly, id, other, hne, hid, hother⟩
  cases h with
  | own hown => exact honly.own hown
  | imported _ himport => exact honly.imported _ himport
  | package _ _ hdeclared => exact honly.package _ hdeclared
  | unknown _ hnone => exact hnone id hid
  | onDemand _ honce => exact hne (((honce id).mp hid).trans ((honce other).mp hother).symm)

theorem mem_importsOf_single {imp : SingleImport} :
    imp ∈ (s.importsOf ctx).single ↔
      imp.path.last? = some imp.imported ∧ .single imp.path imp.range ∈ (s.unitAt ctx).imports := by
  obtain ⟨path, imported, range⟩ := imp
  unfold importsOf Imports.ofUnit
  simp only [List.mem_filterMap]
  constructor
  · rintro ⟨decl, hdecl, himp⟩
    cases decl with
    | onDemand => cases himp
    | single path' range' =>
      obtain ⟨last, hlast, heq⟩ := Option.map_eq_some_iff.mp himp
      cases heq
      exact ⟨hlast, hdecl⟩
  · rintro ⟨hlast, hdecl⟩
    exact ⟨_, hdecl, Option.map_eq_some_iff.mpr ⟨imported, hlast, rfl⟩⟩

/-- The imports that a search considers are those that are written. -/
theorem importsSingle_iff {path : QualifiedName} :
    (s.unitAt ctx).ImportsSingle path name ↔
      ∃ imp ∈ (s.importsOf ctx).single, imp.imported = name ∧ imp.path = path := by
  constructor
  · rintro ⟨hlast, range, hdecl⟩
    exact ⟨⟨path, name, range⟩, mem_importsOf_single.mpr ⟨hlast, hdecl⟩, rfl, rfl⟩
  · rintro ⟨imp, himp, rfl, rfl⟩
    obtain ⟨hlast, hdecl⟩ := mem_importsOf_single.mp himp
    exact ⟨hlast, imp.range, hdecl⟩

theorem importsOnDemand_iff {package : PackageName} :
    (s.unitAt ctx).ImportsOnDemand package ↔
      ∃ imp ∈ (s.importsOf ctx).onDemand, imp.package = package := by
  unfold CompilationUnit.ImportsOnDemand importsOf Imports.ofUnit
  simp only [List.mem_append, List.mem_filterMap, List.mem_singleton]
  constructor
  · rintro (rfl | ⟨range, hdecl⟩)
    · exact ⟨Imports.javaLang, .inr rfl, rfl⟩
    · exact ⟨_, .inl ⟨_, hdecl, rfl⟩, rfl⟩
  · rintro ⟨imp, ⟨decl, hdecl, himp⟩ | rfl, rfl⟩
    · cases decl with
      | single => cases himp
      | onDemand package range =>
        cases himp
        exact .inr ⟨range, hdecl⟩
    · exact .inl rfl

/-! ## §2 Searches -/

/-- What is answered when packages imported on demand supply certain types. -/
def onDemandAnswer (s : SymbolTable) (ctx : ClassId) (name : Name) (range : Span) :
    List ClassId → SimpleAnswer
  | [] => .ok none
  | [id] => .ok (some id)
  | ids => .error {
      cause := .ambiguousOnDemandImport name (ids.map (fun id => (s.unitAt id).typeName.toDotted))
      location := s.locate ctx range }

section Search

variable (hs : s.Indexed)

theorem findSimple_of_own (h : (s.unitAt ctx).decl.name = name) :
    (s.findSimple ctx name range).1 = .ok (some ctx) := by
  unfold findSimple
  dsimp only
  rw [if_pos h]

/-- Valid imports agree, whichever comes first. -/
theorem agrees_of_checkImports (himports : s.checkImports ctx = .ok ()) {imp other : SingleImport}
    (himp : imp ∈ (s.importsOf ctx).single) (hother : other ∈ (s.importsOf ctx).single) :
    imp.Agrees other := by
  have hsymm : Std.Symm SingleImport.Agrees := ⟨fun _ _ h heq => (h heq.symm).symm⟩
  exact List.Pairwise.forall_of_forall (fun _ _ _ => rfl) (checkImports_eq_ok.mp himports).2.1
    himp hother

/-- Valid imports of a name denote the type that any of them names. -/
theorem findSimple_of_importsSingle (himports : s.checkImports ctx = .ok ()) {path : QualifiedName}
    (hown : (s.unitAt ctx).decl.name ≠ name) (himport : (s.unitAt ctx).ImportsSingle path name)
    (range : Span) :
    ∃ id, s.lookup path = some id ∧ (s.findSimple ctx name range).1 = .ok (some id) := by
  obtain ⟨imp, himp, himported, rfl⟩ := importsSingle_iff.mp himport
  have hmem : imp ∈ (s.importsOf ctx).single.filter (fun imp => imp.imported = name) :=
    List.mem_filter.mpr ⟨himp, decide_eq_true himported⟩
  unfold findSimple
  dsimp only
  rw [if_neg hown]
  cases hfilter : (s.importsOf ctx).single.filter (fun imp => imp.imported = name) with
  | nil => exact absurd (hfilter ▸ hmem) List.not_mem_nil
  | cons first others =>
    obtain ⟨id, hid⟩ := findImported_isOk range himports hfilter
    have hfirst := List.mem_filter.mp (hfilter ▸ List.mem_cons_self : first ∈ List.filter _ _)
    have hagree := agrees_of_checkImports himports himp hfirst.1
    refine ⟨id, ?_, hid⟩
    rw [hagree (himported.trans (of_decide_eq_true hfirst.2).symm)]
    exact findImported_eq_ok hid

/-- Where nothing is imported under a name, the search goes on in the package. -/
theorem filter_single_eq_nil (h : ∀ path, ¬ (s.unitAt ctx).ImportsSingle path name) :
    (s.importsOf ctx).single.filter (fun imp => imp.imported = name) = [] :=
  List.filter_eq_nil_iff.mpr (fun imp himp himported =>
    h imp.path (importsSingle_iff.mpr ⟨imp, himp, of_decide_eq_true himported, rfl⟩))

include hs

theorem findSimple_of_declaredIn {id : ClassId} (hown : (s.unitAt ctx).decl.name ≠ name)
    (himports : ∀ path, ¬ (s.unitAt ctx).ImportsSingle path name)
    (hid : s.DeclaredIn (s.unitAt ctx).packageName name id) :
    (s.findSimple ctx name range).1 = .ok (some id) := by
  unfold findSimple
  dsimp only
  rw [if_neg hown, filter_single_eq_nil himports, hs.lookupIn_iff.mpr hid]

theorem findSimple_of_onlyOnDemand (h : s.OnlyOnDemand ctx name) :
    (s.findSimple ctx name range).1 =
      s.onDemandAnswer ctx name range (distinctHits (s.onDemandHits ctx name)) := by
  have hpackage : s.lookupIn (s.unitAt ctx).packageName name = none :=
    Option.eq_none_iff_forall_ne_some.mpr (fun id hid => h.package id (hs.lookupIn_iff.mp hid))
  unfold findSimple
  dsimp only
  rw [if_neg h.own, filter_single_eq_nil h.imported, hpackage]
  match distinctHits (s.onDemandHits ctx name) with
  | [] => rfl
  | [_] => rfl
  | _ :: _ :: _ => rfl

theorem supplies_iff {id : ClassId} :
    s.Supplies ctx name id ↔ id ∈ distinctHits (s.onDemandHits ctx name) := by
  unfold Supplies onDemandHits DeclaredIn
  rw [mem_distinctHits]
  simp only [importsOnDemand_iff, ← hs.lookupIn_iff, List.mem_map, List.mem_filterMap,
    Option.map_eq_some_iff]
  constructor
  · rintro ⟨_, ⟨imp, himp, rfl⟩, hid⟩
    exact ⟨_, ⟨imp, himp, id, hid, rfl⟩, rfl⟩
  · rintro ⟨_, ⟨imp, himp, found, hid, rfl⟩, rfl⟩
    exact ⟨_, ⟨imp, himp, rfl⟩, hid⟩

/-- The distinct types among the hits are determined by what the packages supply. -/
theorem distinctHits_eq (ids : List ClassId) (hids : ∀ id, s.Supplies ctx name id ↔ id ∈ ids)
    (hsorted : ids.Pairwise (· < ·)) : distinctHits (s.onDemandHits ctx name) = ids := by
  have hperm : (distinctHits (s.onDemandHits ctx name)).Perm ids :=
    (List.perm_ext_iff_of_nodup (nodup_distinctHits _) (hsorted.imp Nat.ne_of_lt)).mpr
      (fun id => (supplies_iff hs).symm.trans (hids id))
  exact hperm.eq_of_pairwise (fun _ _ _ _ hab hba => absurd hba (Nat.lt_asymm hab))
    (pairwise_distinctHits _) hsorted

/-- The answer of a search is right. -/
theorem findSimple_answers (himports : s.checkImports ctx = .ok ()) :
    s.Answers ctx name range (s.findSimple ctx name range).1 := by
  by_cases hown : (s.unitAt ctx).decl.name = name
  · rw [findSimple_of_own hown]
    exact .own hown
  by_cases hsingle : ∃ path, (s.unitAt ctx).ImportsSingle path name
  · obtain ⟨path, himport⟩ := hsingle
    obtain ⟨id, hid, hfound⟩ := findSimple_of_importsSingle himports hown himport range
    rw [hfound]
    exact .imported hown himport (hs.lookup_iff.mp hid)
  have hsingle := not_exists.mp hsingle
  by_cases hpackage : ∃ id, s.DeclaredIn (s.unitAt ctx).packageName name id
  · obtain ⟨id, hid⟩ := hpackage
    rw [findSimple_of_declaredIn hs hown hsingle hid]
    exact .package hown hsingle hid
  have honly : s.OnlyOnDemand ctx name := ⟨hown, hsingle, not_exists.mp hpackage⟩
  have hmem (id : ClassId) :
      s.Supplies ctx name id ↔ id ∈ distinctHits (s.onDemandHits ctx name) := supplies_iff hs
  have hsorted := pairwise_distinctHits (s.onDemandHits ctx name)
  rw [findSimple_of_onlyOnDemand hs honly]
  match hids : distinctHits (s.onDemandHits ctx name) with
  | [] => exact .unknown honly (fun id hid => List.not_mem_nil (hids ▸ (hmem id).mp hid))
  | [id] => exact .onDemand honly (fun other => by rw [hmem, hids, List.mem_singleton])
  | first :: second :: rest =>
    exact .ambiguous honly (fun id => hids ▸ hmem id) (hids ▸ hsorted)
      (Nat.le_add_left 2 rest.length)

/-- No other answer than that of a search is right. -/
theorem Answers.eq_findSimple (himports : s.checkImports ctx = .ok ()) {answer : SimpleAnswer}
    (h : s.Answers ctx name range answer) : (s.findSimple ctx name range).1 = answer := by
  cases h with
  | own hown => exact findSimple_of_own hown
  | imported hown himport hid =>
    obtain ⟨found, hfound, hanswer⟩ := findSimple_of_importsSingle himports hown himport range
    rw [hs.lookup_iff.mpr hid] at hfound
    cases hfound
    exact hanswer
  | package hown hsingle hid => exact findSimple_of_declaredIn hs hown hsingle hid
  | unknown honly hnone =>
    rw [findSimple_of_onlyOnDemand hs honly, distinctHits_eq hs [] (by simpa using hnone) .nil]
    rfl
  | @onDemand id honly hid =>
    rw [findSimple_of_onlyOnDemand hs honly, distinctHits_eq hs [id] (by simpa using hid)
      (List.pairwise_singleton _ _)]
    rfl
  | @ambiguous ids honly hids hsorted hseveral =>
    rw [findSimple_of_onlyOnDemand hs honly, distinctHits_eq hs ids hids hsorted]
    match ids, hseveral with
    | _ :: _ :: _, _ => rfl

end Search

/-! ## §3 Lookups -/

/-- What is answered among remembered answers is right at some place. -/
theorem answers_lookupSimple (hs : s.Indexed) (himports : s.checkImports ctx = .ok ())
    {st : LookupState} (hst : s.AnswersFound st) (name : Name) (range : Span) :
    ∃ place, s.Answers ctx name place (s.lookupSimple ctx name range st).1 := by
  obtain ⟨place, hanswer⟩ := lookupSimple_finds ctx name range hst ctx name _
    (s.lookupSimple_answer ctx name range st)
  exact ⟨place, hanswer ▸ findSimple_answers hs himports⟩

/-- In a unit with valid imports the first lookup of a name gives the one right answer.
No lookup fails over a single-type import, and one that ends in the name of the unit's
own type denotes that type. -/
theorem lookupSimple_tiers {program library : List CompilationUnit}
    (hbuild : build program library = .ok s) (hctx : ctx < s.size)
    (himports : s.checkImports ctx = .ok ()) :
    (∀ name range st answer, st.answers.lookup (ctx, name) = none →
      ((s.lookupSimple ctx name range st).1 = answer ↔ s.Answers ctx name range answer)) ∧
    (∀ calls name range v, (s.lookupSimple ctx name range (s.afterCalls calls {})).1 = .error v →
      (∀ n paths, v.cause ≠ .ambiguousImport n paths) ∧ ∀ n, v.cause ≠ .typeNotFound n) ∧
    ∀ path, (s.unitAt ctx).ImportsSingle path (s.unitAt ctx).decl.name →
      s.lookup path = some ctx := by
  have hs := build_indexed hbuild
  refine ⟨fun name range st answer hnew => ?_, fun calls name range v hv => ?_, fun path h => ?_⟩
  · rw [lookupSimple_of_none hnew]
    exact ⟨fun h => h ▸ findSimple_answers hs himports, fun h => h.eq_findSimple hs himports⟩
  · have hfound := (s.afterCalls_recorded calls s.recorded_empty).1.found
    obtain ⟨place, hanswer⟩ := answers_lookupSimple hs himports hfound name range
    obtain ⟨-, names, hcause⟩ := (hv ▸ hanswer).ambiguousOnDemand
    rw [hcause]
    exact ⟨fun _ _ => nofun, fun _ => nofun⟩
  · obtain ⟨imp, himp, himported, rfl⟩ := importsSingle_iff.mp h
    have hvalid := (checkImports_eq_ok.mp himports).1 imp himp
    exact hs.lookup_iff.mpr ⟨hctx, (hvalid.2 himported).symm⟩

/-- Two packages supply a class, of which a single-type import chooses one; the other class
that both supply is ambiguous. -/
theorem workshop_tiers : ∃ s, build workshop [] = .ok s ∧ s.checkImports 0 = .ok () ∧
    s.Answers 0 "Saw" {} (.ok (some 1)) ∧ s.Answers 0 "Nail" {} (.ok (some 3)) ∧
    s.Answers 0 "Glue" {} (.ok none) ∧
    s.Answers 0 "Drill" {} (.error {
      cause := .ambiguousOnDemandImport "Drill" ["left.Drill", "right.Drill"]
      location := s.locate 0 {} }) ∧
    s.lookup (.single "Main") = some 0 := by
  obtain ⟨s, hbuild, htest⟩ := exists_build workshop [] (fun s => decide (
    0 < s.size ∧ s.checkImports 0 = .ok () ∧
    (s.unitAt 0).decl.name = "Main" ∧ .single (.single "Main") {} ∈ (s.unitAt 0).imports ∧
    (s.lookupSimple 0 "Saw" {} {}).1 = .ok (some 1) ∧
    (s.lookupSimple 0 "Nail" {} {}).1 = .ok (some 3) ∧
    (s.lookupSimple 0 "Glue" {} {}).1 = .ok none ∧
    (s.lookupSimple 0 "Drill" {} {}).1 = .error {
      cause := .ambiguousOnDemandImport "Drill" ["left.Drill", "right.Drill"]
      location := s.locate 0 {} })) (by decide +kernel)
  obtain ⟨hsize, himports, hown, hmain, hsaw, hnail, hglue, hdrill⟩ := of_decide_eq_true htest
  obtain ⟨hanswers, -, himported⟩ := lookupSimple_tiers hbuild hsize himports
  exact ⟨s, hbuild, himports, (hanswers _ _ _ _ rfl).mp hsaw, (hanswers _ _ _ _ rfl).mp hnail,
    (hanswers _ _ _ _ rfl).mp hglue, (hanswers _ _ _ _ rfl).mp hdrill,
    himported _ ⟨hown ▸ rfl, _, hmain⟩⟩

end SymbolTable

end JoosStatics
