/-
JoosStatics.Proofs.Linking.Ambiguity — how a simple name can still fail.

Linking has validated the imports of every unit. So when a simple name is
looked up afterwards, there is one rule left that it can break: two packages
that are imported on demand have a type of that name
(`findSimple_eq_error`, `lookupSimple_eq_error`).
-/
import JoosStatics.Proofs.Linking.Memo

namespace JoosStatics

/-- Two imports that bring in the same name bring in the same type. -/
def SingleImport.Agrees (imp other : SingleImport) : Prop :=
  imp.imported = other.imported → imp.path = other.path

namespace SymbolTable

variable {s : SymbolTable} {ctx : ClassId} {name : Name} {range : Span}

/-- A single-type import is valid by itself: it names a declared type, and no other one
than the unit's own type under that type's name. -/
def IsValidImport (s : SymbolTable) (ctx : ClassId) (imp : SingleImport) : Prop :=
  (s.lookup imp.path).isSome = true ∧
    (imp.imported = (s.unitAt ctx).decl.name → imp.path = (s.unitAt ctx).typeName)

/-- Single-type imports pass when they are valid and agree with each other. -/
theorem checkSingleImports_eq_ok {earlier rest : List SingleImport} :
    s.checkSingleImports ctx earlier rest = .ok () ↔
      (∀ imp ∈ rest, s.IsValidImport ctx imp) ∧ (∀ e ∈ earlier, ∀ imp ∈ rest, e.Agrees imp) ∧
        rest.Pairwise SingleImport.Agrees := by
  induction rest generalizing earlier with
  | nil => exact ⟨fun _ => ⟨nofun, fun _ _ => nofun, .nil⟩, fun _ => rfl⟩
  | cons imp rest ih =>
    unfold checkSingleImports
    simp only
    constructor
    · intro h
      split at h
      · cases h
      rename_i hlookup
      split at h
      · cases h
      rename_i hown
      split at h
      · cases h
      rename_i hfind
      obtain ⟨hvalid, hagree, hpairwise⟩ := ih.mp h
      have hfirst (e : SingleImport) (he : e ∈ earlier) : e.Agrees imp := by
        intro himported
        have hnot := List.find?_eq_none.mp hfind e he
        simpa [himported] using hnot
      refine ⟨List.forall_mem_cons.mpr ⟨⟨?_, ?_⟩, hvalid⟩,
        fun e he => List.forall_mem_cons.mpr ⟨hfirst e he, ?_⟩, ?_⟩
      · simpa [Option.isSome_iff_ne_none] using hlookup
      · exact fun himported => not_not.mp (fun hpath => hown ⟨himported, hpath⟩)
      · exact hagree e (List.mem_append_left _ he)
      · exact .cons (hagree imp (List.mem_append_right _ (List.mem_singleton_self imp))) hpairwise
    · rintro ⟨hvalid, hagree, hpairwise⟩
      obtain ⟨⟨hlookup, hown⟩, hothers⟩ := List.forall_mem_cons.mp hvalid
      obtain ⟨hfirst, hrest⟩ := List.pairwise_cons.mp hpairwise
      have hfind : earlier.find? (fun e => e.imported = imp.imported ∧ e.path ≠ imp.path) = none :=
        List.find?_eq_none.mpr (fun e he => by
          have hagrees := hagree e he imp (List.mem_cons_self ..)
          simpa [SingleImport.Agrees] using hagrees)
      rw [if_neg (by simpa [Option.isSome_iff_ne_none] using hlookup),
        if_neg (fun h => h.2 (hown h.1)), hfind]
      refine ih.mpr ⟨hothers, fun e he other hother => ?_, hrest⟩
      rcases List.mem_append.mp he with he | he
      · exact hagree e he other (List.mem_cons_of_mem _ hother)
      · exact List.mem_singleton.mp he ▸ hfirst other hother

theorem checkOnDemandImports_eq_ok {imports : List OnDemandImport} :
    s.checkOnDemandImports ctx imports = .ok () ↔
      ∀ imp ∈ imports, s.packageExists imp.package = true := by
  induction imports with
  | nil => exact ⟨fun _ => nofun, fun _ => rfl⟩
  | cons imp imports ih =>
    rw [checkOnDemandImports, List.forall_mem_cons, ← ih]
    split
    · rename_i hexists
      exact (and_iff_right hexists).symm
    · rename_i hmissing
      constructor
      · intro h
        cases h
      · exact fun h => absurd h.1 hmissing

/-- The imports of a unit pass when the single-type imports are valid and agree with
each other, and the packages that are imported on demand exist. -/
theorem checkImports_eq_ok :
    s.checkImports ctx = .ok () ↔
      (∀ imp ∈ (s.importsOf ctx).single, s.IsValidImport ctx imp) ∧
      (s.importsOf ctx).single.Pairwise SingleImport.Agrees ∧
      ∀ imp ∈ (s.importsOf ctx).explicitOnDemand, s.packageExists imp.package = true := by
  unfold checkImports
  rw [bind_eq_ok, ← and_assoc]
  constructor
  · rintro ⟨_, hsingle, honDemand⟩
    obtain ⟨hvalid, -, hpairwise⟩ := checkSingleImports_eq_ok.mp hsingle
    exact ⟨⟨hvalid, hpairwise⟩, checkOnDemandImports_eq_ok.mp honDemand⟩
  · rintro ⟨⟨hvalid, hpairwise⟩, honDemand⟩
    exact ⟨(), checkSingleImports_eq_ok.mpr ⟨hvalid, nofun, hpairwise⟩,
      checkOnDemandImports_eq_ok.mpr honDemand⟩

/-- Valid imports of a name denote a type. -/
theorem findImported_isOk (range : Span) (h : s.checkImports ctx = .ok ()) {first : SingleImport}
    {others : List SingleImport}
    (hfilter : (s.importsOf ctx).single.filter (fun imp => imp.imported = name) = first :: others) :
    ∃ id, s.findImported ctx name range first others = .ok (some id) := by
  obtain ⟨hvalid, hpairwise, -⟩ := checkImports_eq_ok.mp h
  have hmem (imp : SingleImport) (himp : imp ∈ first :: others) :
      imp ∈ (s.importsOf ctx).single ∧ imp.imported = name := by
    rw [← hfilter] at himp
    simpa using List.mem_filter.mp himp
  have hsame : others.find? (fun imp => imp.path ≠ first.path) = none := by
    refine List.find?_eq_none.mpr (fun imp himp => ?_)
    have hagree := (hfilter ▸ hpairwise.filter _ : (first :: others).Pairwise SingleImport.Agrees)
    have himported := (hmem imp (List.mem_cons_of_mem _ himp)).2
    have hpath := List.rel_of_pairwise_cons hagree himp
      ((hmem first (List.mem_cons_self ..)).2.trans himported.symm)
    simp [hpath]
  obtain ⟨id, hid⟩ := Option.isSome_iff_exists.mp
    (hvalid first (hmem first (List.mem_cons_self ..)).1).1
  refine ⟨id, ?_⟩
  unfold findImported
  rw [hsame, hid]

/-- The violation of a name that several packages imported on demand have. -/
def ambiguity (s : SymbolTable) (ctx : ClassId) (name : Name) (range : Span) : Violation :=
  { cause := .ambiguousOnDemandImport name
      ((distinctHits (s.onDemandHits ctx name)).map (fun id => (s.unitAt id).typeName.toDotted))
    location := s.locate ctx range }

/-- Several packages imported on demand have a type of a name. -/
def IsAmbiguous (s : SymbolTable) (ctx : ClassId) (name : Name) : Prop :=
  2 ≤ (distinctHits (s.onDemandHits ctx name)).length

/-- The search for a name can fail in one way only in a unit with valid imports. -/
theorem findSimple_eq_error (himports : s.checkImports ctx = .ok ()) {e : Violation}
    (h : (s.findSimple ctx name range).1 = .error e) :
    s.IsAmbiguous ctx name ∧ e = s.ambiguity ctx name range := by
  unfold findSimple at h
  simp only at h
  split at h
  · cases h
  split at h
  · rename_i first others hfilter
    obtain ⟨id, hid⟩ := findImported_isOk range himports hfilter
    rw [hid] at h
    cases h
  split at h
  · cases h
  split at h
  · cases h
  · cases h
  · rename_i hnil hone
    cases h
    refine ⟨?_, rfl⟩
    unfold IsAmbiguous
    match hids : distinctHits (s.onDemandHits ctx name) with
    | [] => exact absurd hids hnil
    | [id] => exact absurd hids (hone id)
    | _ :: _ :: _ => simp

/-- So does the lookup of a name among remembered answers. -/
theorem lookupSimple_eq_error (himports : s.checkImports ctx = .ok ()) {st : LookupState}
    (hst : s.AnswersFound st) {e : Violation}
    (h : (s.lookupSimple ctx name range st).1 = .error e) :
    s.IsAmbiguous ctx name ∧ ∃ range, e = s.ambiguity ctx name range := by
  obtain ⟨range', hanswer⟩ := lookupSimple_finds ctx name range hst ctx name _
    (s.lookupSimple_answer ctx name range st)
  rw [h] at hanswer
  obtain ⟨hambiguous, rfl⟩ := findSimple_eq_error himports hanswer.symm
  exact ⟨hambiguous, range', rfl⟩

/-- A lookup uses no other packages than its search does. -/
theorem lookupSimple_uses {st : LookupState} {package : PackageName}
    (h : package ∈ (s.lookupSimple ctx name range st).2.usedPackages.keys) :
    package ∈ (s.findSimple ctx name range).2 ∨ package ∈ st.usedPackages.keys := by
  cases hanswer : st.answers.lookup (ctx, name) with
  | some answer =>
    rw [lookupSimple_of_answer hanswer] at h
    exact .inr h
  | none =>
    rw [lookupSimple_of_none hanswer] at h
    exact OrderedMap.mem_keys_foldl_add.mp h

end SymbolTable

end JoosStatics
