/-
JoosStatics.Proofs.Reordering.Symbols — names in another order.

When the units of a program change places, their numbers change. `Reorders σ
s s'` says that `σ` takes the number of every unit of one table to its
number in the other. Names then denote corresponding types: `σ` commutes
with every lookup (`lookup`, `lookupIn`, `findSimple`, `namedType?`), and
the same imports are valid. Types that several packages supply are listed in
the order of their numbers, so there only the set of them corresponds.
-/
import JoosStatics.Proofs.Linking.Ambiguity
import JoosStatics.Proofs.Linking.Signatures
import JoosStatics.Proofs.Linking.Symbols
import JoosStatics.Proofs.Reordering.Syntax

namespace JoosStatics

/-- Both tables hold the same units, each with its parts in some order, under numbers
that correspond. -/
structure SymbolTable.Reorders (σ : Equiv.Perm ClassId) (s s' : SymbolTable) : Prop where
  indexed : s.Indexed
  indexed' : s'.Indexed
  size : s'.size = s.size
  lt_size_iff : ∀ id, σ id < s.size ↔ id < s.size
  isLibrary : ∀ id, s'.isLibrary (σ id) = s.isLibrary id
  unitAt : ∀ id, (s.unitAt id).Reorders (s'.unitAt (σ id))
  packageExists : ∀ package, s'.packageExists package = s.packageExists package

/-! ## §1 Tables of reordered programs -/

section Build

theorem forall₂_getElem? {α β : Type} {R : α → β → Prop} {xs : List α} {ys : List β}
    (h : List.Forall₂ R xs ys) (i : Nat) : Option.Rel R xs[i]? ys[i]? := by
  induction h generalizing i with
  | nil => exact .none
  | cons hxy _ ih =>
    cases i with
    | zero => exact .some hxy
    | succ i => exact ih i

variable {p p' : Program} {library : List CompilationUnit} {s s' : SymbolTable}

/-- The units of reordered programs, those of the library included. -/
theorem Program.Reorders.units (h : p.Reorders p') (library : List CompilationUnit) :
    ∃ σ units, Rearranges σ p.units units ∧
      List.Forall₂ CompilationUnit.Reorders (units ++ library) (p'.units ++ library) := by
  obtain ⟨units, hperm, hunits⟩ := h
  obtain ⟨σ, hσ⟩ := exists_rearranges hperm
  exact ⟨σ, units, hσ, List.rel_append hunits (List.forall₂_same.mpr (fun u _ => .refl u))⟩

/-- What the order of its parts does not change about a unit. -/
theorem Program.Reorders.map_perm {α : Type} {f : CompilationUnit → α}
    (hf : ∀ u u' : CompilationUnit, u.Reorders u' → f u' = f u) (h : p.Reorders p')
    (library : List CompilationUnit) :
    ((p.units ++ library).map f).Perm ((p'.units ++ library).map f) := by
  obtain ⟨units, hperm, hunits⟩ := h
  have hsame : units.map f = p'.units.map f := by
    rw [← List.forall₂_eq_eq_eq, List.forall₂_map_left_iff, List.forall₂_map_right_iff]
    exact hunits.imp (fun _ _ h => (hf _ _ h).symm)
  rw [List.map_append, List.map_append, ← hsame]
  exact (hperm.map f).append_right _

/-- Reordered programs declare the same full names. -/
theorem Program.Reorders.build_isOk (h : p.Reorders p')
    (hbuild : SymbolTable.build p.units library = .ok s) :
    ∃ s', SymbolTable.build p'.units library = .ok s' := by
  have hperm := h.map_perm (fun _ _ h => h.typeName) library
  exact SymbolTable.build_isOk_iff.mpr
    (hperm.nodup_iff.mp (SymbolTable.build_isOk_iff.mp ⟨s, hbuild⟩))

/-- The tables of reordered programs correspond. -/
theorem Program.Reorders.exists_reorders (h : p.Reorders p')
    (hbuild : SymbolTable.build p.units library = .ok s)
    (hbuild' : SymbolTable.build p'.units library = .ok s') : ∃ σ, s.Reorders σ s' := by
  obtain ⟨σ, units, hσ, hrel⟩ := h.units library
  obtain ⟨hindexed, hunits, hprogram⟩ := SymbolTable.build_spec hbuild
  obtain ⟨hindexed', hunits', hprogram'⟩ := SymbolTable.build_spec hbuild'
  have hall := hσ.append_right library
  have hlength : p'.units.length = p.units.length := by
    have hlength := hrel.length_eq
    simp only [List.length_append] at hlength
    have := hσ.perm.length_eq
    omega
  have hsize : s.size = (p.units ++ library).length := by
    rw [SymbolTable.size, ← Array.length_toList, hunits]
  have hsize' : s'.size = (p.units ++ library).length := by
    rw [SymbolTable.size, ← Array.length_toList, hunits', ← hrel.length_eq, ← hall.perm.length_eq]
  refine ⟨σ, hindexed, hindexed', hsize'.trans hsize.symm, fun id => ?_, fun id => ?_,
    fun id => ?_, fun package => ?_⟩
  · rw [hsize]
    exact hall.lt_length_iff id
  · have hlt := hσ.lt_length_iff id
    unfold SymbolTable.isLibrary
    rw [hprogram, hprogram', hlength, decide_eq_decide]
    omega
  · have hat := forall₂_getElem? hrel (σ id)
    rw [hall.getElem?, ← hunits, ← hunits', Array.getElem?_toList, Array.getElem?_toList] at hat
    unfold SymbolTable.unitAt
    rw [Array.getD_eq_getD_getElem?, Array.getD_eq_getD_getElem?]
    generalize s.units[id]? = unit at hat ⊢
    generalize s'.units[σ id]? = unit' at hat ⊢
    cases hat with
    | none => exact .refl _
    | some hunit => exact hunit
  · rw [Bool.eq_iff_iff, SymbolTable.build_packageExists hbuild,
      SymbolTable.build_packageExists hbuild']
    have hpackages (name : PackageName) :=
      (h.map_perm (fun _ _ h => h.packageName) library).mem_iff (a := name)
    simp only [List.mem_map] at hpackages
    constructor
    · rintro ⟨unit', hunit', hmem⟩
      obtain ⟨unit, hunit, hname⟩ := (hpackages _).mpr ⟨unit', hunit', rfl⟩
      exact ⟨unit, hunit, hname ▸ hmem⟩
    · rintro ⟨unit, hunit, hmem⟩
      obtain ⟨unit', hunit', hname⟩ := (hpackages _).mp ⟨unit, hunit, rfl⟩
      exact ⟨unit', hunit', hname ▸ hmem⟩

end Build

namespace SymbolTable

variable {σ : Equiv.Perm ClassId} {s s' : SymbolTable}

theorem Reorders.symm (h : s.Reorders σ s') : s'.Reorders σ.symm s where
  indexed := h.indexed'
  indexed' := h.indexed
  size := h.size.symm
  lt_size_iff id := by
    rw [h.size, ← h.lt_size_iff, Equiv.apply_symm_apply]
  isLibrary id := by
    rw [← h.isLibrary, Equiv.apply_symm_apply]
  unitAt id := by
    have hunit := (h.unitAt (σ.symm id)).symm
    rwa [Equiv.apply_symm_apply] at hunit
  packageExists package := (h.packageExists package).symm

/-! ## §2 Lookups -/

namespace Reorders

variable (h : s.Reorders σ s')
include h

theorem lookup (name : QualifiedName) : s'.lookup name = (s.lookup name).map σ := by
  refine Option.ext (fun id => ?_)
  rw [h.indexed'.lookup_iff, Option.map_eq_some_iff]
  simp only [h.indexed.lookup_iff]
  constructor
  · rintro ⟨hid, hname⟩
    refine ⟨σ.symm id, ⟨?_, ?_⟩, σ.apply_symm_apply id⟩
    · rwa [← h.lt_size_iff, σ.apply_symm_apply, ← h.size]
    · rw [← (h.unitAt _).typeName, σ.apply_symm_apply, hname]
  · rintro ⟨id, ⟨hid, hname⟩, rfl⟩
    exact ⟨h.size ▸ (h.lt_size_iff id).mpr hid, (h.unitAt id).typeName.trans hname⟩

theorem lookupIn (package : PackageName) (name : Name) :
    s'.lookupIn package name = (s.lookupIn package name).map σ := by
  refine Option.ext (fun id => ?_)
  rw [h.indexed'.lookupIn_iff, Option.map_eq_some_iff]
  simp only [h.indexed.lookupIn_iff]
  constructor
  · rintro ⟨hid, hpackage, hname⟩
    refine ⟨σ.symm id, ⟨?_, ?_, ?_⟩, σ.apply_symm_apply id⟩
    · rwa [← h.lt_size_iff, σ.apply_symm_apply, ← h.size]
    · rw [← (h.unitAt _).packageName, σ.apply_symm_apply, hpackage]
    · rw [← (h.unitAt _).decl.name, σ.apply_symm_apply, hname]
  · rintro ⟨id, ⟨hid, hpackage, hname⟩, rfl⟩
    exact ⟨h.size ▸ (h.lt_size_iff id).mpr hid, (h.unitAt id).packageName.trans hpackage,
      (h.unitAt id).decl.name.trans hname⟩

/-! ## §3 Imports -/

theorem single (id : ClassId) : (s.importsOf id).single.Perm (s'.importsOf (σ id)).single :=
  (h.unitAt id).imports.filterMap _

theorem onDemand (id : ClassId) : (s.importsOf id).onDemand.Perm (s'.importsOf (σ id)).onDemand :=
  ((h.unitAt id).imports.filterMap _).append_right _

theorem isValidImport {id : ClassId} {imp : SingleImport} (himp : s.IsValidImport id imp) :
    s'.IsValidImport (σ id) imp := by
  refine ⟨?_, ?_⟩
  · rw [h.lookup, Option.isSome_map]
    exact himp.1
  · rw [(h.unitAt id).decl.name, (h.unitAt id).typeName]
    exact himp.2

/-- Imports are valid in whatever order. -/
theorem checkImports {id : ClassId} (hok : s.checkImports id = .ok ()) :
    s'.checkImports (σ id) = .ok () := by
  have hsymm {imp other : SingleImport} (hagrees : imp.Agrees other) : other.Agrees imp :=
    fun himported => (hagrees himported.symm).symm
  obtain ⟨hvalid, hpairwise, honDemand⟩ := checkImports_eq_ok.mp hok
  refine checkImports_eq_ok.mpr ⟨fun imp himp => ?_, ?_, fun imp himp => ?_⟩
  · exact h.isValidImport (hvalid imp ((h.single id).mem_iff.mpr himp))
  · exact ((h.single id).pairwise_iff hsymm).mp hpairwise
  · rw [h.packageExists]
    exact honDemand imp (((h.onDemand id).filter _).mem_iff.mpr himp)

/-! ## §4 Simple names -/

/-- Imports of one name denote the same type in whatever order, or are ambiguous. -/
theorem findImported {ctx : ClassId} (name : Name) (range range' : Span)
    {first first' : SingleImport} {others others' : List SingleImport}
    (himports : (first :: others).Perm (first' :: others')) :
    Alike (fun _ _ => True) (fun found found' => found' = found.map σ)
      (s.findImported ctx name range first others)
      (s'.findImported (σ ctx) name range' first' others') := by
  have hsame {first : SingleImport} {others : List SingleImport} :
      others.find? (fun imp => imp.path ≠ first.path) = none ↔
        ∀ imp ∈ first :: others, imp.path = first.path := by
    simp [List.find?_eq_none]
  have hpaths : (∀ imp ∈ first :: others, imp.path = first.path) ↔
      ∀ imp ∈ first' :: others', imp.path = first'.path := by
    constructor
    · intro hall imp himp
      rw [hall imp (himports.mem_iff.mpr himp),
        hall first' (himports.mem_iff.mpr (List.mem_cons_self ..))]
    · intro hall imp himp
      rw [hall imp (himports.mem_iff.mp himp),
        hall first (himports.mem_iff.mp (List.mem_cons_self ..))]
  unfold SymbolTable.findImported
  cases hfind : others.find? (fun imp => imp.path ≠ first.path) with
  | none =>
    have hall := hsame.mp hfind
    have hpath : first'.path = first.path :=
      hall first' (himports.mem_iff.mpr (List.mem_cons_self ..))
    rw [hsame.mpr (hpaths.mp hall), hpath, h.lookup]
    cases s.lookup first.path with
    | none => exact .error trivial
    | some id => exact .ok rfl
  | some other =>
    cases hfind' : others'.find? (fun imp => imp.path ≠ first'.path) with
    | none =>
      rw [hsame.mpr (hpaths.mpr (hsame.mp hfind'))] at hfind
      cases hfind
    | some other' => exact .error trivial

theorem onDemandHits (ctx : ClassId) (name : Name) :
    ((s.onDemandHits ctx name).map (fun hit => (σ hit.1, hit.2))).Perm
      (s'.onDemandHits (σ ctx) name) := by
  have hits := (h.onDemand ctx).filterMap (fun imp =>
    (s'.lookupIn imp.package name).map (fun id => (id, imp.package)))
  refine List.Perm.trans (.of_eq ?_) hits
  unfold SymbolTable.onDemandHits
  rw [List.map_filterMap]
  refine List.filterMap_congr (fun imp _ => ?_)
  rw [h.lookupIn]
  cases s.lookupIn imp.package name <;> rfl

/-- The same types are supplied, if in another order. -/
theorem distinctHits (ctx : ClassId) (name : Name) :
    ((SymbolTable.distinctHits (s.onDemandHits ctx name)).map σ).Perm
      (SymbolTable.distinctHits (s'.onDemandHits (σ ctx) name)) := by
  refine (List.perm_ext_iff_of_nodup ((nodup_distinctHits _).map σ.injective)
    (nodup_distinctHits _)).mpr (fun id => ?_)
  rw [mem_distinctHits, ← ((h.onDemandHits ctx name).map Prod.fst).mem_iff, List.map_map]
  simp only [List.mem_map, mem_distinctHits, Function.comp_apply]
  constructor
  · rintro ⟨_, ⟨hit, hhit, rfl⟩, rfl⟩
    exact ⟨hit, hhit, rfl⟩
  · rintro ⟨hit, hhit, rfl⟩
    exact ⟨hit.1, ⟨hit, hhit, rfl⟩, rfl⟩

/-- A simple name denotes the same type, is no type or is ambiguous in both, and the
same packages supply it. -/
theorem findSimple (ctx : ClassId) (name : Name) (range range' : Span) :
    Alike (fun _ _ => True) (fun found found' => found' = found.map σ)
      (s.findSimple ctx name range).1 (s'.findSimple (σ ctx) name range').1 ∧
    ∀ package, package ∈ (s'.findSimple (σ ctx) name range').2 ↔
      package ∈ (s.findSimple ctx name range).2 := by
  have himports := (h.single ctx).filter (fun imp => imp.imported = name)
  have hids := h.distinctHits ctx name
  have hpackages (package : PackageName) :=
    ((h.onDemandHits ctx name).map Prod.snd).mem_iff (a := package)
  unfold SymbolTable.findSimple
  simp only [(h.unitAt ctx).decl.name, (h.unitAt ctx).packageName, h.lookupIn, h.isLibrary]
  split
  · exact ⟨.ok rfl, fun _ => Iff.rfl⟩
  generalize (s.importsOf ctx).single.filter (fun imp => imp.imported = name) = imports
    at himports ⊢
  generalize (s'.importsOf (σ ctx)).single.filter (fun imp => imp.imported = name) = imports'
    at himports ⊢
  match imports, imports', himports with
  | [], imports', himports =>
    obtain rfl := himports.nil_eq
    simp only
    cases s.lookupIn (s.unitAt ctx).packageName name with
    | some id => exact ⟨.ok rfl, fun _ => Iff.rfl⟩
    | none =>
      simp only [Option.map_none]
      generalize SymbolTable.distinctHits (s.onDemandHits ctx name) = ids at hids ⊢
      generalize SymbolTable.distinctHits (s'.onDemandHits (σ ctx) name) = ids' at hids ⊢
      match ids, ids', hids with
      | [], ids', hids =>
        obtain rfl := hids.nil_eq
        exact ⟨.ok rfl, fun _ => Iff.rfl⟩
      | [id], ids', hids =>
        obtain rfl := List.perm_singleton.mp hids.symm
        refine ⟨.ok rfl, fun package => ?_⟩
        simp only
        cases s.isLibrary ctx with
        | true => exact Iff.rfl
        | false =>
          simp only [List.map_map] at hpackages
          exact (hpackages package).symm
      | _ :: _ :: _, ids', hids =>
        match ids', hids.length_eq with
        | _ :: _ :: _, _ => exact ⟨.error trivial, fun _ => Iff.rfl⟩
  | first :: others, imports', himports =>
    match imports', himports.length_eq with
    | first' :: others', _ => exact ⟨h.findImported name range range' himports, fun _ => Iff.rfl⟩

theorem simpleType? (ctx : ClassId) (name : Name) :
    s'.simpleType? (σ ctx) name = (s.simpleType? ctx name).map σ := by
  unfold SymbolTable.simpleType?
  rcases (h.findSimple ctx name {} {}).1.outcomes with
    ⟨v, v', hv, hv', -⟩ | ⟨found, _, hfound, hfound', rfl⟩
  · rw [hv, hv']
    rfl
  · rw [hfound, hfound']

/-! ## §5 Qualified names -/

theorem leadingTypeLength? (name : QualifiedName) :
    s'.leadingTypeLength? name = s.leadingTypeLength? name := by
  unfold SymbolTable.leadingTypeLength?
  simp only [h.lookup, Option.isSome_map]

theorem namedType? (ctx : ClassId) (name : QualifiedName) :
    s'.namedType? (σ ctx) name = (s.namedType? ctx name).map σ := by
  unfold SymbolTable.namedType?
  split
  · rfl
  · exact h.simpleType? ctx _
  · simp only [h.simpleType?, h.leadingTypeLength?, h.lookup, Option.isSome_map]
    split <;> rfl

/-- A name that denotes a type denotes the same one in both. -/
theorem denotation {ctx : ClassId} {name : QualifiedName}
    (hname : (s.namedType? ctx name).isSome = true) :
    s'.denotation (σ ctx) name = σ (s.denotation ctx name) := by
  unfold SymbolTable.denotation
  rw [h.namedType?]
  obtain ⟨id, hid⟩ := Option.isSome_iff_exists.mp hname
  rw [hid]
  rfl

end Reorders

end SymbolTable

end JoosStatics
