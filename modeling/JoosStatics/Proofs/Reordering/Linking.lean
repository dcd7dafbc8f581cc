/-
JoosStatics.Proofs.Reordering.Linking — linking in another order.

A program is linked when it is lowered to a table and no package it refers
to clashes with a type (`link_isOk_iff`); neither depends on memory, so
both can be carried over. `SymbolTable.Places` adds to the correspondence of
symbol tables where the members of each type stand.

* `Places.exists_link` — reordered programs are linked alike.
* `Places.table` — the tables that linking makes of them correspond.
-/
import JoosStatics.Proofs.Linking.Packages
import JoosStatics.Proofs.Renaming.Signatures
import JoosStatics.Proofs.Reordering.Symbols
import JoosStatics.Proofs.Reordering.Tables

namespace JoosStatics

/-! ## §1 Declarations -/

namespace TypeDecl.Reorders

variable {d d' : TypeDecl} (h : d.Reorders d')
include h

theorem classConstructors : d.classConstructors.Perm d'.classConstructors := by
  unfold TypeDecl.classConstructors
  rw [h.isInterface]
  split
  · exact .refl []
  · exact h.constructors

theorem classSuperclass : d'.classSuperclass = d.classSuperclass := by
  unfold TypeDecl.classSuperclass
  rw [h.isInterface, h.superclass]

/-- The same names are written in the signatures. -/
theorem signatureNames : d.signatureNames.Perm d'.signatureNames := by
  unfold TypeDecl.signatureNames
  rw [h.classSuperclass, h.interfaces]
  refine .append_left _ (.append_left _ (.append ?_ (.append ?_ ?_)))
  · exact h.fields.flatMap_right _
  · exact h.methods.flatMap_right _
  · exact h.classConstructors.flatMap_right _

end TypeDecl.Reorders

namespace CompilationUnit.Reorders

variable {u u' : CompilationUnit} (h : u.Reorders u')
include h

theorem hasImplicitSuperclass : u'.hasImplicitSuperclass = u.hasImplicitSuperclass := by
  unfold CompilationUnit.hasImplicitSuperclass
  rw [h.decl.isInterface, h.decl.superclass, h.typeName]

/-- The same denotations give signatures with the members rearranged. -/
theorem signature {φ μ κ : Equiv.Perm Nat} (hφ : Rearranges φ u.decl.fields u'.decl.fields)
    (hμ : Rearranges μ u.decl.methods u'.decl.methods)
    (hκ : Rearranges κ u.decl.classConstructors u'.decl.classConstructors)
    (denote : QualifiedName → ClassId) (object : Option ClassId) :
    (u.signature denote object).Reorders φ μ κ (u'.signature denote object) where
  fields := hφ.map _
  methods := by
    unfold CompilationUnit.signature
    rw [h.decl.isInterface]
    exact hμ.map _
  constructors := by
    have hempty := h.decl.constructors.isEmpty_eq
    unfold TypeDecl.classConstructors at hκ
    unfold CompilationUnit.signature TypeDecl.constructorSignatures
    simp only [h.decl.isInterface, ← hempty] at hκ ⊢
    cases hkind : u.decl.isInterface with
    | true =>
      rw [hkind] at hκ
      rw [Rearranges.eq_refl hκ]
      exact .refl []
    | false =>
      rw [hkind] at hκ
      cases hnone : u.decl.constructors.isEmpty with
      | true =>
        rw [List.isEmpty_iff.mp hnone] at hκ
        unfold SymbolTable.defaultConstructor
        rw [Rearranges.eq_refl hκ, h.decl.range]
        exact .refl _
      | false => exact hκ.map _
  others := by
    unfold CompilationUnit.signature CompilationUnit.superclassIn
    simp only [h.typeName, h.decl.kind, h.decl.modifiers, h.hasImplicitSuperclass,
      h.decl.classSuperclass, h.decl.interfaces, h.decl.range]

end CompilationUnit.Reorders

namespace SymbolTable

/-! ## §2 Programs that are linked -/

section Linked

variable {s : SymbolTable}

/-- A program that is lowered to a table is linked unless a package clashes with a
type. -/
theorem link_isOk_iff : (∃ l, s.link = .ok l) ↔
    (∃ t, s.Lowers t) ∧ ∀ package, s.RefersTo package → s.clashOf? package = none := by
  have hclashes {st : LookupState} (hst : s.Recorded st)
      (hknows : ∀ key, st.Knows key ↔ key ∈ s.linkedKeys) :
      s.checkPackageClashes st.usedPackages = .ok () ↔
        ∀ package, s.RefersTo package → s.clashOf? package = none := by
    rw [checkPackageClashes_eq_ok]
    simp only [mem_referencedPackages, hst.used, hknows, RefersTo]
  constructor
  · rintro ⟨l, hl⟩
    obtain ⟨hlowers, hrecorded, hknows⟩ := link_lowers hl
    exact ⟨⟨_, hlowers⟩, (hclashes hrecorded hknows).mp (link_run hl).2.2⟩
  · rintro ⟨hlowers, hnone⟩
    have hdenotes := s.lowerAll_denotes {} s.recorded_empty
    unfold link
    revert hdenotes
    rcases s.lowerAll {} with ⟨result, lookups⟩
    rintro ⟨hrecorded, ⟨-, hok, hknows⟩ | ⟨hnot, -⟩⟩
    · cases hok
      have hknown (key : ClassId × Name) : lookups.Knows key ↔ key ∈ s.linkedKeys :=
        (hknows key).trans (or_iff_right (fun h => by cases h))
      exact ⟨_, bind_eq_ok.mpr ⟨_, rfl, bind_eq_ok.mpr
        ⟨(), (hclashes hrecorded hknown).mpr hnone, rfl⟩⟩⟩
    · exact absurd hlowers hnot

end Linked

/-! ## §3 What linking resolves -/

namespace Reorders

variable {σ : Equiv.Perm ClassId} {s s' : SymbolTable} (h : s.Reorders σ s')
include h

theorem mem_ids {id : ClassId} : σ id ∈ s'.ids ↔ id ∈ s.ids := by
  rw [ids, ids, List.mem_range, List.mem_range, h.size, h.lt_size_iff]

/-- What is asked of every unit of one table is asked of those of the other. -/
theorem forall_mem_ids {P : ClassId → Prop} :
    (∀ id' ∈ s'.ids, P id') ↔ ∀ id ∈ s.ids, P (σ id) := by
  constructor
  · exact fun hall id hid => hall _ (h.mem_ids.mpr hid)
  · intro hall id' hid'
    have hid := hall (σ.symm id')
    rw [← h.mem_ids, σ.apply_symm_apply] at hid
    exact hid hid'

theorem mem_programIds {id : ClassId} : σ id ∈ s'.programIds ↔ id ∈ s.programIds := by
  have hlibrary := h.isLibrary id
  unfold SymbolTable.isLibrary at hlibrary
  rw [decide_eq_decide] at hlibrary
  rw [programIds, programIds, List.mem_range, List.mem_range]
  omega

/-- The same names are resolved. -/
theorem linkedNames (id : ClassId) : (s.linkedNames id).Perm (s'.linkedNames (σ id)) := by
  unfold SymbolTable.linkedNames
  rw [h.isLibrary, (h.unitAt id).decl.bodies]
  exact (h.unitAt id).decl.signatureNames.append_right _

theorem resolvable {id : ClassId} (hid : s.Resolvable id) : s'.Resolvable (σ id) where
  names name hname := by
    rw [h.namedType?, Option.isSome_map]
    exact hid.names name ((h.linkedNames id).mem_iff.mpr hname)
  object himplicit := by
    rw [(h.unitAt id).hasImplicitSuperclass] at himplicit
    rw [h.lookup, Option.isSome_map]
    exact hid.object himplicit

/-- The types that the rules mention correspond. -/
theorem ofClasses {t : TypeTable} (ht : TypeTable.ofClasses s.signatures.toArray = .ok t) :
    TypeTable.ofClasses s'.signatures.toArray =
      .ok { classes := s'.signatures.toArray, wellKnown := t.wellKnown.rename σ } := by
  have hrequire {name : String} {id : ClassId}
      (hid : TypeTable.require s.signatures.toArray name = .ok id) :
      TypeTable.require s'.signatures.toArray name = .ok (σ id) := by
    unfold TypeTable.require at hid ⊢
    rw [indexIn_signatures h.indexed] at hid
    rw [indexIn_signatures h.indexed', h.lookup]
    split at hid
    · rename_i found hfound
      cases hid
      rw [hfound]
      rfl
    · cases hid
  unfold TypeTable.ofClasses at ht ⊢
  obtain ⟨object, hobject, ht⟩ := bind_eq_ok.mp ht
  obtain ⟨string, hstring, ht⟩ := bind_eq_ok.mp ht
  obtain ⟨cloneable, hcloneable, ht⟩ := bind_eq_ok.mp ht
  obtain ⟨serializable, hserializable, ht⟩ := bind_eq_ok.mp ht
  obtain ⟨throwable, hthrowable, ht⟩ := bind_eq_ok.mp ht
  obtain ⟨runtimeException, hruntime, ht⟩ := bind_eq_ok.mp ht
  obtain ⟨error, herror, ht⟩ := bind_eq_ok.mp ht
  cases ht
  rw [hrequire hobject, hrequire hstring, hrequire hcloneable, hrequire hserializable,
    hrequire hthrowable, hrequire hruntime, hrequire herror]
  rfl

theorem exists_lowers {t : TypeTable} (ht : s.Lowers t) : ∃ t', s'.Lowers t' :=
  ⟨_, {
    imports := h.forall_mem_ids.mpr (fun id hid => h.checkImports (ht.imports id hid))
    resolvable := h.forall_mem_ids.mpr (fun id hid => h.resolvable (ht.resolvable id hid))
    table := h.ofClasses ht.table }⟩

/-! ## §4 Packages -/

theorem mem_namedPackages {package : PackageName} (hpackage : package ∈ s.namedPackages) :
    package ∈ s'.namedPackages := by
  obtain ⟨id, hid, hmem⟩ := List.mem_flatMap.mp hpackage
  refine List.mem_flatMap.mpr ⟨σ id, h.mem_programIds.mpr hid, ?_⟩
  rw [(h.unitAt id).packageName]
  exact (((h.single id).map _).cons _).mem_iff.mp hmem

theorem mem_linkedKeys {id : ClassId} {name : Name} (hkey : (id, name) ∈ s.linkedKeys) :
    (σ id, name) ∈ s'.linkedKeys := by
  obtain ⟨ctx, hctx, hmem⟩ := List.mem_flatMap.mp hkey
  obtain ⟨path, hpath, hfirst⟩ := List.mem_filterMap.mp hmem
  obtain ⟨first, hsome, heq⟩ := Option.map_eq_some_iff.mp hfirst
  obtain ⟨rfl, rfl⟩ := Prod.mk.injEq .. ▸ heq
  refine List.mem_flatMap.mpr ⟨σ ctx, h.mem_ids.mpr hctx, List.mem_filterMap.mpr ⟨path, ?_, ?_⟩⟩
  · exact (h.linkedNames ctx).mem_iff.mp hpath
  · rw [hsome]
    rfl

theorem refersTo {package : PackageName} (hpackage : s.RefersTo package) : s'.RefersTo package := by
  refine ⟨hpackage.1, ?_⟩
  rcases hpackage.2 with hnamed | ⟨⟨ctx, name⟩, hkey, hused⟩
  · exact .inl (h.mem_namedPackages hnamed)
  · exact .inr ⟨(σ ctx, name), h.mem_linkedKeys hkey,
      ((h.findSimple ctx name {} {}).2 package).mpr hused⟩

theorem clashOf? (package : PackageName) :
    s'.clashOf? package = (s.clashOf? package).map σ := by
  unfold SymbolTable.clashOf?
  simp only [h.lookup, List.map_findSome?]
  rfl

/-- A program that is linked is linked in another order as well. -/
theorem exists_link {l : Linked} (hl : s.link = .ok l) : ∃ l', s'.link = .ok l' := by
  obtain ⟨⟨t, ht⟩, hclashes⟩ := link_isOk_iff.mp ⟨l, hl⟩
  refine link_isOk_iff.mpr ⟨h.exists_lowers ht, fun package hpackage => ?_⟩
  rw [h.clashOf?, hclashes package (h.symm.refersTo hpackage)]
  rfl

end Reorders

/-! ## §5 The tables that linking makes -/

/-- A placement says where the types of a program and the members of each type stand in
another order. -/
structure Places (π : Placement) (s s' : SymbolTable) : Prop where
  reorders : s.Reorders π.type s'
  fields : ∀ id, Rearranges (π.field id) (s.unitAt id).decl.fields
    (s'.unitAt (π.type id)).decl.fields
  methods : ∀ id, Rearranges (π.method id) (s.unitAt id).decl.methods
    (s'.unitAt (π.type id)).decl.methods
  constructors : ∀ id, Rearranges (π.constructor id) (s.unitAt id).decl.classConstructors
    (s'.unitAt (π.type id)).decl.classConstructors

theorem Reorders.exists_places {σ : Equiv.Perm ClassId} {s s' : SymbolTable}
    (h : s.Reorders σ s') : ∃ π : Placement, s.Places π s' := by
  have hfields (id : ClassId) := exists_rearranges (h.unitAt id).decl.fields
  have hmethods (id : ClassId) := exists_rearranges (h.unitAt id).decl.methods
  have hconstructors (id : ClassId) := exists_rearranges (h.unitAt id).decl.classConstructors
  choose φ hφ using hfields
  choose μ hμ using hmethods
  choose κ hκ using hconstructors
  exact ⟨⟨σ, φ, μ, κ⟩, h, hφ, hμ, hκ⟩

namespace Places

variable {π : Placement} {s s' : SymbolTable} {l l' : Linked} (h : s.Places π s')
include h

/-- The signatures of corresponding units correspond. -/
theorem signatureOf {id : ClassId} (hid : s.Resolvable id) :
    ((s.signatureOf id).rename π.renaming).Reorders (π.field id) (π.method id) (π.constructor id)
      (s'.signatureOf (π.type id)) := by
  have hrenamed : (s.unitAt id).signature (s'.denotation (π.type id)) (s'.lookup objectName) =
      (s.signatureOf id).rename π.renaming := by
    rw [h.reorders.lookup]
    refine CompilationUnit.signature_rename (ρ := π.renaming) rfl (fun name hname => ?_) _
    exact h.reorders.denotation (hid.names name (List.mem_append_left _ hname))
  rw [← hrenamed]
  exact (h.reorders.unitAt id).signature (h.fields id) (h.methods id) (h.constructors id) _ _

/-- The tables that linking makes correspond. -/
theorem table (hl : s.link = .ok l) (hl' : s'.link = .ok l') : l.table.Reorders π l'.table where
  size := by
    rw [(link_eq_ok h.reorders.indexed hl).2.1, (link_eq_ok h.reorders.indexed' hl').2.1,
      h.reorders.size]
  lt_size_iff id := by
    rw [(link_eq_ok h.reorders.indexed hl).2.1, h.reorders.lt_size_iff]
  wellKnown := by
    have htable := (link_lowers hl').1.table
    rw [h.reorders.ofClasses (link_lowers hl).1.table] at htable
    rw [← Except.ok.inj htable]
  classAt id := by
    have hsize := (link_eq_ok h.reorders.indexed hl).2.1
    have hsize' := (link_eq_ok h.reorders.indexed' hl').2.1
    by_cases hid : id < s.size
    · have hid' : π.type id < s'.size := by
        rw [h.reorders.size, h.reorders.lt_size_iff]
        exact hid
      rw [link_classAt hl hid, link_classAt hl' hid']
      exact h.signatureOf ((link_lowers hl).1.resolvable id (List.mem_range.mpr hid))
    · have hid' : ¬ π.type id < s'.size := by
        rw [h.reorders.size, h.reorders.lt_size_iff]
        exact hid
      have hunit : s.unitAt id = default := by
        unfold unitAt
        rw [Array.getD_eq_getD_getElem?, Array.getElem?_eq_none (Nat.le_of_not_lt hid)]
        rfl
      have hfields := h.fields id
      have hmethods := h.methods id
      have hconstructors := h.constructors id
      rw [hunit] at hfields hmethods hconstructors
      rw [TypeTable.classAt_of_size_le _ (hsize ▸ Nat.le_of_not_lt hid),
        TypeTable.classAt_of_size_le _ (hsize' ▸ Nat.le_of_not_lt hid'),
        Rearranges.eq_refl hfields, Rearranges.eq_refl hmethods, Rearranges.eq_refl hconstructors]
      exact ⟨.refl [], .refl [], .refl [], rfl⟩

end Places

end SymbolTable

end JoosStatics
