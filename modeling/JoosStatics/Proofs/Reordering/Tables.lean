/-
JoosStatics.Proofs.Reordering.Tables — tables in another order.

A `Placement` says where the types of a program, and the members of each of
them, stand in another order; it renames every reference. Two tables correspond under
it (`TypeTable.Reorders`) when each signature is the renamed one with its
members rearranged. Such tables give the same account of the program
(`TypeTable.Reorders.renames`), so that all relations of types are the same.
-/
import JoosStatics.Proofs.Renaming.Basic
import JoosStatics.Proofs.Reordering.Syntax

namespace JoosStatics

/-! ## §1 Placements -/

/-- Where types, and the members of each type, stand in another order. -/
structure Placement where
  type : Equiv.Perm ClassId
  field : ClassId → Equiv.Perm Nat
  method : ClassId → Equiv.Perm Nat
  constructor : ClassId → Equiv.Perm Nat

/-- References follow what they refer to. Spans stay, and variables do not count. -/
def Placement.renaming (π : Placement) : Renaming :=
  { Renaming.identity (fun _ _ => True) with
    type := π.type
    field := fun ref => ⟨π.type ref.owner, π.field ref.owner ref.index⟩
    method := fun ref => ⟨π.type ref.owner, π.method ref.owner ref.index⟩
    constructor := fun ref => ⟨π.type ref.owner, π.constructor ref.owner ref.index⟩
    type_injective := π.type.injective }

namespace Placement

variable (π : Placement)

@[simp] theorem type_renaming : π.renaming.type = π.type := rfl

@[simp] theorem span_renaming : π.renaming.span = id := rfl

@[simp] theorem sameLocal_renaming (x y : LocalId) : π.renaming.sameLocal x y := trivial

theorem method_injective : Function.Injective π.renaming.method := by
  rintro ⟨owner, index⟩ ⟨owner', index'⟩ h
  have howner : owner = owner' := π.type.injective (congrArg MethodRef.owner h)
  subst howner
  exact congrArg _ ((π.method owner).injective (congrArg MethodRef.index h))

theorem constructor_injective : Function.Injective π.renaming.constructor := by
  rintro ⟨owner, index⟩ ⟨owner', index'⟩ h
  have howner : owner = owner' := π.type.injective (congrArg ConstructorRef.owner h)
  subst howner
  exact congrArg _ ((π.constructor owner).injective (congrArg ConstructorRef.index h))

theorem constructor_surjective : Function.Surjective π.renaming.constructor := by
  rintro ⟨owner, index⟩
  obtain ⟨owner, rfl⟩ := π.type.surjective owner
  obtain ⟨index, rfl⟩ := (π.constructor owner).surjective index
  exact ⟨⟨owner, index⟩, rfl⟩

end Placement

/-! ## §2 Signatures and tables -/

/-- The same signature with its members rearranged. -/
structure ClassDef.Reorders (φ μ κ : Equiv.Perm Nat) (d d' : ClassDef) : Prop where
  fields : Rearranges φ d.fields d'.fields
  methods : Rearranges μ d.methods d'.methods
  constructors : Rearranges κ d.constructors d'.constructors
  others : d' =
    { d with fields := d'.fields, constructors := d'.constructors, methods := d'.methods }

/-- The same types under other numbers and with their members rearranged. -/
structure TypeTable.Reorders (π : Placement) (t t' : TypeTable) : Prop where
  size : t'.size = t.size
  lt_size_iff : ∀ id, π.type id < t.size ↔ id < t.size
  wellKnown : t'.wellKnown = t.wellKnown.rename π.type
  classAt : ∀ id, ((t.classAt id).rename π.renaming).Reorders (π.field id) (π.method id)
    (π.constructor id) (t'.classAt (π.type id))

variable {α β : Type} {σ : Equiv.Perm Nat} {xs : List α} {ys : List β}

/-- An item is found where it has been put; outside there is nothing but the default. -/
theorem Rearranges.getD_map {f : α → β} (h : Rearranges σ (xs.map f) ys) {a : α} {b : β}
    (hdefault : b = f a) (i : Nat) : ys.getD (σ i) b = f (xs.getD i a) := by
  rw [List.getD_eq_getElem?_getD, List.getD_eq_getElem?_getD, h.getElem?, List.getElem?_map,
    hdefault, Option.getD_map]

namespace TypeTable.Reorders

variable {π : Placement} {t t' : TypeTable} (h : t.Reorders π t')
include h

theorem fields_perm (id : ClassId) :
    ((t.classAt id).fields.map (FieldDef.rename π.renaming)).Perm
      (t'.classAt (π.type id)).fields :=
  (h.classAt id).fields.perm

theorem methods_perm (id : ClassId) :
    ((t.classAt id).methods.map (MethodDef.rename π.renaming)).Perm
      (t'.classAt (π.type id)).methods :=
  (h.classAt id).methods.perm

theorem constructors_perm (id : ClassId) :
    ((t.classAt id).constructors.map (ConstructorDef.rename π.renaming)).Perm
      (t'.classAt (π.type id)).constructors :=
  (h.classAt id).constructors.perm

/-- A method stands at its new place. -/
theorem methods_getElem? (id : ClassId) (index : Nat) :
    (t'.classAt (π.type id)).methods[π.method id index]? =
      (t.classAt id).methods[index]?.map (MethodDef.rename π.renaming) :=
  ((h.classAt id).methods.getElem? index).trans List.getElem?_map

/-- Reordered tables give the same account of the program. -/
theorem renames : t.Renames π.renaming t' where
  wellKnown := h.wellKnown
  name id := by rw [Placement.type_renaming, (h.classAt id).others]; rfl
  kind id := by rw [Placement.type_renaming, (h.classAt id).others]; rfl
  modifiers id := by rw [Placement.type_renaming, (h.classAt id).others]; rfl
  superclass id := by rw [Placement.type_renaming, (h.classAt id).others]; rfl
  interfaces id := by rw [Placement.type_renaming, (h.classAt id).others]; rfl
  fieldAt ref := (h.classAt ref.owner).fields.getD_map (a := default) (b := default) rfl ref.index
  methodAt ref := (h.classAt ref.owner).methods.getD_map (a := default) (b := default) rfl ref.index
  constructorAt ref :=
    (h.classAt ref.owner).constructors.getD_map (a := default) (b := default) rfl ref.index
  constructorsOf id := by
    have hplaces := (h.classAt id).constructors.range_perm.map (ConstructorRef.mk (π.type id))
    unfold constructorsOf
    rw [List.map_map] at hplaces ⊢
    rwa [ClassDef.rename, List.length_map] at hplaces

theorem mem_ids {id : ClassId} : π.type id ∈ t'.ids ↔ id ∈ t.ids := by
  rw [ids, ids, List.mem_range, List.mem_range, h.size, h.lt_size_iff]

/-- What is asked of every type of one table is asked of those of the other. -/
theorem forall_mem_ids {P : ClassId → Prop} :
    (∀ id' ∈ t'.ids, P id') ↔ ∀ id ∈ t.ids, P (π.type id) := by
  constructor
  · exact fun hall id hid => hall _ (h.mem_ids.mpr hid)
  · intro hall id' hid'
    have hid := hall (π.type.symm id')
    rw [← h.mem_ids, π.type.apply_symm_apply] at hid
    exact hid hid'

end TypeTable.Reorders

end JoosStatics
