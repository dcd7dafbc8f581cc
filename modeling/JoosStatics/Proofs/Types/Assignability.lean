/-
JoosStatics.Proofs.Types.Assignability — assignment conversion is a partial
order.

`TypeTable.Assignable` has a constructor for each rule of assignment
conversion, and `isAssignable_iff` says that the check follows the rules.
Transitivity and antisymmetry are then inductions on the rules. The two laws
rest on the hierarchy in different ways:

* transitivity on the types above arrays, `ArrayTypesOnTop`: what an array can
  be assigned to has nothing above it but `java.lang.Object`;
* antisymmetry on the absence of cycles, and on `java.lang.Object` being on top,
  which is above all types whatever they declare.

`TypeTable.AllAssignable` carries the order over to lists of parameters, place by
place; it is what it takes for parameters to accept arguments
(`isApplicable_iff`).
-/
import JoosStatics.Proofs.Types.Supertypes
import JoosStatics.Types.Overload
import Mathlib.Data.List.Forall2
import Mathlib.Order.Defs.Unbundled

namespace JoosStatics

namespace Primitive

theorem widensTo_trans {p q r : Primitive} (hpq : p.widensTo q = true)
    (hqr : q.widensTo r = true) : p.widensTo r = true := by
  revert hpq hqr
  cases p <;> cases q <;> cases r <;> decide

theorem widensTo_antisymm {p q : Primitive} (hpq : p.widensTo q = true)
    (hqp : q.widensTo p = true) : p = q := by
  revert hpq hqp
  cases p <;> cases q <;> decide

end Primitive

namespace TypeTable

variable {t : TypeTable} {a b c : ClassId}

/-! ## §1 Subtyping -/

/-- A type without direct supertypes is below itself and `java.lang.Object` only. -/
theorem eq_of_isSubclass (hnone : (t.classAt a).directSupertypes = [])
    (h : t.isSubclass a b = true) : b = t.wellKnown.object ∨ b = a := by
  rcases t.isSubclass_iff.mp h with hobject | hsup
  · exact .inl hobject
  · rcases (t.mem_supertypes_iff.mp hsup).cases_head with heq | ⟨sup, hedge, -⟩
    · exact .inr heq.symm
    · rw [Extends, hnone] at hedge
      cases hedge

theorem isSubclass_object (t : TypeTable) (id : ClassId) :
    t.isSubclass id t.wellKnown.object = true :=
  t.isSubclass_iff.mpr (.inl rfl)

section Object

variable (hobject : (t.classAt t.wellKnown.object).directSupertypes = [])
include hobject

theorem eq_object_of_isSubclass (h : t.isSubclass t.wellKnown.object b = true) :
    b = t.wellKnown.object :=
  (eq_of_isSubclass hobject h).elim id id

/-- Subtyping is transitive when nothing is above `java.lang.Object`. -/
theorem isSubclass_trans_of_top (hab : t.isSubclass a b = true) (hbc : t.isSubclass b c = true) :
    t.isSubclass a c = true := by
  rcases t.isSubclass_iff.mp hab with rfl | hb
  · rw [eq_object_of_isSubclass hobject hbc]
    exact t.isSubclass_object a
  rcases t.isSubclass_iff.mp hbc with hc | hc
  · exact t.isSubclass_iff.mpr (.inl hc)
  · exact t.isSubclass_iff.mpr (.inr (t.mem_supertypes_trans hb hc))

/-- Subtyping is antisymmetric when, besides, no type is above itself. -/
theorem isSubclass_antisymm (hacyclic : ∀ id, ¬ Relation.TransGen t.Extends id id)
    (hab : t.isSubclass a b = true) (hba : t.isSubclass b a = true) : a = b := by
  rcases t.isSubclass_iff.mp hab with rfl | hb
  · exact eq_object_of_isSubclass hobject hba
  rcases t.isSubclass_iff.mp hba with rfl | ha
  · exact (eq_object_of_isSubclass hobject hab).symm
  have hpath := t.mem_supertypes_iff.mp hb
  rcases Relation.reflTransGen_iff_eq_or_transGen.mp (t.mem_supertypes_iff.mp ha) with heq | hback
  · exact heq
  · exact absurd (hback.trans_left hpath) (hacyclic b)

end Object

/-! ## §2 The rules of assignment conversion -/

/-- The types that every array can be assigned to. -/
def IsAboveArrays (t : TypeTable) (id : ClassId) : Prop :=
  id = t.wellKnown.object ∨ id = t.wellKnown.cloneable ∨ id = t.wellKnown.serializable

/-- `java.lang.Object`, `java.lang.Cloneable` and `java.io.Serializable` have no direct
supertypes. -/
def ArrayTypesOnTop (t : TypeTable) : Prop :=
  ∀ id, t.IsAboveArrays id → (t.classAt id).directSupertypes = []

/-- A type can be assigned to another one. -/
inductive Assignable (t : TypeTable) : Ty → Ty → Prop
  | refl (type : Ty) : Assignable t type type
  | widen {p q : Primitive} (h : p.widensTo q = true) :
    Assignable t (.primitive p) (.primitive q)
  | nullDeclared (id : ClassId) : Assignable t .null (.declared id)
  | nullArray (element : Ty) : Assignable t .null (.array element)
  | subclass {a b : ClassId} (h : t.isSubclass a b = true) :
    Assignable t (.declared a) (.declared b)
  | arrayDeclared (element : Ty) {id : ClassId} (h : t.IsAboveArrays id) :
    Assignable t (.array element) (.declared id)
  /-- Arrays of references are covariant. -/
  | elements {a b : Ty} (ha : a.isReference = true) (hb : b.isReference = true)
      (h : Assignable t a b) : Assignable t (.array a) (.array b)

theorem isAssignable_self (t : TypeTable) (type : Ty) : t.isAssignable type type = true := by
  unfold isAssignable
  rw [beq_self_eq_true, Bool.true_or]

theorem isAssignable_primitive {p q : Primitive} :
    t.isAssignable (.primitive p) (.primitive q) = p.widensTo q := by
  unfold isAssignable
  cases p <;> cases q <;> rfl

theorem isAssignable_declared :
    t.isAssignable (.declared a) (.declared b) = t.isSubclass a b := by
  unfold isAssignable
  by_cases heq : a = b
  · subst heq
    simp [isSubclass_self]
  · simp [heq]

theorem isAssignable_array_declared {element : Ty} {id : ClassId} :
    t.isAssignable (.array element) (.declared id) = true ↔ t.IsAboveArrays id := by
  simp [isAssignable, IsAboveArrays, or_assoc]

theorem isAssignable_array {a b : Ty} : t.isAssignable (.array a) (.array b) = true ↔
    a = b ∨ a.isReference = true ∧ b.isReference = true ∧ t.isAssignable a b = true := by
  conv_lhs => unfold isAssignable
  rw [Bool.or_eq_true, beq_iff_eq, Ty.array.injEq]
  refine or_congr_right' (fun hne => ?_)
  cases a <;> cases b <;> simp_all [Ty.isReference]

/-- The check follows the rules. -/
theorem isAssignable_iff {a b : Ty} : t.isAssignable a b = true ↔ t.Assignable a b := by
  constructor
  · intro h
    induction a generalizing b with
    | array element ih =>
      cases b with
      | array other =>
        rcases isAssignable_array.mp h with rfl | ⟨ha, hb, helement⟩
        · exact .refl _
        · exact .elements ha hb (ih helement)
      | declared id => exact .arrayDeclared element (isAssignable_array_declared.mp h)
      | _ => simp [isAssignable] at h
    | primitive p =>
      cases b with
      | primitive q => exact .widen (isAssignable_primitive.symm.trans h)
      | _ => simp [isAssignable] at h
    | declared id =>
      cases b with
      | declared other => exact .subclass (isAssignable_declared.symm.trans h)
      | _ => simp [isAssignable] at h
    | null =>
      cases b with
      | null => exact .refl _
      | declared id => exact .nullDeclared id
      | array element => exact .nullArray element
      | _ => simp [isAssignable] at h
    | void =>
      cases b with
      | void => exact .refl _
      | _ => simp [isAssignable] at h
  · intro h
    induction h with
    | refl type => exact t.isAssignable_self type
    | widen h => exact isAssignable_primitive.trans h
    | nullDeclared | nullArray => simp [isAssignable]
    | subclass h => exact isAssignable_declared.trans h
    | arrayDeclared element h => exact isAssignable_array_declared.mpr h
    | elements ha hb _ ih => exact isAssignable_array.mpr (.inr ⟨ha, hb, ih⟩)

/-! ## §3 The order -/

namespace Assignable

variable {a b c : Ty}

/-- What is assigned once more could have been assigned directly. -/
theorem trans (htop : t.ArrayTypesOnTop) (hab : t.Assignable a b) (hbc : t.Assignable b c) :
    t.Assignable a c := by
  have hobject := htop t.wellKnown.object (.inl rfl)
  induction hab generalizing c with
  | refl => exact hbc
  | widen h =>
    cases hbc with
    | refl => exact .widen h
    | widen h' => exact .widen (Primitive.widensTo_trans h h')
  | nullDeclared =>
    cases hbc with
    | refl | subclass => exact .nullDeclared _
  | nullArray =>
    cases hbc with
    | refl | elements => exact .nullArray _
    | arrayDeclared => exact .nullDeclared _
  | subclass h =>
    cases hbc with
    | refl => exact .subclass h
    | subclass h' => exact .subclass (isSubclass_trans_of_top hobject h h')
  | arrayDeclared element h =>
    cases hbc with
    | refl => exact .arrayDeclared element h
    | subclass h' =>
      rcases eq_of_isSubclass (htop _ h) h' with rfl | rfl
      · exact .arrayDeclared element (.inl rfl)
      · exact .arrayDeclared element h
  | elements ha hb h ih =>
    cases hbc with
    | refl => exact .elements ha hb h
    | arrayDeclared _ h' => exact .arrayDeclared _ h'
    | elements _ hc h' => exact .elements ha hc (ih h')

/-- Types that can be assigned to each other are the same. -/
theorem antisymm (hobject : (t.classAt t.wellKnown.object).directSupertypes = [])
    (hacyclic : ∀ id, ¬ Relation.TransGen t.Extends id id) (hab : t.Assignable a b)
    (hba : t.Assignable b a) : a = b := by
  induction hab with
  | refl => rfl
  | widen h =>
    cases hba with
    | refl => rfl
    | widen h' => exact congrArg _ (Primitive.widensTo_antisymm h h')
  | nullDeclared | nullArray | arrayDeclared => cases hba
  | subclass h =>
    cases hba with
    | refl => rfl
    | subclass h' => exact congrArg _ (isSubclass_antisymm hobject hacyclic h h')
  | elements _ _ _ ih =>
    cases hba with
    | refl => rfl
    | elements _ _ h' => exact congrArg _ (ih h')

end Assignable

/-! ## §4 The order of parameter lists -/

/-- Each type of a list can be assigned to the one at its place in another list of the same
length. -/
def AllAssignable (t : TypeTable) : List Ty → List Ty → Prop :=
  List.Forall₂ (fun source target => t.isAssignable source target = true)

/-- Types of lists of the same length are compared one by one. -/
theorem areAssignable_iff {sources targets : List Ty} (hlength : sources.length = targets.length) :
    t.areAssignable sources targets = true ↔ t.AllAssignable sources targets := by
  unfold areAssignable AllAssignable
  rw [List.forall₂_iff_zip, List.all_eq_true]
  exact ⟨fun h => ⟨hlength, fun hmem => h _ hmem⟩, fun h _ hmem => h.2 hmem⟩

theorem isApplicable_iff {params args : List Ty} :
    t.isApplicable params args = true ↔ t.AllAssignable args params := by
  unfold isApplicable
  rw [Bool.and_eq_true, beq_iff_eq]
  constructor
  · rintro ⟨hlength, hall⟩
    exact (areAssignable_iff hlength.symm).mp hall
  · intro h
    have hlength := List.Forall₂.length_eq h
    exact ⟨hlength.symm, (areAssignable_iff hlength).mpr h⟩

instance (sources targets : List Ty) : Decidable (t.AllAssignable sources targets) :=
  decidable_of_iff _ isApplicable_iff

namespace AllAssignable

variable {as bs cs : List Ty}

theorem refl (t : TypeTable) (as : List Ty) : t.AllAssignable as as :=
  List.forall₂_same.mpr (fun a _ => t.isAssignable_self a)

variable (horder : IsPartialOrder Ty (fun a b => t.isAssignable a b = true))
include horder

theorem trans (hab : t.AllAssignable as bs) (hbc : t.AllAssignable bs cs) :
    t.AllAssignable as cs := by
  induction hab generalizing cs with
  | nil => exact hbc
  | cons hab _ ih =>
    cases hbc with
    | cons hbc hrest => exact .cons (horder.trans _ _ _ hab hbc) (ih hrest)

theorem antisymm (hab : t.AllAssignable as bs) (hba : t.AllAssignable bs as) : as = bs := by
  induction hab with
  | nil => rfl
  | cons hab _ ih =>
    cases hba with
    | cons hba hrest => rw [horder.antisymm _ _ hab hba, ih hrest]

end AllAssignable

end TypeTable

end JoosStatics
