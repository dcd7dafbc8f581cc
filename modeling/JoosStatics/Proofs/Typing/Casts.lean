/-
JoosStatics.Proofs.Typing.Casts — the casts that are rejected could never
succeed.

A cast succeeds on an object whose class is below the target. It is rejected
when no such object can have the type of the operand: no class, interface or
array is below both types. Three promises of the hierarchy check stand behind
this. A class has one superclass, so two classes above a type are above each
other (`Accepted.total_of_mem_supertypes`); only classes are above a class
through its superclass; and nothing but itself is below a final class
(`Checked.eq_or_isOpen`).

The library has the rest: the types above arrays are interfaces without
supertypes, `java.lang.Object` apart.

* `rejected_casts_impossible` — a rejected cast between types without a common
  subtype; assignable types can be cast, and casts go both ways.
-/
import JoosStatics.Proofs.Hierarchy.Dispatch
import JoosStatics.Proofs.Hierarchy.TypeOrder
import JoosStatics.Proofs.Typing.Denotable

namespace JoosStatics

namespace TypeTable

variable {t : TypeTable} {h : Hierarchy} {a b c : ClassId}

/-! ## §1 Classes above a type -/

/-- A class above a type is on its superclass chain. -/
theorem Accepted.onSuperclassChain (hl : t.WellLinked) (ha : t.Accepted h)
    (hsup : b ∈ t.supertypes a) (hclass : (t.classAt b).isInterface = false) :
    t.OnSuperclassChain a b := by
  have hpath := t.mem_supertypes_iff.mp hsup
  clear hsup
  induction hpath with
  | refl => exact .refl
  | @tail middle last _ hedge ih =>
    rcases List.mem_append.mp hedge with hsuper | hinterface
    · have hsuper := Option.mem_toList.mp hsuper
      -- an interface has no superclass, so the type below is a class too
      have hmiddle : (t.classAt middle).isInterface = false := by
        by_contra hne
        rw [hl.superclass_of_interface (Bool.eq_true_of_not_eq_false hne)] at hsuper
        cases hsuper
      exact (ih hmiddle).tail hsuper
    · rw [ha.interfaces_areInterfaces hinterface] at hclass
      cases hclass

/-- Of two classes above a type one is above the other. -/
theorem Accepted.total_of_mem_supertypes (hl : t.WellLinked) (ha : t.Accepted h)
    (hca : a ∈ t.supertypes c) (haclass : (t.classAt a).isInterface = false)
    (hcb : b ∈ t.supertypes c) (hbclass : (t.classAt b).isInterface = false) :
    b ∈ t.supertypes a ∨ a ∈ t.supertypes b := by
  have hunique : Relator.RightUnique (fun sub sup => (t.classAt sub).superclass = some sup) :=
    fun _ _ _ hone hother => Option.some.inj (hone.symm.trans hother)
  have htotal := Relation.ReflTransGen.total_of_right_unique hunique
    (ha.onSuperclassChain hl hca haclass) (ha.onSuperclassChain hl hcb hbclass)
  exact htotal.imp OnSuperclassChain.mem_supertypes OnSuperclassChain.mem_supertypes

/-- Other types may be below a type: it is an interface, or a class that is not final. -/
def IsOpen (t : TypeTable) (id : ClassId) : Prop :=
  (t.classAt id).isInterface = true ∨ (t.classAt id).isFinal = false

/-- Only a final class itself is below it. -/
theorem Checked.eq_or_isOpen (hc : t.Checked h) (hsup : b ∈ t.supertypes a) :
    a = b ∨ t.IsOpen b := by
  rcases (t.mem_supertypes_iff.mp hsup).cases_tail with heq | ⟨sub, -, hedge⟩
  · exact .inl heq.symm
  · obtain ⟨hsuperclass, hinterfaces, -⟩ :=
      checkSupertypeEdges_eq_ok.mp (hc.edges sub (List.mem_range.mpr hedge.lt_size))
    rcases List.mem_append.mp hedge with hsuper | hinterface
    · exact .inr (.inr (hsuperclass b (Option.mem_toList.mp hsuper)).2)
    · exact .inr (.inl (hinterfaces b hinterface))

/-! ## §2 The rules of casts -/

/-- Classes and interfaces can be cast along subtyping; to or from an interface also when
some class could be below both. -/
theorem isCastable_declared : t.isCastable (.declared a) (.declared b) = true ↔
    t.isSubclass a b = true ∨ t.isSubclass b a = true ∨
      ((t.classAt a).isInterface = true ∨ (t.classAt b).isInterface = true) ∧
        t.IsOpen a ∧ t.IsOpen b := by
  unfold IsOpen
  rw [isCastable, isAssignable_declared, isAssignable_declared]
  cases (t.classAt a).isInterface <;> cases (t.classAt b).isInterface <;> simp [or_assoc]

theorem isCastable_array {a b : Ty} : t.isCastable (.array a) (.array b) = true ↔
    t.isAssignable (.array a) (.array b) = true ∨ t.isAssignable (.array b) (.array a) = true ∨
      a.isReference = true ∧ b.isReference = true ∧ t.isCastable a b = true := by
  conv_lhs => unfold isCastable
  simp [or_assoc, and_assoc]

theorem isCastable_array_declared {element : Ty} {id : ClassId} :
    t.isCastable (.array element) (.declared id) = true ↔ t.IsAboveArrays id := by
  rw [← @isAssignable_array_declared t element]
  simp [isCastable, isAssignable]

theorem isCastable_declared_array {element : Ty} {id : ClassId} :
    t.isCastable (.declared id) (.array element) = true ↔ t.IsAboveArrays id := by
  rw [← @isAssignable_array_declared t element]
  simp [isCastable, isAssignable]

/-- What can be assigned can be cast. -/
theorem Assignable.isCastable {source target : Ty} (h : t.Assignable source target)
    (hsource : source ≠ .void) : t.isCastable source target = true := by
  cases h with
  | refl =>
    cases source with
    | primitive p => simp [TypeTable.isCastable]
    | declared id => exact isCastable_declared.mpr (.inl (t.isSubclass_self id))
    | array element => exact isCastable_array.mpr (.inl (t.isAssignable_self _))
    | null => rfl
    | void => exact absurd rfl hsource
  | @widen p q h =>
    revert h
    cases p <;> cases q <;> simp [TypeTable.isCastable, Primitive.widensTo, Primitive.isNumeric]
  | nullDeclared | nullArray => rfl
  | subclass h => exact isCastable_declared.mpr (.inl h)
  | arrayDeclared element h => exact isCastable_array_declared.mpr h
  | elements ha hb h =>
    exact isCastable_array.mpr (.inl (isAssignable_iff.mpr (.elements ha hb h)))

/-- An array of nulls can be cast to and from all arrays of references. -/
theorem isAssignable_array_null {element : Ty} (h : element.isReference = true) :
    t.isAssignable (.array .null) (.array element) = true := by
  refine isAssignable_array.mpr (.inr ⟨rfl, h, ?_⟩)
  cases element with
  | declared | array | null => simp [isAssignable]
  | _ => cases h

/-- Casts go both ways, those of the null type apart. -/
theorem isCastable_symm {source target : Ty} (hsource : source ≠ .null) (htarget : target ≠ .null)
    (h : t.isCastable source target = true) : t.isCastable target source = true := by
  induction source generalizing target with
  | primitive p =>
    cases target with
    | primitive q =>
      simp only [isCastable, Bool.or_eq_true, Bool.and_eq_true, beq_iff_eq] at h ⊢
      exact h.imp And.symm Eq.symm
    | _ => simp [isCastable] at h
  | declared a =>
    cases target with
    | declared b =>
      rw [isCastable_declared] at h ⊢
      tauto
    | array element => exact isCastable_array_declared.mpr (isCastable_declared_array.mp h)
    | null => exact absurd rfl htarget
    | _ => simp [isCastable] at h
  | array a ih =>
    cases target with
    | declared id => exact isCastable_declared_array.mpr (isCastable_array_declared.mp h)
    | array b =>
      rcases isCastable_array.mp h with hto | hfrom | ⟨ha, hb, helements⟩
      · exact isCastable_array.mpr (.inr (.inl hto))
      · exact isCastable_array.mpr (.inl hfrom)
      -- arrays of nulls are below all arrays of references, whatever their elements do
      by_cases hanull : a = .null
      · subst hanull
        exact isCastable_array.mpr (.inr (.inl (isAssignable_array_null hb)))
      by_cases hbnull : b = .null
      · subst hbnull
        exact isCastable_array.mpr (.inl (isAssignable_array_null ha))
      exact isCastable_array.mpr (.inr (.inr ⟨hb, ha, ih hanull hbnull helements⟩))
    | null => exact absurd rfl htarget
    | _ => simp [isCastable] at h
  | null => exact absurd rfl hsource
  | void => simp [isCastable] at h

/-- Types of which one can be assigned to the other can be cast. -/
theorem isCastable_of_isAssignable {source target : Ty} (hsource : source ≠ .void)
    (htarget : target ≠ .null)
    (h : t.isAssignable source target = true ∨ t.isAssignable target source = true) :
    t.isCastable source target = true := by
  rcases h with h | h
  · exact (isAssignable_iff.mp h).isCastable hsource
  · have hrule := isAssignable_iff.mp h
    have hnull : source ≠ .null := by
      rintro rfl
      cases hrule
      exact htarget rfl
    exact isCastable_symm htarget hnull (hrule.isCastable (ne_void_of_isAssignable h hsource))

end TypeTable

/-! ## §3 Types with a common subtype -/

namespace HasHierarchy

variable {program library : List CompilationUnit} {l : Linked} {h : Hierarchy}

/-- Classes and interfaces with a common subtype can be cast. -/
theorem isCastable_of_isSubclass (hh : HasHierarchy program library l h) {a b c : ClassId}
    (hca : l.table.isSubclass c a = true) (hcb : l.table.isSubclass c b = true) :
    l.table.isCastable (.declared a) (.declared b) = true := by
  rw [TypeTable.isCastable_declared]
  rcases l.table.isSubclass_iff.mp hca with rfl | ha
  · exact .inr (.inl (l.table.isSubclass_object b))
  rcases l.table.isSubclass_iff.mp hcb with rfl | hb
  · exact .inl (l.table.isSubclass_object a)
  rcases hh.checked.eq_or_isOpen ha with rfl | haopen
  · exact .inl hcb
  rcases hh.checked.eq_or_isOpen hb with rfl | hbopen
  · exact .inr (.inl hca)
  cases haclass : (l.table.classAt a).isInterface with
  | true => exact .inr (.inr ⟨.inl rfl, haopen, hbopen⟩)
  | false =>
    cases hbclass : (l.table.classAt b).isInterface with
    | true => exact .inr (.inr ⟨.inr rfl, haopen, hbopen⟩)
    | false =>
      rcases hh.accepted.total_of_mem_supertypes hh.wellLinked ha haclass hb hbclass with hab | hba
      · exact .inl (l.table.isSubclass_iff.mpr (.inr hab))
      · exact .inr (.inl (l.table.isSubclass_iff.mpr (.inr hba)))

/-- The types above arrays can be cast to each other. -/
theorem isCastable_aboveArrays (hh : HasHierarchy program Library.units l h) {a b : ClassId}
    (ha : l.table.IsAboveArrays a) (hb : l.table.IsAboveArrays b) :
    l.table.isCastable (.declared a) (.declared b) = true := by
  rw [TypeTable.isCastable_declared]
  rcases hh.isLinked.isInterface_of_isAboveArrays ha with rfl | ha
  · exact .inr (.inl (l.table.isSubclass_object b))
  rcases hh.isLinked.isInterface_of_isAboveArrays hb with rfl | hb
  · exact .inl (l.table.isSubclass_object a)
  exact .inr (.inr ⟨.inl ha, .inl ha, .inl hb⟩)

/-- Types with a common subtype can be cast, when this is a class, an interface or an array
that can be written. -/
theorem isCastable_of_assignable (hh : HasHierarchy program Library.units l h)
    {sub source target : Ty} (hreference : sub.isReference = true)
    (hdenotable : sub.isDenotable = true) (hsource : l.table.Assignable sub source)
    (htarget : l.table.Assignable sub target) : l.table.isCastable source target = true := by
  induction hsource generalizing target with
  | refl => exact htarget.isCastable (Ty.ne_void_of_isDenotable hdenotable)
  | widen => cases hreference
  | nullDeclared | nullArray => cases hdenotable
  | @subclass _ b hsource =>
    cases htarget with
    | refl => exact TypeTable.isCastable_declared.mpr (.inr (.inl hsource))
    | subclass htarget => exact hh.isCastable_of_isSubclass hsource htarget
  | arrayDeclared element hsource =>
    cases htarget with
    | refl => exact TypeTable.isCastable_declared_array.mpr hsource
    | arrayDeclared _ htarget => exact hh.isCastable_aboveArrays hsource htarget
    | elements => exact TypeTable.isCastable_declared_array.mpr hsource
  | @elements _ b ha hb hsource ih =>
    cases htarget with
    | refl =>
      have hassign := TypeTable.isAssignable_iff.mpr (.elements ha hb hsource)
      exact TypeTable.isCastable_array.mpr (.inr (.inl hassign))
    | arrayDeclared _ htarget => exact TypeTable.isCastable_array_declared.mpr htarget
    | elements _ hc htarget =>
      exact TypeTable.isCastable_array.mpr (.inr (.inr ⟨hb, hc, ih ha hdenotable htarget⟩))

/-- In a program that is linked with the library and has an accepted hierarchy, no class,
interface or array that can be written is below both types of a cast that is rejected.
Conversely what can be assigned one way or the other can be cast, and casts go both ways. -/
theorem rejected_casts_impossible (hh : HasHierarchy program Library.units l h) :
    (∀ source target, l.table.isCastable source target = false →
      ¬ ∃ sub : Ty, sub.isReference = true ∧ sub.isDenotable = true ∧
        l.table.isAssignable sub source = true ∧ l.table.isAssignable sub target = true) ∧
    (∀ source target, source ≠ .void → target ≠ .null →
      l.table.isAssignable source target = true ∨ l.table.isAssignable target source = true →
      l.table.isCastable source target = true) ∧
    ∀ source target, source ≠ .null → target ≠ .null →
      l.table.isCastable source target = l.table.isCastable target source := by
  refine ⟨fun source target hrejected => ?_,
    fun _ _ => TypeTable.isCastable_of_isAssignable, fun source target hsource htarget => ?_⟩
  · rintro ⟨sub, hreference, hdenotable, hto, hother⟩
    rw [hh.isCastable_of_assignable hreference hdenotable (TypeTable.isAssignable_iff.mp hto)
      (TypeTable.isAssignable_iff.mp hother)] at hrejected
    cases hrejected
  · exact Bool.eq_iff_iff.mpr ⟨TypeTable.isCastable_symm hsource htarget,
      TypeTable.isCastable_symm htarget hsource⟩

end HasHierarchy

/-- Nothing is an array of labels and an array of solids. -/
theorem solids_casts_impossible :
    ∃ l h, HasHierarchy solids Library.units l h ∧
      l.table.isCastable (.array (.declared 2)) (.array (.declared 0)) = false ∧
      ¬ ∃ sub : Ty, sub.isReference = true ∧ sub.isDenotable = true ∧
        l.table.isAssignable sub (.array (.declared 2)) = true ∧
        l.table.isAssignable sub (.array (.declared 0)) = true := by
  obtain ⟨l, h, hh, hrejected⟩ := solids_hasHierarchy
  exact ⟨l, h, hh, hrejected, hh.rejected_casts_impossible.1 _ _ hrejected⟩

end JoosStatics
