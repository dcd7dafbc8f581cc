/-
JoosStatics.Proofs.Hierarchy.Exceptions — checked exceptions and the types
above them.

`java.lang.Object` is a declared supertype of every class, so subtyping is
transitive from classes (`Accepted.isSubclass_trans`). What is above a
checked exception class is checked as well, as long as it is throwable
(`Accepted.isCheckedException_above`).
-/
import JoosStatics.Proofs.Hierarchy.Accepted

namespace JoosStatics.TypeTable

variable {t : TypeTable} {h : Hierarchy} {id : ClassId}

theorem Accepted.object_mem_supertypes (hl : t.WellLinked) (ha : t.Accepted h) (hid : id < t.size)
    (hclass : (t.classAt id).isInterface = false) : t.wellKnown.object ∈ t.supertypes id := by
  induction id using ha.wellFounded.induction with
  | _ id ih =>
    cases hsuperclass : (t.classAt id).superclass with
    | none =>
      rw [← hl.eq_object hid hclass hsuperclass]
      exact t.mem_supertypes_self id
    | some sup =>
      have hedge : t.Extends id sup :=
        List.mem_append_left _ (Option.mem_toList.mpr hsuperclass)
      have habove := ih sup hedge (hl.supertype_lt hedge) (ha.superclass_isClass hsuperclass)
      exact t.mem_supertypes_iff.mpr (.head hedge (t.mem_supertypes_iff.mp habove))

/-- What is thrown is a type of the table. -/
theorem lt_size_of_throwable (hl : t.WellLinked)
    (hthrowable : t.isSubclass id t.wellKnown.throwable = true) : id < t.size := by
  rcases t.isSubclass_iff.mp hthrowable with heq | hmem
  · exact absurd heq hl.throwable_ne_object
  · rcases (t.mem_supertypes_iff.mp hmem).cases_head with rfl | ⟨sup, hedge, -⟩
    · exact hl.throwable_lt
    · exact hedge.lt_size

/-- The three conditions on a checked exception. -/
theorem isCheckedException_iff : t.isCheckedException id = true ↔
    t.isSubclass id t.wellKnown.throwable = true ∧
    t.isSubclass id t.wellKnown.runtimeException = false ∧
    t.isSubclass id t.wellKnown.error = false := by
  unfold isCheckedException
  simp only [Bool.and_eq_true, Bool.not_eq_true', and_assoc]

/-- Subtyping is transitive from a class that is thrown. -/
theorem Accepted.isSubclass_trans (hl : t.WellLinked) (ha : t.Accepted h)
    (hclass : (t.classAt id).isInterface = false) (hchecked : t.isCheckedException id = true)
    {b c : ClassId} (hab : t.isSubclass id b = true) (hbc : t.isSubclass b c = true) :
    t.isSubclass id c = true := by
  have hid := lt_size_of_throwable hl (isCheckedException_iff.mp hchecked).1
  exact t.isSubclass_trans (ha.object_mem_supertypes hl hid hclass) hab hbc

/-- A throwable type above a checked exception class is checked. -/
theorem Accepted.isCheckedException_above (hl : t.WellLinked) (ha : t.Accepted h)
    (hclass : (t.classAt id).isInterface = false) (hchecked : t.isCheckedException id = true)
    {sup : ClassId} (hsup : t.isSubclass id sup = true)
    (hthrowable : t.isSubclass sup t.wellKnown.throwable = true) :
    t.isCheckedException sup = true := by
  obtain ⟨-, hruntime, herror⟩ := isCheckedException_iff.mp hchecked
  have habove : ∀ {c}, t.isSubclass id c = false → t.isSubclass sup c = false := by
    intro c hid
    cases hc : t.isSubclass sup c with
    | false => rfl
    | true =>
      rw [ha.isSubclass_trans hl hclass hchecked hsup hc] at hid
      cases hid
  exact isCheckedException_iff.mpr ⟨hthrowable, habove hruntime, habove herror⟩

end JoosStatics.TypeTable
