/-
JoosStatics.Proofs.SignatureOrder — signatures are totally ordered.

Member sets list signatures in the order of `MethodKey`. The order is a
total one: it is built from the orders of names, of primitive types
and of types (`Ty.cmp`), so maps whose keys are signatures can be kept
sorted.
-/
import JoosStatics.Hierarchy.Members

namespace JoosStatics

/-- The primitive types are totally ordered. -/
instance : Std.TransOrd Primitive where
  eq_swap {p q} := by cases p <;> cases q <;> rfl
  isLE_trans {p q r} h₁ h₂ := by
    cases p <;> cases q <;> cases r <;>
      first | rfl | exact absurd h₁ (by decide) | exact absurd h₂ (by decide)

namespace Ty

/-- Types of different forms are compared by their forms. -/
theorem cmp_of_rank_ne {a b : Ty} (h : a.rank ≠ b.rank) : cmp a b = compare a.rank b.rank := by
  cases a <;> cases b <;> first | rfl | exact absurd rfl h

theorem rank_le_of_isLE {a b : Ty} (h : (cmp a b).isLE = true) : a.rank ≤ b.rank := by
  by_cases hr : a.rank = b.rank
  · exact Nat.le_of_eq hr
  · rw [cmp_of_rank_ne hr] at h
    exact Nat.isLE_compare.mp h

/-- Comparing the other way round gives the opposite answer. -/
theorem cmp_swap (a b : Ty) : cmp a b = (cmp b a).swap := by
  induction a generalizing b with
  | primitive p =>
    cases b with
    | primitive q => exact Std.OrientedOrd.eq_swap
    | _ => rfl
  | declared i =>
    cases b with
    | declared j => exact Std.OrientedOrd.eq_swap
    | _ => rfl
  | array a ih =>
    cases b with
    | array b => exact ih b
    | _ => rfl
  | null => cases b <;> rfl
  | void => cases b <;> rfl

/-- The order of types is transitive. -/
theorem cmp_isLE_trans {a b c : Ty} (h₁ : (cmp a b).isLE = true) (h₂ : (cmp b c).isLE = true) :
    (cmp a c).isLE = true := by
  have hab := rank_le_of_isLE h₁
  have hbc := rank_le_of_isLE h₂
  by_cases hac : a.rank = c.rank
  · -- the three types have the same form
    have hb : a.rank = b.rank := by omega
    clear hab hbc
    induction a generalizing b c with
    | primitive p =>
      cases b <;> cases c <;> simp [rank] at hac hb
      exact Std.TransOrd.isLE_trans h₁ h₂
    | declared i =>
      cases b <;> cases c <;> simp [rank] at hac hb
      exact Std.TransOrd.isLE_trans h₁ h₂
    | array a ih =>
      cases b <;> cases c <;> simp [rank] at hac hb
      rename_i b c
      by_cases hr : a.rank = b.rank ∧ a.rank = c.rank
      · exact ih h₁ h₂ hr.2 hr.1
      · have hab := rank_le_of_isLE (a := a) (b := b) h₁
        have hbc := rank_le_of_isLE (a := b) (b := c) h₂
        have hne : a.rank ≠ c.rank := by omega
        show (cmp a c).isLE = true
        rw [cmp_of_rank_ne hne, Nat.isLE_compare]
        omega
    | null => cases c <;> simp [rank] at hac; rfl
    | void => cases c <;> simp [rank] at hac; rfl
  · rw [cmp_of_rank_ne hac, Nat.isLE_compare]
    omega

/-- Types are totally ordered. -/
instance : Std.TransOrd Ty where
  eq_swap := cmp_swap _ _
  isLE_trans := cmp_isLE_trans

end Ty

/-- Signatures are totally ordered. -/
instance : Std.TransOrd MethodKey where
  eq_swap {a b} := by
    show (compare a.name b.name).then (compare a.params b.params) = _
    rw [Std.OrientedOrd.eq_swap (a := a.name), Std.OrientedOrd.eq_swap (a := a.params),
      ← Ordering.swap_then]
    rfl
  isLE_trans {a b c} h₁ h₂ := by
    have key (x y : MethodKey) :
        (compare x y).isLE = true ↔ compare x.name y.name = .lt ∨
          (compare x.name y.name = .eq ∧ (compare x.params y.params).isLE = true) := by
      show ((compare x.name y.name).then (compare x.params y.params)).isLE = true ↔ _
      cases compare x.name y.name <;> simp
    rw [key] at h₁ h₂ ⊢
    rcases h₁ with hlt₁ | ⟨heq₁, hp₁⟩
    · rcases h₂ with hlt₂ | ⟨heq₂, -⟩
      · exact Or.inl (Std.TransCmp.lt_trans hlt₁ hlt₂)
      · exact Or.inl (Std.TransCmp.lt_of_lt_of_eq hlt₁ heq₂)
    · rcases h₂ with hlt₂ | ⟨heq₂, hp₂⟩
      · exact Or.inl (Std.TransCmp.lt_of_eq_of_lt heq₁ hlt₂)
      · exact Or.inr ⟨Std.TransCmp.eq_trans heq₁ heq₂, Std.TransCmp.isLE_trans hp₁ hp₂⟩

end JoosStatics
