/-
JoosStatics.Proofs.Hierarchy.Replacement — what it takes for a method to
stand in the place of another one.

`TypeTable.Replaces` lists the five rules; `checkReplace_eq_ok` and
`checkReplaceAll_eq_ok` say that the checks succeed exactly when the rules
hold. `InheritsFrom` is the choice among the inherited methods of one
signature, and `inheritFrom_eq_ok` says that `inheritFrom` makes it.
-/
import JoosStatics.Hierarchy.Members
import JoosStatics.Proofs.StatefulRuns

namespace JoosStatics.TypeTable

variable {t : TypeTable}

/-! ## §1 The five rules -/

/-- The first method may stand in the place of the second one. -/
structure Replaces (t : TypeTable) (new old : MethodRef) : Prop where
  returnType : (t.methodAt new).returnType = (t.methodAt old).returnType
  notFinal : (t.methodAt old).modifiers.isFinal = false
  notNarrower : (t.methodAt old).modifiers.isPublic = true →
    (t.methodAt new).modifiers.isProtected = false
  isStatic_eq : (t.methodAt new).isStatic = (t.methodAt old).isStatic
  throws : ∀ e ∈ (t.methodAt new).throws, t.isCheckedException e = true →
    t.isCovered e (t.methodAt old).throws = true

theorem isCovered_iff {exception : ClassId} {throws : List ClassId} :
    t.isCovered exception throws = true ↔
      ∃ declared ∈ throws, t.isSubclass exception declared = true := by
  unfold isCovered
  exact List.any_eq_true

/-- The rules on a throws clause hold when no exception breaks them. -/
theorem find?_uncovered_eq_none {thrown throws : List ClassId} :
    thrown.find? (fun e => t.isCheckedException e && !t.isCovered e throws) = none ↔
      ∀ e ∈ thrown, t.isCheckedException e = true → t.isCovered e throws = true := by
  simp only [List.find?_eq_none, Bool.and_eq_true, Bool.not_eq_true', not_and, Bool.not_eq_false]

/-- The check of a replacement succeeds exactly when the five rules hold. -/
theorem checkReplace_eq_ok {new old : MethodRef} {location : Location} :
    t.checkReplace new old location = .ok () ↔ t.Replaces new old := by
  unfold checkReplace
  simp only
  constructor
  · intro h
    split at h
    · cases h
    rename_i hreturn
    split at h
    · cases h
    rename_i hfinal
    split at h
    · cases h
    rename_i hpublic
    split at h
    · cases h
    rename_i hinstance
    split at h
    · cases h
    rename_i hstatic
    split at h
    · cases h
    rename_i hthrows
    constructor
    · exact not_not.mp hreturn
    · simpa using hfinal
    · intro hold
      simpa [hold] using hpublic
    · revert hinstance hstatic
      cases (t.methodAt new).isStatic <;> cases (t.methodAt old).isStatic <;> simp
    · exact find?_uncovered_eq_none.mp hthrows
  · intro h
    rw [if_neg (not_not.mpr h.returnType), h.notFinal]
    have hpublic : ((t.methodAt new).modifiers.isProtected &&
        (t.methodAt old).modifiers.isPublic) = false := by
      cases hold : (t.methodAt old).modifiers.isPublic with
      | false => simp
      | true => simp [h.notNarrower hold]
    rw [hpublic, h.isStatic_eq, find?_uncovered_eq_none.mpr h.throws]
    simp

theorem checkReplaceAll_eq_ok {new : MethodRef} {location : Location} {olds : List MemberMethod} :
    t.checkReplaceAll new location olds = .ok () ↔ ∀ old ∈ olds, t.Replaces new old.method := by
  induction olds with
  | nil => simp [checkReplaceAll]
  | cons old olds ih =>
    rw [checkReplaceAll, bind_eq_ok, List.forall_mem_cons, ← ih]
    constructor
    · rintro ⟨_, hold, holds⟩
      exact ⟨checkReplace_eq_ok.mp hold, holds⟩
    · rintro ⟨hold, holds⟩
      exact ⟨(), checkReplace_eq_ok.mpr hold, holds⟩

/-! ## §2 The choice among inherited methods -/

/-- What a type keeps of the methods that it inherits under one signature: the
first concrete one, which replaces all others; else the first one, which has
the result type of all others. -/
inductive InheritsFrom (t : TypeTable) (group : List MemberMethod) : Option MemberMethod → Prop
  | none (hempty : group = []) : InheritsFrom t group none
  | concrete {chosen : MemberMethod} (hmem : chosen ∈ group) (hconcrete : chosen.isAbstract = false)
      (hreplaces : ∀ other ∈ group, other.method ≠ chosen.method →
        t.Replaces chosen.method other.method) :
      InheritsFrom t group (some chosen)
  | allAbstract {first : MemberMethod} {others : List MemberMethod}
      (hgroup : group = first :: others)
      (habstract : ∀ member ∈ group, member.isAbstract = true)
      (hreturn : ∀ other ∈ group,
        (t.methodAt other.method).returnType = (t.methodAt first.method).returnType) :
      InheritsFrom t group (some first)

section Choice

variable {id : ClassId} {key : MethodKey} {group : List MemberMethod} {kept : Option MemberMethod}

/-- The first concrete method is kept when it replaces all others. -/
theorem inheritFrom_eq_ok_of_concrete {chosen : MemberMethod}
    (hfirst : group.find? (fun member => !member.isAbstract) = some chosen) :
    t.inheritFrom id key group = .ok kept ↔ kept = some chosen ∧
      ∀ other ∈ group, other.method ≠ chosen.method → t.Replaces chosen.method other.method := by
  have hothers {location : Location} : t.checkReplaceAll chosen.method location
      (group.filter (fun other => other.method ≠ chosen.method)) = .ok () ↔
      ∀ other ∈ group, other.method ≠ chosen.method → t.Replaces chosen.method other.method := by
    simp only [checkReplaceAll_eq_ok, List.mem_filter, decide_eq_true_eq, and_imp]
  unfold inheritFrom
  simp only [hfirst]
  constructor
  · intro h
    obtain ⟨_, hreplaces, hkept⟩ := bind_eq_ok.mp h
    cases hkept
    exact ⟨rfl, hothers.mp hreplaces⟩
  · rintro ⟨rfl, hreplaces⟩
    exact bind_eq_ok.mpr ⟨(), hothers.mpr hreplaces, rfl⟩

/-- The first of several abstract methods is kept when it has the result type of all
others. -/
theorem inheritFrom_eq_ok_of_abstract {first : MemberMethod} {others : List MemberMethod}
    (habstract : ∀ member ∈ first :: others, member.isAbstract = true) :
    t.inheritFrom id key (first :: others) = .ok kept ↔ kept = some first ∧
      ∀ other ∈ others,
        (t.methodAt other.method).returnType = (t.methodAt first.method).returnType := by
  have hnone : (first :: others).find? (fun member => !member.isAbstract) = none :=
    List.find?_eq_none.mpr (fun member hmember => by simp [habstract member hmember])
  unfold inheritFrom
  simp only [hnone]
  split
  · rename_i other hother
    have hdiffers :
        (t.methodAt other.method).returnType ≠ (t.methodAt first.method).returnType := by
      simpa using List.find?_some hother
    exact ⟨fun h => (by cases h),
      fun h => absurd (h.2 other (List.mem_of_find?_eq_some hother)) hdiffers⟩
  · rename_i hagree
    have hreturn (other : MemberMethod) (hother : other ∈ others) :
        (t.methodAt other.method).returnType = (t.methodAt first.method).returnType := by
      simpa using List.find?_eq_none.mp hagree other hother
    constructor
    · intro h
      cases h
      exact ⟨rfl, hreturn⟩
    · rintro ⟨rfl, -⟩
      rfl

theorem inheritFrom_eq_ok (h : t.inheritFrom id key group = .ok kept) :
    t.InheritsFrom group kept := by
  cases hfind : group.find? (fun member => !member.isAbstract) with
  | some concrete =>
    obtain ⟨rfl, hreplaces⟩ := (inheritFrom_eq_ok_of_concrete hfind).mp h
    exact .concrete (List.mem_of_find?_eq_some hfind) (by simpa using List.find?_some hfind)
      hreplaces
  | none =>
    have habstract : ∀ member ∈ group, member.isAbstract = true := by
      intro member hmember
      simpa using List.find?_eq_none.mp hfind member hmember
    cases group with
    | nil =>
      cases h
      exact .none rfl
    | cons first others =>
      obtain ⟨rfl, hreturn⟩ := (inheritFrom_eq_ok_of_abstract habstract).mp h
      exact .allAbstract rfl habstract (List.forall_mem_cons.mpr ⟨rfl, hreturn⟩)

end Choice

namespace InheritsFrom

variable {group : List MemberMethod} {chosen : MemberMethod}

/-- What is kept is one of the inherited methods. -/
theorem mem (h : t.InheritsFrom group (some chosen)) : chosen ∈ group := by
  cases h with
  | concrete hmem _ _ => exact hmem
  | allAbstract hgroup _ _ =>
    rw [hgroup]
    exact List.mem_cons_self ..

/-- Something is kept when something is inherited. -/
theorem exists_some {kept : Option MemberMethod} (h : t.InheritsFrom group kept)
    {member : MemberMethod} (hmember : member ∈ group) : ∃ chosen, kept = some chosen := by
  cases h with
  | none hempty =>
    rw [hempty] at hmember
    cases hmember
  | concrete _ _ _ => exact ⟨_, rfl⟩
  | allAbstract _ _ _ => exact ⟨_, rfl⟩

/-- What is kept has the result type of every inherited method. -/
theorem returnType_eq (h : t.InheritsFrom group (some chosen)) {member : MemberMethod}
    (hmember : member ∈ group) :
    (t.methodAt chosen.method).returnType = (t.methodAt member.method).returnType := by
  cases h with
  | concrete _ _ hreplaces =>
    by_cases heq : member.method = chosen.method
    · rw [heq]
    · exact (hreplaces member hmember heq).returnType
  | allAbstract _ _ hreturn => exact (hreturn member hmember).symm

/-- A concrete method that is kept replaces every other inherited method. -/
theorem replaces (h : t.InheritsFrom group (some chosen)) (hconcrete : chosen.isAbstract = false)
    {member : MemberMethod} (hmember : member ∈ group) (hne : member.method ≠ chosen.method) :
    t.Replaces chosen.method member.method := by
  cases h with
  | concrete _ _ hreplaces => exact hreplaces member hmember hne
  | allAbstract hgroup habstract _ =>
    rw [habstract chosen (by rw [hgroup]; exact List.mem_cons_self ..)] at hconcrete
    cases hconcrete

end InheritsFrom

end JoosStatics.TypeTable
