/-
JoosStatics.Proofs.Hierarchy.Interchangeable — methods that a type may choose
between.

Of several abstract methods of one signature a type keeps the first, and the
methods of its subtypes are compared with that one alone. The choice makes no
difference to subtypes that fare alike with all of them
(`TypeTable.Interchangeable`). So what a type has does not depend on the order in
which it names its superinterfaces where it declares the signature, has a method of it from
its superclass, or is left with interchangeable methods
(`TypeTable.Indifferent`).

* `PermutesClauses` — the same types with the clauses in another order.
* `Hierarchy.Resembles` — the same members, up to interchangeable ones.
* `Indifferent.permute` — where nothing is decided by one order, nothing is
  decided by the other.
-/
import JoosStatics.Proofs.Hierarchy.Dispatch

namespace JoosStatics

namespace TypeTable

variable {t t' : TypeTable} {id : ClassId} {key : MethodKey}

/-! ## §1 Clauses in another order -/

/-- The same types, with the superinterfaces of each named in another order. -/
structure PermutesClauses (t t' : TypeTable) : Prop where
  size : t'.size = t.size
  wellKnown : t'.wellKnown = t.wellKnown
  classAt : ∀ id, ∃ clause, clause.Perm (t.classAt id).interfaces ∧
    t'.classAt id = { t.classAt id with interfaces := clause }

namespace PermutesClauses

theorem symm (h : t.PermutesClauses t') : t'.PermutesClauses t where
  size := h.size.symm
  wellKnown := h.wellKnown.symm
  classAt id := by
    obtain ⟨clause, hperm, hclass⟩ := h.classAt id
    rw [hclass]
    exact ⟨(t.classAt id).interfaces, hperm.symm, rfl⟩

section Lookups

variable (h : t.PermutesClauses t')
include h

theorem superclass (id : ClassId) : (t'.classAt id).superclass = (t.classAt id).superclass := by
  obtain ⟨clause, -, hclass⟩ := h.classAt id
  rw [hclass]

theorem interfaces_perm (id : ClassId) :
    (t'.classAt id).interfaces.Perm (t.classAt id).interfaces := by
  obtain ⟨clause, hperm, hclass⟩ := h.classAt id
  rw [hclass]
  exact hperm

theorem methods (id : ClassId) : (t'.classAt id).methods = (t.classAt id).methods := by
  obtain ⟨clause, -, hclass⟩ := h.classAt id
  rw [hclass]

theorem declares_iff : t'.Declares id key ↔ t.Declares id key := by
  unfold Declares
  rw [h.methods]

theorem isInterface (id : ClassId) : (t'.classAt id).isInterface = (t.classAt id).isInterface := by
  obtain ⟨clause, -, hclass⟩ := h.classAt id
  rw [hclass]
  rfl

theorem isAbstract (id : ClassId) : (t'.classAt id).isAbstract = (t.classAt id).isAbstract := by
  obtain ⟨clause, -, hclass⟩ := h.classAt id
  rw [hclass]
  rfl

theorem isFinal (id : ClassId) : (t'.classAt id).isFinal = (t.classAt id).isFinal := by
  obtain ⟨clause, -, hclass⟩ := h.classAt id
  rw [hclass]
  rfl

theorem methodAt (ref : MethodRef) : t'.methodAt ref = t.methodAt ref := by
  unfold TypeTable.methodAt
  rw [h.methods]

theorem extends_iff {sub sup : ClassId} : t'.Extends sub sup ↔ t.Extends sub sup := by
  unfold Extends ClassDef.directSupertypes
  rw [h.superclass, List.mem_append, List.mem_append, (h.interfaces_perm sub).mem_iff]

theorem extends_eq : t'.Extends = t.Extends :=
  funext fun _ => funext fun _ => propext h.extends_iff

theorem isSubclass (sub sup : ClassId) : t'.isSubclass sub sup = t.isSubclass sub sup := by
  rw [Bool.eq_iff_iff, isSubclass_iff, isSubclass_iff, mem_supertypes_iff, mem_supertypes_iff,
    h.wellKnown, h.extends_eq]

theorem isCheckedException (id : ClassId) :
    t'.isCheckedException id = t.isCheckedException id := by
  unfold TypeTable.isCheckedException
  rw [h.wellKnown, h.isSubclass, h.isSubclass, h.isSubclass]

theorem isCovered (exception : ClassId) (throws : List ClassId) :
    t'.isCovered exception throws = t.isCovered exception throws := by
  unfold TypeTable.isCovered
  simp only [h.isSubclass]

theorem implicitMembers : t'.implicitMembers = t.implicitMembers := by
  unfold TypeTable.implicitMembers
  simp only [h.wellKnown, h.methods]

end Lookups

theorem replaces (h : t.PermutesClauses t') {new old : MethodRef} (hreplaces : t.Replaces new old) :
    t'.Replaces new old := by
  obtain ⟨hreturn, hfinal, hpublic, hstatic, hthrows⟩ := hreplaces
  constructor
  · rw [h.methodAt, h.methodAt]
    exact hreturn
  · rw [h.methodAt]
    exact hfinal
  · rw [h.methodAt, h.methodAt]
    exact hpublic
  · rw [h.methodAt, h.methodAt]
    exact hstatic
  · simp only [h.methodAt, h.isCheckedException, h.isCovered]
    exact hthrows

theorem replaces_iff (h : t.PermutesClauses t') {new old : MethodRef} :
    t'.Replaces new old ↔ t.Replaces new old :=
  ⟨h.symm.replaces, h.replaces⟩

end PermutesClauses

/-! ## §2 Interchangeable methods -/

/-- The proper subtypes of a type. -/
def StrictlyBelow (t : TypeTable) (id : ClassId) : Set ClassId :=
  {d | Relation.TransGen t.Extends d id}

/-- A type with its subtypes. -/
def Below (t : TypeTable) (id : ClassId) : Set ClassId :=
  {d | Relation.ReflTransGen t.Extends d id}

theorem below_subset {sup : ClassId} (hedge : t.Extends id sup) :
    t.Below id ⊆ t.StrictlyBelow sup :=
  fun _ hbelow => .tail' hbelow hedge

theorem strictlyBelow_subset (t : TypeTable) (id : ClassId) : t.StrictlyBelow id ⊆ t.Below id :=
  fun _ hbelow => hbelow.to_reflTransGen

/-- The method that the superclass of a type has under a signature. -/
def superMethod? (t : TypeTable) (h : Hierarchy) (id : ClassId) (key : MethodKey) :
    Option MemberMethod :=
  (t.classAt id).superclass.bind (fun sup => (h.members sup).method? key)

/-- Some types fare alike with two methods of a signature that they have to replace, be it with
methods that they declare or with concrete ones that they have from their superclasses
instead. -/
structure Interchangeable (t : TypeTable) (h : Hierarchy) (types : Set ClassId) (key : MethodKey)
    (m m' : MethodRef) : Prop where
  returnType : (t.methodAt m).returnType = (t.methodAt m').returnType
  declared : ∀ {d index method}, d ∈ types → (t.classAt d).methods[index]? = some method →
    method.key = key → (t.Replaces ⟨d, index⟩ m ↔ t.Replaces ⟨d, index⟩ m')
  inherited : ∀ {d above}, d ∈ types → ¬ t.Declares d key → t.superMethod? h d key = some above →
    above.isAbstract = false → ((m ≠ above.method → t.Replaces above.method m) ↔
      (m' ≠ above.method → t.Replaces above.method m'))

namespace Interchangeable

variable {h : Hierarchy} {types : Set ClassId} {m m' m'' : MethodRef}

theorem refl (t : TypeTable) (h : Hierarchy) (types : Set ClassId) (key : MethodKey)
    (m : MethodRef) : t.Interchangeable h types key m m :=
  ⟨rfl, fun _ _ _ => .rfl, fun _ _ _ _ => .rfl⟩

theorem symm (hi : t.Interchangeable h types key m m') : t.Interchangeable h types key m' m where
  returnType := hi.returnType.symm
  declared hd hmethod hkey := (hi.declared hd hmethod hkey).symm
  inherited hd hnot habove hconcrete := (hi.inherited hd hnot habove hconcrete).symm

theorem trans (hi : t.Interchangeable h types key m m')
    (hi' : t.Interchangeable h types key m' m'') : t.Interchangeable h types key m m'' where
  returnType := hi.returnType.trans hi'.returnType
  declared hd hmethod hkey :=
    (hi.declared hd hmethod hkey).trans (hi'.declared hd hmethod hkey)
  inherited hd hnot habove hconcrete :=
    (hi.inherited hd hnot habove hconcrete).trans (hi'.inherited hd hnot habove hconcrete)

theorem mono {types' : Set ClassId} (hi : t.Interchangeable h types key m m')
    (hsub : types' ⊆ types) : t.Interchangeable h types' key m m' where
  returnType := hi.returnType
  declared hd := hi.declared (hsub hd)
  inherited hd := hi.inherited (hsub hd)

end Interchangeable

/-- Two entries for a signature are the same, or abstract and interchangeable. -/
inductive Resembles (t : TypeTable) (h : Hierarchy) (types : Set ClassId) (key : MethodKey) :
    MemberMethod → MemberMethod → Prop
  | same (member : MemberMethod) : Resembles t h types key member member
  | abstract {member other : MemberMethod} (habstract : member.isAbstract = true)
      (hother : other.isAbstract = true)
      (hi : t.Interchangeable h types key member.method other.method) :
      Resembles t h types key member other

namespace Resembles

variable {h : Hierarchy} {types : Set ClassId} {member member' : MemberMethod}

theorem symm (ha : t.Resembles h types key member member') :
    t.Resembles h types key member' member := by
  cases ha with
  | same => exact .same _
  | abstract habstract hother hi => exact .abstract hother habstract hi.symm

theorem mono {types' : Set ClassId} (ha : t.Resembles h types key member member')
    (hsub : types' ⊆ types) : t.Resembles h types' key member member' := by
  cases ha with
  | same => exact .same _
  | abstract habstract hother hi => exact .abstract habstract hother (hi.mono hsub)

theorem isAbstract_eq (ha : t.Resembles h types key member member') :
    member'.isAbstract = member.isAbstract := by
  cases ha with
  | same => rfl
  | abstract habstract hother _ => rw [habstract, hother]

theorem interchangeable (ha : t.Resembles h types key member member') :
    t.Interchangeable h types key member.method member'.method := by
  cases ha with
  | same => exact .refl ..
  | abstract _ _ hi => exact hi

/-- Only an abstract entry is like another one. -/
theorem eq_of_concrete (ha : t.Resembles h types key member member')
    (hconcrete : member.isAbstract = false) : member' = member := by
  cases ha with
  | same => rfl
  | abstract habstract _ _ => cases habstract.symm.trans hconcrete

variable {entry entry' : Option MemberMethod}

theorem rel_symm (hr : Option.Rel (t.Resembles h types key) entry entry') :
    Option.Rel (t.Resembles h types key) entry' entry := by
  cases hr with
  | none => exact .none
  | some ha => exact .some ha.symm

theorem rel_mono {types' : Set ClassId} (hr : Option.Rel (t.Resembles h types key) entry entry')
    (hsub : types' ⊆ types) : Option.Rel (t.Resembles h types' key) entry entry' := by
  cases hr with
  | none => exact .none
  | some ha => exact .some (ha.mono hsub)

theorem exists_of_rel (hr : Option.Rel (t.Resembles h types key) entry entry')
    (hentry : entry = some member) :
    ∃ member', entry' = some member' ∧ t.Resembles h types key member member' := by
  subst hentry
  cases hr with
  | some ha => exact ⟨_, rfl, ha⟩

theorem eq_none_of_rel (hr : Option.Rel (t.Resembles h types key) entry entry')
    (hentry : entry = none) : entry' = none := by
  subst hentry
  cases hr with
  | none => rfl

end Resembles

end TypeTable

/-- Member sets have like entries under every signature. -/
structure MemberSet.Resembles (t : TypeTable) (h : Hierarchy) (types : Set ClassId)
    (m m' : MemberSet) : Prop where
  sorted : m.methods.Sorted
  sorted' : m'.methods.Sorted
  method? : ∀ key, Option.Rel (t.Resembles h types key) (m.method? key) (m'.method? key)

theorem MemberSet.Resembles.symm {t : TypeTable} {h : Hierarchy} {types : Set ClassId}
    {m m' : MemberSet} (ha : m.Resembles t h types m') : m'.Resembles t h types m where
  sorted := ha.sorted'
  sorted' := ha.sorted
  method? key := TypeTable.Resembles.rel_symm (ha.method? key)

/-- All types have like members, as far as their subtypes can tell. -/
def Hierarchy.Resembles (t : TypeTable) (h h' : Hierarchy) : Prop :=
  ∀ id, (h.members id).Resembles t h (t.StrictlyBelow id) (h'.members id)

namespace TypeTable

variable {t t' : TypeTable} {h h' : Hierarchy} {id : ClassId} {key : MethodKey}

/-! ## §3 Where the order decides nothing -/

/-- A superinterface of a type has a method under a signature. -/
def FromInterface (t : TypeTable) (h : Hierarchy) (id : ClassId) (key : MethodKey)
    (member : MemberMethod) : Prop :=
  ∃ sup ∈ (t.classAt id).interfaces, (h.members sup).method? key = some member

/-- Which superinterface comes first makes no difference to what a type has under a
signature: it declares a method, has one from its superclass, or has abstract methods from its
superinterfaces with which its subtypes fare alike. -/
inductive Indifferent (t : TypeTable) (h : Hierarchy) (id : ClassId) (key : MethodKey) : Prop
  | declared (hdeclares : t.Declares id key)
  | superclass {above : MemberMethod} (habove : t.superMethod? h id key = some above)
      (habstract : above.isAbstract = true → ∀ member, t.FromInterface h id key member →
        member.isAbstract = true)
  | interchangeable (hnone : t.superMethod? h id key = none)
      (habstract : ∀ member, t.FromInterface h id key member → member.isAbstract = true)
      (hsame : ∀ member other, t.FromInterface h id key member →
        t.FromInterface h id key other →
        t.Interchangeable h (t.StrictlyBelow id) key member.method other.method)

section Transport

variable (hp : t.PermutesClauses t') (halike : h.Resembles t h')
include hp

theorem PermutesClauses.strictlyBelow (id : ClassId) :
    t'.StrictlyBelow id = t.StrictlyBelow id := by
  unfold StrictlyBelow
  rw [hp.extends_eq]

include halike

theorem superMethod?_resembling (id : ClassId) (key : MethodKey) :
    Option.Rel (t.Resembles h (t.Below id) key) (t.superMethod? h id key)
      (t'.superMethod? h' id key) := by
  unfold superMethod?
  rw [hp.superclass]
  cases hsup : (t.classAt id).superclass with
  | none => exact .none
  | some sup =>
    exact Resembles.rel_mono ((halike sup).method? key) (below_subset (extends_of_superclass hsup))

theorem fromInterface_resembling {member' : MemberMethod}
    (hfrom : t'.FromInterface h' id key member') :
    ∃ member, t.FromInterface h id key member ∧ t.Resembles h (t.Below id) key member member' := by
  obtain ⟨sup, hsup, hmember'⟩ := hfrom
  have hsup := (hp.interfaces_perm id).mem_iff.mp hsup
  obtain ⟨member, hmember, hsame⟩ :=
    Resembles.exists_of_rel ((halike sup).symm.method? key) hmember'
  exact ⟨member, ⟨sup, hsup, hmember⟩,
    hsame.symm.mono (below_subset (List.mem_append_right _ hsup))⟩

/-- Types fare alike with two methods in the other table, too: it has the same concrete
methods. -/
theorem Interchangeable.permute {types : Set ClassId} {m m' : MethodRef}
    (hi : t.Interchangeable h types key m m') : t'.Interchangeable h' types key m m' where
  returnType := by
    rw [hp.methodAt, hp.methodAt]
    exact hi.returnType
  declared hd hmethod hkey := by
    rw [hp.replaces_iff, hp.replaces_iff]
    exact hi.declared hd (hp.methods _ ▸ hmethod) hkey
  inherited hd hnot habove hconcrete := by
    obtain ⟨_, hfound, hsame⟩ :=
      Resembles.exists_of_rel (Resembles.rel_symm (superMethod?_resembling hp halike _ key)) habove
    obtain rfl := hsame.eq_of_concrete hconcrete
    rw [hp.replaces_iff, hp.replaces_iff]
    exact hi.inherited hd (hp.declares_iff.not.mp hnot) hfound hconcrete

/-- Nothing is decided by the other order either. -/
theorem Indifferent.permute (hi : t.Indifferent h id key) : t'.Indifferent h' id key := by
  have hsuper := superMethod?_resembling hp halike id key
  cases hi with
  | declared hdeclares => exact .declared (hp.declares_iff.mpr hdeclares)
  | superclass habove habstract =>
    obtain ⟨above', habove', hsame⟩ := Resembles.exists_of_rel hsuper habove
    refine .superclass habove' (fun hflag member' hmember' => ?_)
    obtain ⟨member, hmember, hlike⟩ := fromInterface_resembling hp halike hmember'
    rw [hlike.isAbstract_eq]
    exact habstract (hsame.isAbstract_eq ▸ hflag) member hmember
  | interchangeable hnone habstract hsame =>
    refine .interchangeable (Resembles.eq_none_of_rel hsuper hnone) (fun member' hmember' => ?_)
      (fun member' other' hmember' hother' => ?_)
    · obtain ⟨member, hmember, hlike⟩ := fromInterface_resembling hp halike hmember'
      rw [hlike.isAbstract_eq]
      exact habstract member hmember
    · obtain ⟨member, hmember, hlike⟩ := fromInterface_resembling hp halike hmember'
      obtain ⟨other, hother, hlike'⟩ := fromInterface_resembling hp halike hother'
      have hback := hlike.symm.interchangeable.mono (t.strictlyBelow_subset id)
      have hforth := hlike'.interchangeable.mono (t.strictlyBelow_subset id)
      rw [hp.strictlyBelow]
      exact (hback.trans ((hsame member other hmember hother).trans hforth)).permute hp halike

end Transport

/-- In a linked table all that superinterfaces have is abstract, so it only matters what a type
chooses from. -/
theorem Indifferent.of_wellLinked (hl : t.WellLinked) (ha : t.Accepted h)
    (hsame : ∀ member other, t.FromInterface h id key member → t.FromInterface h id key other →
      t.Interchangeable h (t.StrictlyBelow id) key member.method other.method) :
    t.Indifferent h id key := by
  have habstract (member : MemberMethod) (hmember : t.FromInterface h id key member) :
      member.isAbstract = true := by
    obtain ⟨sup, hsup, hmethod⟩ := hmember
    exact ha.isAbstract_of_interface hl (hl.supertype_lt (List.mem_append_right _ hsup))
      (ha.interfaces_areInterfaces hsup) hmethod
  cases habove : t.superMethod? h id key with
  | none => exact .interchangeable habove habstract hsame
  | some above => exact .superclass habove (fun _ => habstract)

/-- A type with at most one superinterface has nothing to choose from. -/
theorem Indifferent.of_length_le (hl : t.WellLinked) (ha : t.Accepted h)
    (hone : (t.classAt id).interfaces.length ≤ 1) : t.Indifferent h id key := by
  refine .of_wellLinked hl ha ?_
  rintro member other ⟨sup, hsup, hmember⟩ ⟨sup', hsup', hother⟩
  obtain ⟨i, hi, rfl⟩ := List.mem_iff_getElem.mp hsup
  obtain ⟨j, hj, rfl⟩ := List.mem_iff_getElem.mp hsup'
  obtain rfl : i = j := by omega
  cases hmember.symm.trans hother
  exact .refl ..

/-- Types fare alike with two methods that their own methods replace, when they have no method
from their superclasses. -/
theorem Interchangeable.of_replaces {types : Set ClassId} {m m' : MethodRef}
    (hreturn : (t.methodAt m).returnType = (t.methodAt m').returnType)
    (hnone : ∀ d ∈ types, t.superMethod? h d key = none)
    (hreplaces : ∀ d ∈ types, ∀ declared ∈ (t.classAt d).methods.zipIdx,
      t.Replaces ⟨d, declared.2⟩ m ∧ t.Replaces ⟨d, declared.2⟩ m') :
    t.Interchangeable h types key m m' where
  returnType := hreturn
  declared {_ index method} hd hmethod _ := by
    obtain ⟨hm, hm'⟩ := hreplaces _ hd (method, index) (List.mem_zipIdx_iff_getElem?.mpr hmethod)
    exact iff_of_true hm hm'
  inherited hd _ habove _ := by cases (hnone _ hd).symm.trans habove

end TypeTable

end JoosStatics
