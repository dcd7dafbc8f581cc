/-
JoosStatics.Proofs.Hierarchy.Dispatch — in a concrete class the member set is
the walk up the superclass chain.

`TypeTable.Dispatches` is that walk: the nearest class of the chain that
declares a signature answers it. Member sets are merged from classes and
interfaces alike, but an interface has abstract methods only
(`Accepted.isAbstract_of_interface`), so a method that is not abstract came
down the chain (`Accepted.dispatches`).
-/
import JoosStatics.Proofs.Hierarchy.Inheritance

namespace JoosStatics

namespace TypeTable

variable {t : TypeTable} {h : Hierarchy} {id c d : ClassId} {key : MethodKey}
  {member : MemberMethod}

/-! ## §1 The walk up the chain -/

/-- A type declares a method of a signature. -/
def Declares (t : TypeTable) (id : ClassId) (key : MethodKey) : Prop :=
  ∃ m ∈ (t.classAt id).methods, m.key = key

/-- A class is a type itself or stands above it on its superclass chain. -/
def OnSuperclassChain (t : TypeTable) : ClassId → ClassId → Prop :=
  Relation.ReflTransGen (fun sub sup => (t.classAt sub).superclass = some sup)

/-- The declaration of a signature in the nearest class of the superclass chain
that has one. -/
inductive Dispatches (t : TypeTable) (key : MethodKey) : ClassId → MethodRef → Prop
  | here {id : ClassId} {index : Nat} {m : MethodDef}
      (hm : (t.classAt id).methods[index]? = some m) (hkey : m.key = key) :
      Dispatches t key id ⟨id, index⟩
  | above {id sup : ClassId} {ref : MethodRef} (hnot : ¬ t.Declares id key)
      (hsup : (t.classAt id).superclass = some sup) (hrest : Dispatches t key sup ref) :
      Dispatches t key id ref

theorem extends_of_superclass {sup : ClassId} (hsup : (t.classAt id).superclass = some sup) :
    t.Extends id sup :=
  List.mem_append_left _ (Option.mem_toList.mpr hsup)

/-- What a type inherits from its superclass stands first in its group. -/
theorem head?_group_of_superclass {sup : ClassId} (hsup : (t.classAt id).superclass = some sup)
    (habove : (h.members sup).method? key = some member) :
    ((t.inheritedGroups (t.classAt id) ((t.classAt id).directSupertypes.map h.members)).group
      key).head? = some member := by
  have hsupers : (t.classAt id).directSupertypes.map h.members =
      h.members sup :: (t.classAt id).interfaces.map h.members := by
    simp [ClassDef.directSupertypes, hsup]
  rw [hsupers]
  exact head?_group t (t.classAt id) habove _

theorem OnSuperclassChain.mem_supertypes (hchain : t.OnSuperclassChain d c) :
    c ∈ t.supertypes d := by
  rw [mem_supertypes_iff]
  induction hchain with
  | refl => exact .refl
  | tail _ hsup ih => exact ih.tail (extends_of_superclass hsup)

/-- The walk ends at a class of the chain that declares the signature. -/
theorem Dispatches.exists_declares {ref : MethodRef} (hwalk : t.Dispatches key d ref) :
    ∃ c, t.OnSuperclassChain d c ∧ t.Declares c key := by
  induction hwalk with
  | here hm hkey => exact ⟨_, .refl, _, List.mem_of_getElem? hm, hkey⟩
  | above _ hsup _ ih =>
    obtain ⟨c, hchain, hdeclares⟩ := ih
    exact ⟨c, .head hsup hchain, hdeclares⟩

/-- A type declares a signature at one position only. -/
theorem Accepted.index_eq (ha : t.Accepted h) {i j : Nat} {m n : MethodDef}
    (hm : (t.classAt id).methods[i]? = some m) (hn : (t.classAt id).methods[j]? = some n)
    (hkey : m.key = n.key) : i = j := by
  have hlt : i < ((t.classAt id).methods.map MethodDef.key).length := by
    rw [List.length_map]
    exact (List.getElem?_eq_some_iff.mp hm).1
  apply (List.getElem?_inj hlt (ha.methods_nodup id)).mp
  rw [List.getElem?_map, List.getElem?_map, hm, hn, Option.map_some, Option.map_some, hkey]

/-- The walk has one answer. -/
theorem Accepted.dispatches_unique (ha : t.Accepted h) {ref ref' : MethodRef}
    (hwalk : t.Dispatches key d ref) (hwalk' : t.Dispatches key d ref') : ref = ref' := by
  induction hwalk with
  | here hm hkey =>
    cases hwalk' with
    | here hn hkey' => rw [ha.index_eq hm hn (hkey.trans hkey'.symm)]
    | above hnot _ _ => exact absurd ⟨_, List.mem_of_getElem? hm, hkey⟩ hnot
  | above hnot hsup _ ih =>
    cases hwalk' with
    | here hn hkey' => exact absurd ⟨_, List.mem_of_getElem? hn, hkey'⟩ hnot
    | above _ hsup' hrest' =>
      rw [hsup] at hsup'
      cases hsup'
      exact ih hrest'

/-! ## §2 Abstract and concrete entries -/

/-- Every method of an interface is abstract in it. -/
theorem Accepted.isAbstract_of_interface (hl : t.WellLinked) (ha : t.Accepted h) (hid : id < t.size)
    (hinterface : (t.classAt id).isInterface = true)
    (hfind : (h.members id).method? key = some member) : member.isAbstract = true := by
  induction id using ha.wellFounded.induction with
  | _ id ih =>
    cases ha.origin hl hid hfind with
    | declared hm _ heq =>
      rw [heq]
      exact hl.methods_of_interface hinterface _ (List.mem_of_getElem? hm)
    | inherited _ hedge habove =>
      have hinherited := hedge
      rw [Extends, ClassDef.directSupertypes, hl.superclass_of_interface hinterface] at hinherited
      exact ih _ hedge (hl.supertype_lt hedge) (ha.interfaces_areInterfaces hinherited) habove
    | implicit _ _ himplicit => exact isAbstract_of_implicit himplicit

/-- A method that is not abstract in a type is what the walk finds, and it is
not declared abstract. -/
theorem Accepted.dispatches (hl : t.WellLinked) (ha : t.Accepted h) (hid : id < t.size)
    (hfind : (h.members id).method? key = some member) (hconcrete : member.isAbstract = false) :
    t.Dispatches key id member.method ∧ (t.methodAt member.method).isAbstract = false := by
  induction id using ha.wellFounded.induction with
  | _ id ih =>
    cases ha.origin hl hid hfind with
    | declared hm hkey heq =>
      subst heq
      refine ⟨.here hm hkey, ?_⟩
      rwa [methodAt_of_getElem? hm]
    | inherited hnot hedge habove =>
      have hlt := hl.supertype_lt hedge
      obtain ⟨hwalk, hdeclared⟩ := ih _ hedge hlt habove
      refine ⟨.above ?_ ?_ hwalk, hdeclared⟩
      · rintro ⟨m, hm, hkey⟩
        exact hnot m hm hkey
      · rcases List.mem_append.mp hedge with hsup | hsup
        · exact Option.mem_toList.mp hsup
        · rw [ha.isAbstract_of_interface hl hlt (ha.interfaces_areInterfaces hsup) habove]
            at hconcrete
          cases hconcrete
    | implicit _ _ himplicit => cases (isAbstract_of_implicit himplicit).symm.trans hconcrete

/-- A signature that a class of the superclass chain declares is one of the
type. -/
theorem Accepted.isSome_of_declares (ha : t.Accepted h) (hchain : t.OnSuperclassChain d c)
    (hdeclares : t.Declares c key) : ((h.members d).method? key).isSome = true := by
  obtain ⟨m, hm, rfl⟩ := hdeclares
  obtain ⟨index, hindex⟩ := List.mem_iff_getElem?.mp hm
  have hlt : c < t.size := by
    by_contra hge
    rw [t.classAt_of_size_le (Nat.le_of_not_lt hge)] at hm
    cases hm
  obtain ⟨kept, hkept, -⟩ :=
    ha.keeps_method hchain.mem_supertypes ((ha.assembles hlt).declared hindex)
  rw [hkept]
  rfl

end TypeTable

/-- In a class that is not abstract, a signature has a method exactly when some
class of the superclass chain declares it; the method is the nearest
declaration of the chain, and it is not abstract. -/
theorem HasHierarchy.members_eq_dispatch {program library : List CompilationUnit} {l : Linked}
    {h : Hierarchy} (hh : HasHierarchy program library l h) {d : ClassId} (hd : d < l.table.size)
    (hclass : (l.table.classAt d).isAbstract = false) (key : MethodKey) :
    (((h.members d).method? key).isSome = true ↔
      ∃ c, l.table.OnSuperclassChain d c ∧ l.table.Declares c key) ∧
    (∀ ref, (h.members d).method? key = some { method := ref, isAbstract := false } ↔
      l.table.Dispatches key d ref) ∧
    ∀ member, (h.members d).method? key = some member →
      l.table.Dispatches key d member.method ∧ member.isAbstract = false ∧
        (l.table.methodAt member.method).isAbstract = false := by
  have hl := hh.wellLinked
  have ha := hh.accepted
  have hfound : ∀ member, (h.members d).method? key = some member →
      l.table.Dispatches key d member.method ∧ member.isAbstract = false ∧
        (l.table.methodAt member.method).isAbstract = false := by
    intro member hfind
    have hconcrete := (ha.assembles hd).concrete hclass hfind
    obtain ⟨hwalk, hdeclared⟩ := ha.dispatches hl hd hfind hconcrete
    exact ⟨hwalk, hconcrete, hdeclared⟩
  have hpresent : ∀ ref, l.table.Dispatches key d ref →
      (h.members d).method? key = some { method := ref, isAbstract := false } := by
    intro ref hwalk
    obtain ⟨c, hchain, hdeclares⟩ := hwalk.exists_declares
    obtain ⟨member, hfind⟩ :=
      Option.isSome_iff_exists.mp (ha.isSome_of_declares hchain hdeclares)
    obtain ⟨hwalk', hconcrete, -⟩ := hfound member hfind
    rw [hfind, ← hconcrete, ha.dispatches_unique hwalk hwalk']
  refine ⟨⟨fun hsome => ?_, fun hchain => ?_⟩, fun ref => ⟨fun hfind => ?_, hpresent ref⟩, hfound⟩
  · obtain ⟨member, hfind⟩ := Option.isSome_iff_exists.mp hsome
    exact (hfound member hfind).1.exists_declares
  · obtain ⟨c, hchain, hdeclares⟩ := hchain
    exact ha.isSome_of_declares hchain hdeclares
  · exact (hfound _ hfind).1

/-- The square answers `area` with the method of its superclass. -/
theorem square_dispatches_to_base : ∃ l h, HasHierarchy shapes coreUnits l h ∧
    l.table.Dispatches ⟨"area", []⟩ 2 ⟨1, 0⟩ := by
  obtain ⟨l, h, hh, htest⟩ := exists_hasHierarchy shapes coreUnits (fun l h => decide (
      2 < l.table.size ∧ (l.table.classAt 2).isAbstract = false ∧
      (h.members 2).method? ⟨"area", []⟩ = some ⟨⟨1, 0⟩, false⟩)) (by decide +kernel)
  obtain ⟨hlt, hclass, hfind⟩ := of_decide_eq_true htest
  exact ⟨l, h, hh, ((hh.members_eq_dispatch hlt hclass ⟨"area", []⟩).2.1 ⟨1, 0⟩).mp hfind⟩

end JoosStatics
