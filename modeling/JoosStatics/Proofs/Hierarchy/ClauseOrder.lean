/-
JoosStatics.Proofs.Hierarchy.ClauseOrder — the order in which superinterfaces
are named.

The order can decide whether a subtype is accepted (`clause_order_decides`). Where
no choice among superinterfaces matters to subtypes, the members of every type
stay what they are, up to interchangeable methods: of like groups like methods are
kept (`keeps_resembling`), so like member sets are assembled
(`exists_memberSet_resembling`), and the hierarchy is accepted with the clauses in any
order (`clause_order_indifferent`).
-/
import JoosStatics.Proofs.Hierarchy.Conformance
import JoosStatics.Proofs.Hierarchy.Interchangeable

namespace JoosStatics

namespace TypeTable

variable {t t' : TypeTable} {h h' : Hierarchy} {id : ClassId} {key : MethodKey}

/-! ## §1 The members of a type -/

/-- Of like groups of abstract methods like methods are kept. -/
theorem inheritFrom_resembling (hp : t.PermutesClauses t') {group group' : List MemberMethod}
    (habstract : ∀ member ∈ group, member.isAbstract = true)
    (habstract' : ∀ member ∈ group', member.isAbstract = true)
    (hforth : ∀ member ∈ group, group' ≠ [])
    (hback : ∀ member' ∈ group', ∃ member ∈ group,
      (t.methodAt member.method).returnType = (t.methodAt member'.method).returnType)
    {types : Set ClassId}
    (hfirst : ∀ first first', group.head? = some first → group'.head? = some first' →
      t.Resembles h types key first first')
    {kept : Option MemberMethod} (hkept : t.inheritFrom id key group = .ok kept) :
    ∃ kept', t'.inheritFrom id key group' = .ok kept' ∧
      Option.Rel (t.Resembles h types key) kept kept' := by
  cases group' with
  | nil =>
    cases group with
    | nil =>
      cases hkept
      exact ⟨none, rfl, .none⟩
    | cons first others => exact absurd rfl (hforth first (List.mem_cons_self ..))
  | cons first' others' =>
    cases group with
    | nil =>
      obtain ⟨member, hmember, -⟩ := hback first' (List.mem_cons_self ..)
      cases hmember
    | cons first others =>
      have halike := hfirst first first' rfl rfl
      obtain ⟨rfl, hreturn⟩ := (inheritFrom_eq_ok_of_abstract habstract).mp hkept
      refine ⟨some first', (inheritFrom_eq_ok_of_abstract habstract').mpr ⟨rfl, ?_⟩, .some halike⟩
      intro other' hother'
      obtain ⟨other, hother, hlike⟩ := hback other' (List.mem_cons_of_mem _ hother')
      rw [hp.methodAt, hp.methodAt, ← hlike, ← halike.interchangeable.returnType]
      rcases List.mem_cons.mp hother with rfl | hother
      · rfl
      · exact hreturn other hother

/-- Member sets that are like those of the direct supertypes of a type, superclass first. -/
structure SupersResemble (t : TypeTable) (h : Hierarchy) (id : ClassId) (supers : List MemberSet) :
    Prop where
  forth : ∀ sup, t.Extends id sup →
    ∃ set ∈ supers, (h.members sup).Resembles t h (t.StrictlyBelow sup) set
  back : ∀ set ∈ supers,
    ∃ sup, t.Extends id sup ∧ (h.members sup).Resembles t h (t.StrictlyBelow sup) set
  first : ∀ sup, (t.classAt id).superclass = some sup →
    ∃ set rest, supers = set :: rest ∧ (h.members sup).Resembles t h (t.StrictlyBelow sup) set

/-- A type inherits a method under a signature. -/
abbrev InheritsAt (t : TypeTable) (h : Hierarchy) (id : ClassId) (key : MethodKey)
    (member : MemberMethod) : Prop :=
  t.Inherits (t.classAt id) ((t.classAt id).directSupertypes.map h.members) key member

/-- The methods that a type chooses from under a signature, in order. -/
abbrev groupAt (t : TypeTable) (h : Hierarchy) (id : ClassId) (key : MethodKey) :
    List MemberMethod :=
  (t.inheritedGroups (t.classAt id) ((t.classAt id).directSupertypes.map h.members)).group key

theorem PermutesClauses.supersResemble (hp : t.PermutesClauses t') {supers : List MemberSet}
    (hsupers : List.Forall₂ (fun sup set => (h.members sup).Resembles t h (t.StrictlyBelow sup) set)
      (t'.classAt id).directSupertypes supers) : t.SupersResemble h id supers where
  forth sup hsup := by
    obtain ⟨i, hi, rfl⟩ := List.mem_iff_getElem.mp (hp.extends_iff.mpr hsup)
    exact ⟨_, List.getElem_mem _, hsupers.get hi (hsupers.length_eq ▸ hi)⟩
  back set hset := by
    obtain ⟨i, hi, rfl⟩ := List.mem_iff_getElem.mp hset
    have hlt : i < (t'.classAt id).directSupertypes.length := hsupers.length_eq ▸ hi
    exact ⟨_, hp.extends_iff.mp (List.getElem_mem hlt), hsupers.get hlt hi⟩
  first sup hsup := by
    rw [ClassDef.directSupertypes, hp.superclass, hsup] at hsupers
    cases hsupers with
    | cons hset _ => exact ⟨_, _, rfl, hset⟩

/-- What is inherited comes from the superclass, from a superinterface, or is implied in an
interface without superinterfaces. -/
theorem SupersResemble.inherits_cases {supers : List MemberSet} (hs : t.SupersResemble h id supers)
    {member : MemberMethod} (hmember : t.InheritsAt h id key member) :
    t.superMethod? h id key = some member ∨ t.FromInterface h id key member ∨
      (t.classAt id).interfaces = [] ∧ (key, member) ∈ t.implicitMembers := by
  cases hmember with
  | super hset hentry =>
    obtain ⟨sup, hsup, rfl⟩ := List.mem_map.mp hset
    obtain ⟨_, -, halike⟩ := hs.forth sup hsup
    have hmethod := OrderedMap.find?_of_mem_entries halike.sorted hentry
    rcases List.mem_append.mp hsup with hsup | hsup
    · exact .inl (Option.bind_eq_some_iff.mpr ⟨sup, Option.mem_toList.mp hsup, hmethod⟩)
    · exact .inr (.inl ⟨sup, hsup, hmethod⟩)
  | implicit _ hroot hentry => exact .inr (.inr ⟨hroot, hentry⟩)

/-- Where a type has nothing from its superclass, what it inherits under a signature is
interchangeable when what it has from superinterfaces is. -/
theorem SupersResemble.interchangeable {supers : List MemberSet} (hs : t.SupersResemble h id supers)
    (hobject : ((t.classAt t.wellKnown.object).methods.map MethodDef.key).Nodup)
    (hnone : t.superMethod? h id key = none) {types : Set ClassId}
    (hsame : ∀ member other, t.FromInterface h id key member → t.FromInterface h id key other →
      t.Interchangeable h types key member.method other.method)
    {member other : MemberMethod} (hmember : t.InheritsAt h id key member)
    (hother : t.InheritsAt h id key other) :
    t.Interchangeable h types key member.method other.method := by
  have hnothing (hroot : (t.classAt id).interfaces = []) {member : MemberMethod} :
      ¬ t.FromInterface h id key member := by
    rintro ⟨sup, hsup, -⟩
    rw [hroot] at hsup
    cases hsup
  rcases hs.inherits_cases hmember with hsuper | hinterface | ⟨hempty, himplied⟩
  · cases hnone.symm.trans hsuper
  · rcases hs.inherits_cases hother with hsuper | hinterface' | ⟨hempty, -⟩
    · cases hnone.symm.trans hsuper
    · exact hsame member other hinterface hinterface'
    · exact absurd hinterface (hnothing hempty)
  · rcases hs.inherits_cases hother with hsuper | hinterface | ⟨-, himplied'⟩
    · cases hnone.symm.trans hsuper
    · exact absurd hinterface (hnothing hempty)
    · -- a signature is implied once
      have hnodup := nodup_implicitMembers hobject
      have hfind := (OrderedMap.findIn_eq_some_iff hnodup).mpr himplied
      cases hfind.symm.trans ((OrderedMap.findIn_eq_some_iff hnodup).mpr himplied')
      exact .refl ..

theorem SupersResemble.head?_group {supers : List MemberSet} (hs : t.SupersResemble h id supers)
    {above : MemberMethod} (habove : t.superMethod? h id key = some above) (t' : TypeTable)
    (d : ClassDef) :
    ∃ above', ((t'.inheritedGroups d supers).group key).head? = some above' ∧
      t.Resembles h (t.Below id) key above above' := by
  obtain ⟨sup, hsup, hmethod⟩ := Option.bind_eq_some_iff.mp habove
  obtain ⟨set, rest, rfl, halike⟩ := hs.first sup hsup
  obtain ⟨above', hmethod', hsame⟩ := Resembles.exists_of_rel (halike.method? key) hmethod
  exact ⟨above', TypeTable.head?_group t' d hmethod' rest,
    hsame.mono (below_subset (extends_of_superclass hsup))⟩

section Members

variable {supers : List MemberSet} (hp : t.PermutesClauses t') (hs : t.SupersResemble h id supers)
include hp hs

theorem inherits_forth {member : MemberMethod} (hmember : t.InheritsAt h id key member) :
    ∃ member', t'.Inherits (t'.classAt id) supers key member' := by
  cases hmember with
  | super hset hentry =>
    obtain ⟨sup, hsup, rfl⟩ := List.mem_map.mp hset
    obtain ⟨set, hset, halike⟩ := hs.forth sup hsup
    obtain ⟨member', hmember', -⟩ := Resembles.exists_of_rel (halike.method? key)
      (OrderedMap.find?_of_mem_entries halike.sorted hentry)
    exact ⟨member', .super hset (OrderedMap.mem_entries_of_find? hmember')⟩
  | implicit hinterface hroot hentry =>
    refine ⟨member, .implicit ?_ ?_ ?_⟩
    · rwa [hp.isInterface]
    · exact List.perm_nil.mp (hroot ▸ hp.interfaces_perm id)
    · rwa [hp.implicitMembers]

theorem inherits_back {member' : MemberMethod}
    (hmember' : t'.Inherits (t'.classAt id) supers key member') :
    ∃ member, t.InheritsAt h id key member ∧ t.Resembles h (t.Below id) key member member' := by
  cases hmember' with
  | super hset hentry =>
    obtain ⟨sup, hsup, halike⟩ := hs.back _ hset
    obtain ⟨member, hmember, hsame⟩ := Resembles.exists_of_rel (halike.symm.method? key)
      (OrderedMap.find?_of_mem_entries halike.sorted' hentry)
    exact ⟨member, Accepted.inherits hsup hmember, hsame.symm.mono (below_subset hsup)⟩
  | implicit hinterface hroot hentry =>
    refine ⟨member', .implicit ?_ ?_ ?_, .same member'⟩
    · rwa [← hp.isInterface]
    · exact List.perm_nil.mp (hroot ▸ (hp.interfaces_perm id).symm)
    · rwa [← hp.implicitMembers]

/-- The group of a signature in the other table is made of like methods. -/
theorem exists_mem_groupAt {member' : MemberMethod}
    (hmember' : member' ∈ (t'.inheritedGroups (t'.classAt id) supers).group key) :
    ∃ member ∈ t.groupAt h id key,
      t.Interchangeable h (t.Below id) key member.method member'.method := by
  obtain ⟨source, hsource, halike⟩ := inherits_back hp hs (mem_group hmember')
  obtain ⟨member, hmember, heq⟩ := exists_mem_group hsource
  exact ⟨member, hmember, heq ▸ halike.interchangeable⟩

section Keeping

variable {kept : Option MemberMethod}
  (hkept : t.inheritFrom id key (t.groupAt h id key) = .ok kept)
include hkept

/-- A concrete method of the superclass is kept in both tables. -/
theorem keeps_of_concrete (hnot : ¬ t.Declares id key) {above : MemberMethod}
    (habove : t.superMethod? h id key = some above)
    (hconcrete : above.isAbstract = false) :
    t'.inheritFrom id key ((t'.inheritedGroups (t'.classAt id) supers).group key) = .ok kept ∧
      kept = some above := by
  obtain ⟨sup, hsup, hmethod⟩ := Option.bind_eq_some_iff.mp habove
  have hfirst {group : List MemberMethod} (hhead : group.head? = some above) :
      group.find? (fun member => !member.isAbstract) = some above := by
    cases group with
    | nil => cases hhead
    | cons first others =>
      cases hhead
      exact List.find?_cons_of_pos (by rw [hconcrete]; rfl)
  obtain ⟨above', hhead', hsame⟩ := hs.head?_group habove t' (t'.classAt id)
  obtain rfl := hsame.eq_of_concrete hconcrete
  obtain ⟨rfl, hreplaces⟩ := (inheritFrom_eq_ok_of_concrete
    (hfirst (head?_group_of_superclass hsup hmethod))).mp hkept
  refine ⟨(inheritFrom_eq_ok_of_concrete (hfirst hhead')).mpr ⟨rfl, ?_⟩, rfl⟩
  intro other' hother' hne
  obtain ⟨other, hother, hlike⟩ := exists_mem_groupAt hp hs hother'
  exact hp.replaces ((hlike.inherited .refl hnot habove hconcrete).mp (hreplaces other hother) hne)

/-- When all methods are abstract, the first ones are kept in the two tables. -/
theorem keeps_of_abstract
    (habstract : ∀ member, t.InheritsAt h id key member → member.isAbstract = true)
    {types : Set ClassId}
    (hfirst : ∀ first first', (t.groupAt h id key).head? = some first →
      ((t'.inheritedGroups (t'.classAt id) supers).group key).head? = some first' →
      t.Resembles h types key first first') :
    ∃ kept', t'.inheritFrom id key ((t'.inheritedGroups (t'.classAt id) supers).group key) =
      .ok kept' ∧ Option.Rel (t.Resembles h types key) kept kept' := by
  refine inheritFrom_resembling hp (fun member hmember => habstract member (mem_group hmember))
    ?_ ?_ ?_ hfirst hkept
  · intro member' hmember'
    obtain ⟨member, hmember, halike⟩ := inherits_back hp hs (mem_group hmember')
    rw [halike.isAbstract_eq]
    exact habstract member hmember
  · intro member hmember
    obtain ⟨member', hmember'⟩ := inherits_forth hp hs (mem_group hmember)
    obtain ⟨other, hother, -⟩ := exists_mem_group hmember'
    exact List.ne_nil_of_mem hother
  · intro member' hmember'
    obtain ⟨member, hmember, hlike⟩ := exists_mem_groupAt hp hs hmember'
    exact ⟨member, hmember, hlike.returnType⟩

end Keeping

/-- Like methods are kept of the methods that a type inherits under a signature. -/
theorem keeps_resembling
    (hobject : ((t.classAt t.wellKnown.object).methods.map MethodDef.key).Nodup)
    (hi : t.Indifferent h id key) (hnot : ¬ t.Declares id key) {kept : Option MemberMethod}
    (hkept : t.inheritFrom id key (t.groupAt h id key) = .ok kept) :
    ∃ kept', t'.inheritFrom id key ((t'.inheritedGroups (t'.classAt id) supers).group key) =
      .ok kept' ∧ Option.Rel (t.Resembles h (t.StrictlyBelow id) key) kept kept' := by
  cases hi with
  | declared hdeclares => exact absurd hdeclares hnot
  | @superclass above habove habstract =>
    cases hflag : above.isAbstract with
    | false =>
      obtain ⟨hkept', rfl⟩ := keeps_of_concrete hp hs hkept hnot habove hflag
      exact ⟨_, hkept', .some (.same above)⟩
    | true =>
      refine keeps_of_abstract hp hs hkept (fun member hmember => ?_)
        (fun first first' hf hf' => ?_)
      · rcases hs.inherits_cases hmember with hsuper | hinterface | ⟨-, himplied⟩
        · cases habove.symm.trans hsuper
          exact hflag
        · exact habstract hflag member hinterface
        · exact isAbstract_of_implicit himplied
      · obtain ⟨sup, hsup, hmethod⟩ := Option.bind_eq_some_iff.mp habove
        obtain ⟨above', hhead', halike⟩ := hs.head?_group habove t' (t'.classAt id)
        cases (head?_group_of_superclass hsup hmethod).symm.trans hf
        cases hhead'.symm.trans hf'
        exact halike.mono (t.strictlyBelow_subset id)
  | interchangeable hnone habstract hsame =>
    have hall (member : MemberMethod) (hmember : t.InheritsAt h id key member) :
        member.isAbstract = true := by
      rcases hs.inherits_cases hmember with hsuper | hinterface | ⟨-, himplied⟩
      · cases hnone.symm.trans hsuper
      · exact habstract member hinterface
      · exact isAbstract_of_implicit himplied
    refine keeps_of_abstract hp hs hkept hall (fun first first' hf hf' => ?_)
    have hfirst := mem_group (List.mem_of_mem_head? hf)
    obtain ⟨source, hsource, halike⟩ := inherits_back hp hs (mem_group (List.mem_of_mem_head? hf'))
    exact .abstract (hall first hfirst) (halike.isAbstract_eq ▸ hall source hsource)
      ((hs.interchangeable hobject hnone hsame hfirst hsource).trans
        (halike.interchangeable.mono (t.strictlyBelow_subset id)))

/-- Like methods are collected in the two tables. -/
theorem collects_resembling
    (hobject : ((t.classAt t.wellKnown.object).methods.map MethodDef.key).Nodup)
    (hi : t.Indifferent h id key) {methods methods' : OrderedMap MethodKey MemberMethod}
    (hmethods : t.Collects id ((t.classAt id).directSupertypes.map h.members) methods)
    (hmethods' : t'.Collects id supers methods') :
    Option.Rel (t.Resembles h (t.StrictlyBelow id) key) (methods.find? key)
      (methods'.find? key) := by
  by_cases hdeclares : t.Declares id key
  · obtain ⟨m, hm, rfl⟩ := hdeclares
    obtain ⟨index, hindex⟩ := List.mem_iff_getElem?.mp hm
    rw [hmethods.declared hindex, hmethods'.declared (hp.methods id ▸ hindex)]
    exact .some (.same _)
  · have hnot : ∀ m ∈ (t.classAt id).methods, m.key ≠ key :=
      fun m hm heq => hdeclares ⟨m, hm, heq⟩
    obtain ⟨kept', hkept', halike⟩ :=
      keeps_resembling hp hs hobject hi hdeclares (hmethods.inherited hnot)
    rw [hmethods'.inherited (hp.methods id ▸ hnot)] at hkept'
    cases hkept'
    exact halike

/-- A type that has its members has like ones in the other table. -/
theorem exists_memberSet_resembling
    (hobject : ((t.classAt t.wellKnown.object).methods.map MethodDef.key).Nodup)
    (hkeys : ((t.classAt id).methods.map MethodDef.key).Nodup)
    (hi : ∀ key, t.Indifferent h id key) {set : MemberSet}
    (hset : t.memberSet id ((t.classAt id).directSupertypes.map h.members) = .ok set) :
    ∃ set', t'.memberSet id supers = .ok set' ∧ set.Resembles t h (t.StrictlyBelow id) set' := by
  have hcollects := memberSet_collects hkeys hset
  have hassembles := memberSet_eq_ok hkeys hset
  have hkeys' : ((t'.classAt id).methods.map MethodDef.key).Nodup := hp.methods id ▸ hkeys
  have hset' : ∃ set', t'.memberSet id supers = .ok set' := by
    refine exists_memberSet hkeys' ?_ ?_ ?_
    · intro index m old' hm hold'
      rw [hp.methods] at hm
      obtain ⟨old, hold, hlike⟩ := exists_mem_groupAt hp hs hold'
      exact hp.replaces ((hlike.declared .refl hm rfl).mp (hcollects.replaces hm hold))
    · intro key hnot
      rw [hp.methods] at hnot
      obtain ⟨kept', hkept', -⟩ := keeps_resembling hp hs hobject (hi key)
        (fun ⟨m, hm, heq⟩ => hnot m hm heq) (hcollects.inherited hnot)
      exact ⟨kept', hkept'⟩
    · intro hclass methods' hmethods' key member' hmember'
      have hrel := collects_resembling hp hs hobject (hi key) hcollects hmethods'
      obtain ⟨member, hmember, halike⟩ := Resembles.exists_of_rel (Resembles.rel_symm hrel) hmember'
      rw [← halike.isAbstract_eq]
      exact hassembles.concrete (hp.isAbstract id ▸ hclass) hmember
  obtain ⟨set', hset'⟩ := hset'
  have hcollects' := memberSet_collects hkeys' hset'
  exact ⟨set', hset', hcollects.sorted, hcollects'.sorted,
    fun key => collects_resembling hp hs hobject (hi key) hcollects hcollects'⟩

end Members

/-! ## §2 The stage -/

namespace PermutesClauses

variable (hp : t.PermutesClauses t')
include hp

theorem checkSupertypeEdges (hok : t.checkSupertypeEdges id = .ok ()) :
    t'.checkSupertypeEdges id = .ok () := by
  obtain ⟨hclass, hkinds, hnodup⟩ := checkSupertypeEdges_eq_ok.mp hok
  refine checkSupertypeEdges_eq_ok.mpr ⟨fun sup hsup => ?_, fun sup hsup => ?_, ?_⟩
  · rw [hp.isInterface, hp.isFinal]
    exact hclass sup (hp.superclass id ▸ hsup)
  · rw [hp.isInterface]
    exact hkinds sup ((hp.interfaces_perm id).mem_iff.mp hsup)
  · exact (hp.interfaces_perm id).nodup_iff.mpr hnodup

theorem checkDuplicates (hok : t.checkDuplicates id = .ok ()) : t'.checkDuplicates id = .ok () := by
  rw [checkDuplicates_eq_ok] at hok ⊢
  obtain ⟨clause, -, hclass⟩ := hp.classAt id
  rw [hclass]
  exact hok

/-- A hierarchy that is accepted is accepted with the clauses in another order, with like
members, when the order decides nothing. -/
theorem exists_checkHierarchy (hsups : ∀ {sub sup}, t.Extends sub sup → sup < t.size)
    (hcheck : t.checkHierarchy = .ok h) (hi : ∀ id key, t.Indifferent h id key) :
    ∃ h', t'.checkHierarchy = .ok h' ∧ h.Resembles t h' := by
  have hchecked := checkHierarchy_checked hsups hcheck
  have haccepted := hchecked.accepted
  have hsups' : ∀ {sub sup}, t'.Extends sub sup → sup < t'.size := by
    rw [hp.extends_eq, hp.size]
    exact hsups
  have hids : t'.ids = t.ids := congrArg List.range hp.size
  have hstep : ∀ id < t'.size, ∀ supers,
      List.Forall₂ (fun sup set => (h.members sup).Resembles t h (t.StrictlyBelow sup) set)
        (t'.classAt id).directSupertypes supers →
      ∃ set', t'.memberSet id supers = .ok set' ∧
        (h.members id).Resembles t h (t.StrictlyBelow id) set' := by
    intro id hid supers hsupers
    exact exists_memberSet_resembling hp (hp.supersResemble hsupers) (haccepted.methods_nodup _)
      (haccepted.methods_nodup id) (hi id) (hchecked.members (hp.size ▸ hid))
  obtain ⟨h', hcheck', hmembers⟩ := TypeTable.exists_checkHierarchy hsups'
    (hids ▸ fun id hid => hp.checkSupertypeEdges (hchecked.edges id hid))
    (hp.extends_eq ▸ haccepted.acyclic)
    (hids ▸ fun id hid => hp.checkDuplicates (hchecked.duplicates id hid)) hstep
  refine ⟨h', hcheck', fun id => ?_⟩
  by_cases hid : id < t.size
  · exact hmembers id (hp.size ▸ hid)
  · rw [hchecked.outside (Nat.le_of_not_lt hid),
      (checkHierarchy_checked hsups' hcheck').outside (hp.size ▸ Nat.le_of_not_lt hid)]
    exact ⟨OrderedMap.sorted_empty, OrderedMap.sorted_empty, fun _ => .none⟩

/-- Where the order decides nothing, the hierarchy is accepted with another one, which decides
nothing either. -/
theorem accepts (hsups : ∀ {sub sup}, t.Extends sub sup → sup < t.size)
    (haccepts : ∃ h, t.checkHierarchy = .ok h ∧ ∀ id key, t.Indifferent h id key) :
    ∃ h', t'.checkHierarchy = .ok h' ∧ ∀ id key, t'.Indifferent h' id key := by
  obtain ⟨h, hcheck, hi⟩ := haccepts
  obtain ⟨h', hcheck', halike⟩ := hp.exists_checkHierarchy hsups hcheck hi
  exact ⟨h', hcheck', fun id key => (hi id key).permute hp halike⟩

end PermutesClauses

/-- The superinterfaces of all types can be named in another order: where the order decides
nothing, the hierarchy is accepted either way, and again nothing is decided. -/
theorem clause_order_indifferent (hsups : ∀ {sub sup}, t.Extends sub sup → sup < t.size)
    (hp : t.PermutesClauses t') :
    (∃ h, t.checkHierarchy = .ok h ∧ ∀ id key, t.Indifferent h id key) ↔
      ∃ h', t'.checkHierarchy = .ok h' ∧ ∀ id key, t'.Indifferent h' id key := by
  refine ⟨hp.accepts hsups, hp.symm.accepts ?_⟩
  rw [hp.extends_eq, hp.size]
  exact hsups

/-! ## §3 Clauses in reverse -/

/-- The same types, each with its clause reversed. -/
def reverseClauses (t : TypeTable) : TypeTable :=
  { t with classes := t.classes.map (fun d => { d with interfaces := d.interfaces.reverse }) }

theorem permutesClauses_reverseClauses (t : TypeTable) : t.PermutesClauses t.reverseClauses where
  size := Array.size_map
  wellKnown := rfl
  classAt id := by
    refine ⟨(t.classAt id).interfaces.reverse, List.reverse_perm _, ?_⟩
    unfold classAt reverseClauses
    rw [Array.getD_eq_getD_getElem?, Array.getD_eq_getD_getElem?, Array.getElem?_map]
    cases t.classes[id]? <;> rfl

end TypeTable

/-- An interface that keeps one of two abstract methods, and a class that conforms to
both. -/
def mergedForAll : List CompilationUnit :=
  let m := Library.procedure "m"
  unitsOf [
    { Library.interfaceNamed "A" with methods := [{ m with throws := [.ofDotted "Near"] }] },
    { Library.interfaceNamed "B" with methods := [{ m with throws := [.ofDotted "Far"] }] },
    ((Library.interfaceNamed "C").extending "A").extending "B",
    { (Library.classNamed "D").implementing "C" with methods := [m] },
    (Library.classNamed "Near").extending "Exception",
    (Library.classNamed "Far").extending "Exception"]

/-- The class conforms to either method, so the interface may name its superinterfaces the other
way round. -/
theorem mergedForAll_indifferent : ∃ l h, HasHierarchy mergedForAll coreUnits l h ∧
    (∀ id key, l.table.Indifferent h id key) ∧
    ∃ h', l.table.reverseClauses.checkHierarchy = .ok h' := by
  obtain ⟨l, h, hh, htest⟩ := exists_hasHierarchy mergedForAll coreUnits (fun l h =>
    decide (∀ id ∈ l.table.ids, (l.table.classAt id).interfaces.length ≤ 1 ∨ id = 2) &&
    decide (∀ d ∈ l.table.ids,
      (∃ sup ∈ (l.table.classAt d).directSupertypes, 2 ∈ l.table.supertypes sup) → d = 3) &&
    decide (∀ sup ∈ (l.table.classAt 2).interfaces, ∀ entry ∈ (h.members sup).methods.entries,
      ∀ sup' ∈ (l.table.classAt 2).interfaces, ∀ entry' ∈ (h.members sup').methods.entries,
        entry.1 = entry'.1 → entry.2.method = entry'.2.method ∨
          (l.table.methodAt entry.2.method).returnType =
              (l.table.methodAt entry'.2.method).returnType ∧
            l.table.superMethod? h 3 entry.1 = none ∧
            ∀ declared ∈ (l.table.classAt 3).methods.zipIdx,
              l.table.Replaces ⟨3, declared.2⟩ entry.2.method ∧
                l.table.Replaces ⟨3, declared.2⟩ entry'.2.method)) (by decide +kernel)
  simp only [Bool.and_eq_true, decide_eq_true_eq] at htest
  obtain ⟨⟨hone, hbelow⟩, hchoice⟩ := htest
  have hl := hh.wellLinked
  have ha := hh.accepted
  obtain ⟨-, -, -, hcheck⟩ := id hh
  have honly : ∀ d ∈ l.table.StrictlyBelow 2, d = 3 := by
    intro d hd
    obtain ⟨sup, hedge, habove⟩ := Relation.TransGen.head'_iff.mp hd
    exact hbelow d (List.mem_range.mpr hedge.lt_size)
      ⟨sup, hedge, l.table.mem_supertypes_iff.mpr habove⟩
  have hi : ∀ id key, l.table.Indifferent h id key := by
    intro id key
    by_cases hid : id = 2
    · subst hid
      refine .of_wellLinked hl ha ?_
      rintro member other ⟨sup, hsup, hmember⟩ ⟨sup', hsup', hother⟩
      rcases hchoice sup hsup (key, member) (OrderedMap.mem_entries_of_find? hmember) sup' hsup'
        (key, other) (OrderedMap.mem_entries_of_find? hother) rfl with
        heq | ⟨hreturn, hnone, hreplaces⟩
      · exact heq ▸ .refl ..
      · exact .of_replaces hreturn (fun d hd => honly d hd ▸ hnone)
          (fun d hd => honly d hd ▸ hreplaces)
    · refine .of_length_le hl ha ?_
      by_cases hlt : id < l.table.size
      · exact (hone id (List.mem_range.mpr hlt)).resolve_right hid
      · rw [l.table.classAt_of_size_le (Nat.le_of_not_lt hlt)]
        exact Nat.zero_le _
  obtain ⟨h', hcheck', -⟩ := (TypeTable.clause_order_indifferent hl.supertype_lt
    l.table.permutesClauses_reverseClauses).mp ⟨h, hcheck, hi⟩
  exact ⟨l, h, hh, hi, h', hcheck'⟩

/-- With one order of its superinterfaces an interface keeps the method that a class conforms
to, with the other order it keeps the method that the class breaks a rule with. -/
theorem clause_order_decides : ∃ l h, HasHierarchy mergedInterfaces coreUnits l h ∧
    l.table.checkHierarchy = .ok h ∧ l.table.PermutesClauses l.table.reverseClauses ∧
    ∀ h', l.table.reverseClauses.checkHierarchy ≠ .ok h' := by
  obtain ⟨l, h, hh, htest⟩ := exists_hasHierarchy mergedInterfaces coreUnits
    (fun l _ => !l.table.reverseClauses.checkHierarchy.isOk) (by decide +kernel)
  obtain ⟨-, -, -, hcheck⟩ := id hh
  refine ⟨l, h, hh, hcheck, l.table.permutesClauses_reverseClauses, fun h' hcheck' => ?_⟩
  rw [hcheck'] at htest
  cases htest

end JoosStatics
