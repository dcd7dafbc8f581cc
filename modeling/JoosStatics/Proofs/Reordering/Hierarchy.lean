/-
JoosStatics.Proofs.Reordering.Hierarchy — the hierarchy stage in another
order.

Whether a type passes the checks on its supertypes and on repeated members
does not depend on numbers. The members of a type are compared signature by
signature (`MemberSet.Reorders`): what a type declares follows its place, and what it
inherits under a signature is a list in the order of the supertypes, which
stays. Only the order in which a member set lists its signatures changes,
since it goes by the numbers of types in them.

* `exists_memberSet` — the members of one type.
* `exists_checkHierarchy` — the stage as a whole.
-/
import JoosStatics.Proofs.Hierarchy.Accepted
import JoosStatics.Proofs.Reordering.Tables

namespace JoosStatics

/-! ## §1 Signatures and members -/

/-- The same signature under other numbers. -/
def MethodKey.rename (σ : ClassId → ClassId) (key : MethodKey) : MethodKey :=
  { key with params := key.params.map (Ty.rename σ) }

/-- The same method in another account. -/
def MemberMethod.rename (ρ : Renaming) (member : MemberMethod) : MemberMethod :=
  { member with method := ρ.method member.method }

theorem MethodKey.rename_injective {σ : ClassId → ClassId} (hσ : Function.Injective σ) :
    Function.Injective (MethodKey.rename σ) := by
  rintro ⟨name, params⟩ ⟨name', params'⟩ h
  obtain ⟨hname, hparams⟩ := MethodKey.mk.injEq .. ▸ h
  exact congr (congrArg _ hname) (List.map_injective_iff.mpr (Ty.rename_injective hσ) hparams)

/-- Every signature stands for one of the other account. -/
theorem MethodKey.exists_rename (σ : Equiv.Perm ClassId) (key : MethodKey) :
    ∃ source : MethodKey, source.rename σ = key := by
  refine ⟨key.rename σ.symm, ?_⟩
  have hback : (σ : ClassId → ClassId) ∘ σ.symm = id := funext σ.apply_symm_apply
  unfold rename
  rw [List.map_map, Function.comp_def]
  simp only [Ty.rename_comp, hback, Ty.rename_id, List.map_id']

/-- The same members in another account. -/
structure MemberSet.Reorders (π : Placement) (m m' : MemberSet) : Prop where
  sorted : m.methods.Sorted
  sorted' : m'.methods.Sorted
  method? : ∀ key, m'.method? (key.rename π.type) =
    (m.method? key).map (MemberMethod.rename π.renaming)
  field? : ∀ name, m'.field? name = (m.field? name).map π.renaming.field

/-- The methods of a name are the same ones, if in another order. -/
theorem MemberSet.Reorders.methodsNamed {π : Placement} {m m' : MemberSet} (h : m.Reorders π m')
    (name : Name) : (m'.methodsNamed name).Perm ((m.methodsNamed name).map π.renaming.method) := by
  have hentries : m'.methods.entries.Perm (m.methods.entries.map
      (Prod.map (MethodKey.rename π.type) (MemberMethod.rename π.renaming))) := by
    refine (List.perm_ext_iff_of_nodup ?_ ?_).mpr ?_
    · exact .of_map Prod.fst (OrderedMap.nodup_keys h.sorted')
    · refine .of_map Prod.fst ?_
      rw [List.map_map, show Prod.fst ∘ Prod.map (MethodKey.rename π.type)
        (MemberMethod.rename π.renaming) = MethodKey.rename π.type ∘ Prod.fst from rfl,
        ← List.map_map]
      exact (OrderedMap.nodup_keys h.sorted).map (MethodKey.rename_injective π.type.injective)
    · rintro ⟨key', member'⟩
      obtain ⟨key, rfl⟩ := MethodKey.exists_rename π.type key'
      rw [OrderedMap.mem_entries_iff h.sorted']
      refine (Eq.congr_left (h.method? key)).trans ?_
      rw [Option.map_eq_some_iff, List.mem_map]
      constructor
      · rintro ⟨member, hmember, rfl⟩
        exact ⟨(key, member), OrderedMap.mem_entries_of_find? hmember, rfl⟩
      · rintro ⟨⟨other, member⟩, hentry, heq⟩
        obtain ⟨hkey, rfl⟩ := Prod.mk.injEq .. ▸ heq
        obtain rfl := MethodKey.rename_injective π.type.injective hkey
        exact ⟨member, OrderedMap.find?_of_mem_entries h.sorted hentry, rfl⟩
  have hnamed := (perm_filter_of_perm_map hentries (fun entry => entry.1.name == name)
    (fun entry => entry.1.name == name) (fun _ _ => rfl)).map (fun entry => entry.2.method)
  rw [List.map_map] at hnamed
  unfold MemberSet.methodsNamed
  rw [List.map_map]
  exact hnamed

namespace TypeTable

variable {π : Placement} {t t' : TypeTable}

/-! ## §2 What takes the place of what -/

theorem Renames.replaces_iff {ρ : Renaming} (h : t.Renames ρ t') {new old : MethodRef} :
    t'.Replaces (ρ.method new) (ρ.method old) ↔ t.Replaces new old := by
  have hthrows : (∀ e ∈ (t'.methodAt (ρ.method new)).throws, t'.isCheckedException e = true →
      t'.isCovered e (t'.methodAt (ρ.method old)).throws = true) ↔
      ∀ e ∈ (t.methodAt new).throws, t.isCheckedException e = true →
        t.isCovered e (t.methodAt old).throws = true := by
    simp only [h.methodAt, MethodDef.rename, List.forall_mem_map, h.isCheckedException,
      h.isCovered]
  have hreturn : (t'.methodAt (ρ.method new)).returnType =
      (t'.methodAt (ρ.method old)).returnType ↔
      (t.methodAt new).returnType = (t.methodAt old).returnType := by
    simp only [h.methodAt, MethodDef.rename, (Ty.rename_injective ρ.type_injective).eq_iff]
  have hmodifiers (ref : MethodRef) :
      (t'.methodAt (ρ.method ref)).modifiers = (t.methodAt ref).modifiers := by
    rw [h.methodAt]
    rfl
  constructor
  · rintro ⟨hr, hf, hn, hs, ht⟩
    unfold MethodDef.isStatic at hs
    rw [hmodifiers] at hf hn hs
    rw [hmodifiers] at hn hs
    exact ⟨hreturn.mp hr, hf, hn, hs, hthrows.mp ht⟩
  · rintro ⟨hr, hf, hn, hs, ht⟩
    refine ⟨hreturn.mpr hr, ?_, ?_, ?_, hthrows.mpr ht⟩
    · rwa [hmodifiers]
    · rwa [hmodifiers, hmodifiers]
    · unfold MethodDef.isStatic at hs ⊢
      rwa [hmodifiers, hmodifiers]

/-- The same method is kept of a group, or none can be. -/
theorem Renames.inheritFrom (h : t.Renames π.renaming t') (id : ClassId) (key : MethodKey)
    (group : List MemberMethod) :
    Alike (fun _ _ => True) (fun kept kept' => kept' = kept.map (MemberMethod.rename π.renaming))
      (t.inheritFrom id key group)
      (t'.inheritFrom (π.type id) (key.rename π.type)
        (group.map (MemberMethod.rename π.renaming))) := by
  have hconcrete : (fun member : MemberMethod => !member.isAbstract) ∘
      MemberMethod.rename π.renaming = fun member => !member.isAbstract := rfl
  unfold TypeTable.inheritFrom
  rw [List.find?_map, hconcrete]
  cases group.find? (fun member => !member.isAbstract) with
  | some concrete =>
    simp only [Option.map_some]
    refine Alike.bind (Alike.of_iff ?_) (fun _ _ _ => .ok rfl)
    have hothers : (fun other : MemberMethod =>
        decide (other.method ≠ (concrete.rename π.renaming).method)) ∘
        MemberMethod.rename π.renaming = fun other => decide (other.method ≠ concrete.method) := by
      funext other
      exact decide_eq_decide.mpr (not_congr π.method_injective.eq_iff)
    have hunit {x : Except Violation Unit} : (∃ u, x = .ok u) ↔ x = .ok () :=
      ⟨fun ⟨_, h⟩ => h, fun h => ⟨(), h⟩⟩
    rw [hunit, hunit, checkReplaceAll_eq_ok, checkReplaceAll_eq_ok, List.filter_map, hothers,
      List.forall_mem_map]
    exact forall₂_congr (fun other _ => h.replaces_iff.symm)
  | none =>
    cases group with
    | nil => exact .ok rfl
    | cons first others =>
      have hdiffers : (fun other : MemberMethod => decide ((t'.methodAt other.method).returnType ≠
          (t'.methodAt (first.rename π.renaming).method).returnType)) ∘
          MemberMethod.rename π.renaming = fun other =>
            decide ((t.methodAt other.method).returnType ≠
              (t.methodAt first.method).returnType) := by
        funext other
        simp only [Function.comp_apply, MemberMethod.rename, h.methodAt, MethodDef.rename, ne_eq,
          (Ty.rename_injective π.renaming.type_injective).eq_iff]
      simp only [Option.map_none, List.map_cons, List.find?_map, hdiffers]
      cases others.find? (fun other => decide ((t.methodAt other.method).returnType ≠
          (t.methodAt first.method).returnType)) with
      | some other => exact .error trivial
      | none => exact .ok rfl

end TypeTable

/-! ## §3 What is inherited -/

namespace InheritedGroups

variable {π : Placement} {g g' : InheritedGroups}

/-- The same methods are inherited under every signature, in the same order. -/
def Reorders (π : Placement) (g g' : InheritedGroups) : Prop :=
  ∀ key, g'.group (key.rename π.type) = (g.group key).map (MemberMethod.rename π.renaming)

theorem join_rename (group : List MemberMethod) (member : MemberMethod) :
    join (group.map (MemberMethod.rename π.renaming)) (member.rename π.renaming) =
      (join group member).map (MemberMethod.rename π.renaming) := by
  have hknown : (group.map (MemberMethod.rename π.renaming)).any
      (fun other => other.method == (member.rename π.renaming).method) =
      group.any (fun other => other.method == member.method) := by
    rw [List.any_map]
    congr 1
    funext other
    rw [Bool.eq_iff_iff, Function.comp_apply, beq_iff_eq, beq_iff_eq]
    exact π.method_injective.eq_iff
  unfold join
  rw [hknown]
  split
  · rfl
  · rw [List.map_append]
    rfl

theorem Reorders.addAll (h : g.Reorders π g') {set set' : MemberSet} (hset : set.Reorders π set') :
    (g.addAll set).Reorders π (g'.addAll set') := by
  intro key
  have hfind := hset.method? key
  have hgroup : (g.addAll set).group key =
      (set.method? key).elim (g.group key) (join (g.group key)) :=
    group_addEntries (OrderedMap.nodup_keys hset.sorted)
  have hgroup' : (g'.addAll set').group (key.rename π.type) =
      (set'.method? (key.rename π.type)).elim (g'.group (key.rename π.type))
        (join (g'.group (key.rename π.type))) :=
    group_addEntries (OrderedMap.nodup_keys hset.sorted')
  rw [hgroup, hgroup', hfind, h key]
  cases set.method? key with
  | none => rfl
  | some member => exact join_rename _ member

theorem Reorders.foldl_addAll (h : g.Reorders π g') {supers supers' : List MemberSet}
    (hsupers : List.Forall₂ (MemberSet.Reorders π) supers supers') :
    (supers.foldl InheritedGroups.addAll g).Reorders π
      (supers'.foldl InheritedGroups.addAll g') := by
  induction hsupers generalizing g g' with
  | nil => exact h
  | cons hset _ ih => exact ih (h.addAll hset)

end InheritedGroups

namespace TypeTable.Reorders

variable {π : Placement} {t t' : TypeTable} (h : t.Reorders π t') {id : ClassId}
include h

/-- Signatures are declared once in both. -/
theorem nodup_keys (hkeys : ((t.classAt id).methods.map MethodDef.key).Nodup) :
    ((t'.classAt (π.type id)).methods.map MethodDef.key).Nodup := by
  refine ((h.methods_perm id).map MethodDef.key).nodup_iff.mp ?_
  have hcomp : MethodDef.key ∘ MethodDef.rename π.renaming =
      MethodKey.rename π.type ∘ MethodDef.key := rfl
  rw [List.map_map, hcomp, ← List.map_map]
  exact hkeys.map (MethodKey.rename_injective π.type.injective)

/-- A declared method has the place of one in the other table. -/
theorem exists_method {index' : Nat} {m' : MethodDef}
    (hm' : (t'.classAt (π.type id)).methods[index']? = some m') :
    ∃ index m, (t.classAt id).methods[index]? = some m ∧ m' = m.rename π.renaming ∧
      (⟨π.type id, index'⟩ : MethodRef) = π.renaming.method ⟨id, index⟩ := by
  have hplace := h.methods_getElem? id ((π.method id).symm index')
  rw [Equiv.apply_symm_apply, hm'] at hplace
  obtain ⟨m, hm, heq⟩ := Option.map_eq_some_iff.mp hplace.symm
  refine ⟨_, m, hm, heq.symm, ?_⟩
  show _ = MethodRef.mk (π.type id) (π.method id ((π.method id).symm index'))
  rw [Equiv.apply_symm_apply]

theorem undeclared_iff {key : MethodKey} :
    (∀ m' ∈ (t'.classAt (π.type id)).methods, m'.key ≠ key.rename π.type) ↔
      ∀ m ∈ (t.classAt id).methods, m.key ≠ key := by
  have hall (m' : MethodDef) := (h.methods_perm id).mem_iff (a := m')
  constructor
  · intro hnot m hm heq
    exact hnot _ ((hall _).mp (List.mem_map_of_mem hm)) (congrArg (MethodKey.rename π.type) heq)
  · intro hnot m' hm' heq
    obtain ⟨m, hm, rfl⟩ := List.mem_map.mp ((hall _).mpr hm')
    exact hnot m hm (MethodKey.rename_injective π.type.injective heq)

/-- The same methods are implied by `java.lang.Object`. -/
theorem findIn_implicitMembers
    (hkeys : ((t.classAt t.wellKnown.object).methods.map MethodDef.key).Nodup) (key : MethodKey) :
    OrderedMap.findIn (key.rename π.type) t'.implicitMembers =
      (OrderedMap.findIn key t.implicitMembers).map (MemberMethod.rename π.renaming) := by
  have hobject : t'.wellKnown.object = π.type t.wellKnown.object := h.renames.object
  have hkeys' := h.nodup_keys hkeys
  rw [← hobject] at hkeys'
  refine Option.ext (fun member' => ?_)
  rw [TypeTable.findIn_implicitMembers hkeys', Option.map_eq_some_iff]
  simp only [TypeTable.findIn_implicitMembers hkeys, hobject]
  constructor
  · rintro ⟨index', m', hm', hpublic, hstatic, hkey, rfl⟩
    obtain ⟨index, m, hm, rfl, href⟩ := h.exists_method hm'
    refine ⟨_, ⟨index, m, hm, hpublic, hstatic, ?_, rfl⟩, ?_⟩
    · exact MethodKey.rename_injective π.type.injective hkey
    · rw [href]
      rfl
  · rintro ⟨_, ⟨index, m, hm, hpublic, hstatic, rfl, rfl⟩, rfl⟩
    refine ⟨π.method t.wellKnown.object index, m.rename π.renaming, ?_, hpublic, hstatic, rfl, rfl⟩
    rw [h.methods_getElem?, hm]
    rfl

/-- The same methods are inherited. -/
theorem inheritedGroups
    (hkeys : ((t.classAt t.wellKnown.object).methods.map MethodDef.key).Nodup)
    {supers supers' : List MemberSet}
    (hsupers : List.Forall₂ (MemberSet.Reorders π) supers supers') :
    (t.inheritedGroups (t.classAt id) supers).Reorders π
      (t'.inheritedGroups (t'.classAt (π.type id)) supers') := by
  have hgroups : (supers.foldl InheritedGroups.addAll ∅).Reorders π
      (supers'.foldl InheritedGroups.addAll ∅) :=
    InheritedGroups.Reorders.foldl_addAll (fun _ => rfl) hsupers
  have hobject : t'.wellKnown.object = π.type t.wellKnown.object := h.renames.object
  have hkeys' := h.nodup_keys hkeys
  rw [← hobject] at hkeys'
  have hinterface : (t'.classAt (π.type id)).isInterface = (t.classAt id).isInterface :=
    h.renames.isInterface id
  have hinterfaces : (t'.classAt (π.type id)).interfaces = (t.classAt id).interfaces.map π.type :=
    h.renames.interfaces id
  intro key
  unfold TypeTable.inheritedGroups
  simp only [hinterface, hinterfaces, List.isEmpty_map]
  split
  · have happend {t : TypeTable} {groups : InheritedGroups} {key : MethodKey}
        (hkeys : ((t.classAt t.wellKnown.object).methods.map MethodDef.key).Nodup) :
        InheritedGroups.group (t.implicitMembers.foldl
          (fun g entry => InheritedGroups.append g entry.1 entry.2) groups) key =
          groups.group key ++ (OrderedMap.findIn key t.implicitMembers).toList :=
      InheritedGroups.group_appendEntries (nodup_implicitMembers hkeys)
    rw [happend hkeys, happend hkeys', hgroups key, h.findIn_implicitMembers hkeys,
      List.map_append]
    cases OrderedMap.findIn key t.implicitMembers <;> rfl
  · exact hgroups key

/-- The same fields are visible. -/
theorem visibleFields (hnames : ((t.classAt id).fields.map FieldDef.name).Nodup)
    {supers supers' : List MemberSet}
    (hsupers : List.Forall₂ (MemberSet.Reorders π) supers supers') (name : Name) :
    (TypeTable.visibleFields (t'.classAt (π.type id)) (π.type id)
      (inheritedFields supers')).find? name =
    ((TypeTable.visibleFields (t.classAt id) id (inheritedFields supers)).find? name).map
      π.renaming.field := by
  have hperm := (h.fields_perm id).map FieldDef.name
  rw [List.map_map, show FieldDef.name ∘ FieldDef.rename π.renaming = FieldDef.name from rfl]
    at hperm
  by_cases hdeclared : name ∈ (t.classAt id).fields.map FieldDef.name
  · obtain ⟨f, hf, rfl⟩ := List.mem_map.mp hdeclared
    obtain ⟨index, hindex⟩ := List.mem_iff_getElem?.mp hf
    have hindex' : (t'.classAt (π.type id)).fields[π.field id index]? =
        some (f.rename π.renaming) := by
      rw [(h.classAt id).fields.getElem?, ClassDef.rename, List.getElem?_map, hindex]
      rfl
    rw [find?_visibleFields_of_declared hnames hindex]
    show (TypeTable.visibleFields _ _ _).find? (f.rename π.renaming).name = _
    rw [find?_visibleFields_of_declared (hperm.nodup_iff.mp hnames) hindex']
    rfl
  · have hnot (f : FieldDef) (hf : f ∈ (t.classAt id).fields) : f.name ≠ name :=
      fun heq => hdeclared (List.mem_map.mpr ⟨f, hf, heq⟩)
    have hnot' (f : FieldDef) (hf : f ∈ (t'.classAt (π.type id)).fields) : f.name ≠ name :=
      fun heq => hdeclared (hperm.mem_iff.mpr (List.mem_map.mpr ⟨f, hf, heq⟩))
    rw [find?_visibleFields_of_inherited hnot, find?_visibleFields_of_inherited hnot',
      find?_inheritedFields_eq, find?_inheritedFields_eq]
    clear hnot hnot' hdeclared
    induction hsupers with
    | nil => rfl
    | @cons set set' _ _ hset _ ih =>
      rw [List.findSome?_cons, List.findSome?_cons, hset.field?, ih]
      cases set.field? name <;> rfl

/-! ## §4 The members of a type -/

section MemberSets

variable {supers supers' : List MemberSet}
  (hsupers : List.Forall₂ (MemberSet.Reorders π) supers supers')
  (hobject : ((t.classAt t.wellKnown.object).methods.map MethodDef.key).Nodup)
include hsupers hobject

/-- The same methods are collected. -/
theorem collects {methods methods' : OrderedMap MethodKey MemberMethod}
    (hmethods : t.Collects id supers methods)
    (hmethods' : t'.Collects (π.type id) supers' methods') (key : MethodKey) :
    methods'.find? (key.rename π.type) =
      (methods.find? key).map (MemberMethod.rename π.renaming) := by
  by_cases hdeclared : ∃ m ∈ (t.classAt id).methods, m.key = key
  · obtain ⟨m, hm, rfl⟩ := hdeclared
    obtain ⟨index, hindex⟩ := List.mem_iff_getElem?.mp hm
    have hindex' := h.methods_getElem? id index
    rw [hindex] at hindex'
    rw [hmethods.declared hindex]
    exact hmethods'.declared hindex'
  · have hnot (m : MethodDef) (hm : m ∈ (t.classAt id).methods) : m.key ≠ key :=
      fun heq => hdeclared ⟨m, hm, heq⟩
    have hkept := h.renames.inheritFrom id key
      ((t.inheritedGroups (t.classAt id) supers).group key)
    rw [← h.inheritedGroups hobject hsupers key, hmethods.inherited hnot,
      hmethods'.inherited (h.undeclared_iff.mpr hnot)] at hkept
    cases hkept with
    | ok heq => exact heq

/-- A type that has its members has them in another order. -/
theorem exists_memberSet (hkeys : ((t.classAt id).methods.map MethodDef.key).Nodup)
    (hnames : ((t.classAt id).fields.map FieldDef.name).Nodup) {set : MemberSet}
    (hset : t.memberSet id supers = .ok set) :
    ∃ set', t'.memberSet (π.type id) supers' = .ok set' ∧ set.Reorders π set' := by
  have hcollects := memberSet_collects hkeys hset
  have hassembles := memberSet_eq_ok hkeys hset
  have hgroups : (t.inheritedGroups (t.classAt id) supers).Reorders π
      (t'.inheritedGroups (t'.classAt (π.type id)) supers') := h.inheritedGroups hobject hsupers
  have hkeys' := h.nodup_keys hkeys
  have hset' : ∃ set', t'.memberSet (π.type id) supers' = .ok set' := by
    refine TypeTable.exists_memberSet hkeys' ?_ ?_ ?_
    · intro index' m' old' hm' hold'
      obtain ⟨index, m, hm, rfl, href⟩ := h.exists_method hm'
      have hgroup := hgroups m.key
      obtain ⟨old, hold, rfl⟩ := List.mem_map.mp (hgroup ▸ hold')
      rw [href]
      exact h.renames.replaces_iff.mpr (hcollects.replaces hm hold)
    · intro key' hnot'
      obtain ⟨key, rfl⟩ := MethodKey.exists_rename π.type key'
      have hkept := h.renames.inheritFrom id key
        ((t.inheritedGroups (t.classAt id) supers).group key)
      rw [hcollects.inherited (h.undeclared_iff.mp hnot'), ← hgroups key] at hkept
      obtain ⟨_, _, herror, -⟩ | ⟨_, kept, -, hkept, -⟩ := hkept.outcomes
      · cases herror
      · exact ⟨kept, hkept⟩
    · intro hclass methods' hmethods' key' member' hmember'
      have habstract : (t'.classAt (π.type id)).isAbstract = (t.classAt id).isAbstract :=
        h.renames.isAbstract id
      obtain ⟨key, rfl⟩ := MethodKey.exists_rename π.type key'
      rw [h.collects hsupers hobject hcollects hmethods'] at hmember'
      obtain ⟨member, hmember, rfl⟩ := Option.map_eq_some_iff.mp hmember'
      have hconcrete : member.isAbstract = false :=
        hassembles.concrete (habstract ▸ hclass) hmember
      exact hconcrete
  obtain ⟨set', hset'⟩ := hset'
  have hcollects' := memberSet_collects hkeys' hset'
  refine ⟨set', hset', hcollects.sorted, hcollects'.sorted,
    h.collects hsupers hobject hcollects hcollects', fun name => ?_⟩
  unfold MemberSet.field?
  rw [hassembles.fields_eq, (memberSet_eq_ok hkeys' hset').fields_eq]
  exact h.visibleFields hnames hsupers name

end MemberSets

/-! ## §5 The checks of single types -/

theorem checkSupertypeEdges (hok : t.checkSupertypeEdges id = .ok ()) :
    t'.checkSupertypeEdges (π.type id) = .ok () := by
  have hsuperclass : (t'.classAt (π.type id)).superclass = (t.classAt id).superclass.map π.type :=
    h.renames.superclass id
  have hinterfaces : (t'.classAt (π.type id)).interfaces = (t.classAt id).interfaces.map π.type :=
    h.renames.interfaces id
  have hkind (id : ClassId) : (t'.classAt (π.type id)).isInterface = (t.classAt id).isInterface :=
    h.renames.isInterface id
  have hfinal (id : ClassId) : (t'.classAt (π.type id)).isFinal = (t.classAt id).isFinal :=
    h.renames.isFinal id
  obtain ⟨hclass, hkinds, hnodup⟩ := checkSupertypeEdges_eq_ok.mp hok
  refine checkSupertypeEdges_eq_ok.mpr ⟨fun sup' hsup' => ?_, ?_, ?_⟩
  · rw [hsuperclass] at hsup'
    obtain ⟨sup, hsup, rfl⟩ := Option.map_eq_some_iff.mp hsup'
    rw [hkind, hfinal]
    exact hclass sup hsup
  · rw [hinterfaces]
    refine List.forall_mem_map.mpr (fun sup hsup => ?_)
    rw [hkind]
    exact hkinds sup hsup
  · rw [hinterfaces]
    exact hnodup.map π.type.injective

theorem checkDuplicates (hok : t.checkDuplicates id = .ok ()) :
    t'.checkDuplicates (π.type id) = .ok () := by
  obtain ⟨hfields, hmethods, hconstructors⟩ := checkDuplicates_eq_ok.mp hok
  refine checkDuplicates_eq_ok.mpr ⟨?_, h.nodup_keys hmethods, ?_⟩
  · refine ((h.fields_perm id).map FieldDef.name).nodup_iff.mp ?_
    rw [List.map_map]
    exact hfields
  · refine ((h.constructors_perm id).map ConstructorDef.params).nodup_iff.mp ?_
    have hcomp : ConstructorDef.params ∘ ConstructorDef.rename π.renaming =
        List.map (Ty.rename π.type) ∘ ConstructorDef.params := rfl
    rw [List.map_map, hcomp, ← List.map_map]
    exact hconstructors.map (List.map_injective_iff.mpr (Ty.rename_injective π.type.injective))

/-- No type is above itself in either table. -/
theorem acyclic (hacyclic : ∀ id, ¬ Relation.TransGen t.Extends id id) (id' : ClassId) :
    ¬ Relation.TransGen t'.Extends id' id' := by
  have hback (sub' sup' : ClassId) (hstep : t'.Extends sub' sup') :
      t.Extends (π.type.symm sub') (π.type.symm sup') := by
    rw [← π.type.apply_symm_apply sub'] at hstep
    obtain ⟨sup, hsup, rfl⟩ := h.renames.extends_iff.mp hstep
    rwa [Placement.type_renaming, π.type.symm_apply_apply]
  exact fun hcycle => hacyclic _ (hcycle.lift π.type.symm hback)

end TypeTable.Reorders

/-! ## §6 The stage -/

/-- All members are the same in another account. -/
def Hierarchy.Reorders (π : Placement) (h h' : Hierarchy) : Prop :=
  ∀ id, (h.members id).Reorders π (h'.members (π.type id))

/-- A hierarchy that is accepted is accepted in another order. -/
theorem TypeTable.Reorders.exists_checkHierarchy {π : Placement} {t t' : TypeTable}
    (h : t.Reorders π t') (hl : t.WellLinked) (hl' : t'.WellLinked) {hierarchy : Hierarchy}
    (hcheck : t.checkHierarchy = .ok hierarchy) :
    ∃ hierarchy', t'.checkHierarchy = .ok hierarchy' ∧ hierarchy.Reorders π hierarchy' := by
  have hchecked := checkHierarchy_checked hl.supertype_lt hcheck
  have hkeys := hchecked.accepted.methods_nodup
  have hstep : ∀ id' < t'.size, ∀ supers',
      List.Forall₂ (fun sup' set' => (hierarchy.members (π.type.symm sup')).Reorders π set')
        (t'.classAt id').directSupertypes supers' →
      ∃ set', t'.memberSet id' supers' = .ok set' ∧
        (hierarchy.members (π.type.symm id')).Reorders π set' := by
    intro id' hid' supers' hsupers'
    obtain ⟨id, rfl⟩ := π.type.surjective id'
    rw [h.size, h.lt_size_iff] at hid'
    have hdirect : (t'.classAt (π.type id)).directSupertypes =
        (t.classAt id).directSupertypes.map π.type := h.renames.directSupertypes id
    rw [hdirect, List.forall₂_map_left_iff] at hsupers'
    simp only [Equiv.symm_apply_apply] at hsupers' ⊢
    have hduplicates := checkDuplicates_eq_ok.mp
      (hchecked.duplicates id (List.mem_range.mpr hid'))
    exact h.exists_memberSet (List.forall₂_map_left_iff.mpr hsupers') (hkeys _) (hkeys id)
      hduplicates.1 (hchecked.members hid')
  obtain ⟨hierarchy', hcheck', hmembers⟩ := TypeTable.exists_checkHierarchy hl'.supertype_lt
    (h.forall_mem_ids.mpr (fun id hid => h.checkSupertypeEdges (hchecked.edges id hid)))
    (h.acyclic hchecked.accepted.acyclic)
    (h.forall_mem_ids.mpr (fun id hid => h.checkDuplicates (hchecked.duplicates id hid))) hstep
  refine ⟨hierarchy', hcheck', fun id => ?_⟩
  by_cases hid : id < t.size
  · have hmember := hmembers (π.type id) (by rw [h.size, h.lt_size_iff]; exact hid)
    rwa [Equiv.symm_apply_apply] at hmember
  · have hid' : t'.size ≤ π.type id := by
      rw [h.size, ← Nat.not_lt, h.lt_size_iff]
      exact hid
    rw [hchecked.outside (Nat.le_of_not_lt hid),
      (checkHierarchy_checked hl'.supertype_lt hcheck').outside hid']
    exact ⟨OrderedMap.sorted_empty, OrderedMap.sorted_empty, fun _ => rfl, fun _ => rfl⟩

end JoosStatics
