/-
JoosStatics.Proofs.Hierarchy.MemberSets — the member set of one type, given
those of its direct supertypes.

`TypeTable.Assembles` says what the set holds: under the signature of a
declared method that method, which replaces all inherited ones; under any
other signature what is kept of the inherited methods. `memberSet_eq_ok`
proves it of every set that is computed. `TypeTable.Collects` says exactly which
methods are computed, and `exists_memberSet` when it is possible.
-/
import JoosStatics.Proofs.Hierarchy.Inherited
import JoosStatics.Proofs.Hierarchy.Replacement

namespace JoosStatics.TypeTable

variable {t : TypeTable} {id : ClassId}

/-! ## §1 Declared and inherited methods -/

section Steps

variable {methods methods' : OrderedMap MethodKey MemberMethod}

/-- The declared methods are stored under their signatures, whose groups are
then empty; all else stays. -/
theorem declareMethods_eq_ok {declared : List (MethodDef × Nat)} {groups groups' : InheritedGroups}
    (hkeys : (declared.map (fun entry => entry.1.key)).Nodup)
    (h : t.declareMethods id declared groups methods = .ok (groups', methods')) :
    (∀ entry ∈ declared,
      methods'.find? entry.1.key =
        some { method := ⟨id, entry.2⟩, isAbstract := entry.1.isAbstract } ∧
      groups'.group entry.1.key = [] ∧
      ∀ old ∈ groups.group entry.1.key, t.Replaces ⟨id, entry.2⟩ old.method) ∧
    (∀ key, (∀ entry ∈ declared, entry.1.key ≠ key) →
      methods'.find? key = methods.find? key ∧ groups'.group key = groups.group key) ∧
    (methods.Sorted → methods'.Sorted) ∧ (groups.Sorted → groups'.Sorted) := by
  induction declared generalizing groups methods with
  | nil =>
    cases h
    exact ⟨by simp, fun _ _ => ⟨rfl, rfl⟩, fun h => h, fun h => h⟩
  | cons first rest ih =>
    obtain ⟨m, index⟩ := first
    obtain ⟨hfresh, hrest⟩ := List.nodup_cons.mp hkeys
    obtain ⟨_, hreplaces, hrec⟩ := bind_eq_ok.mp h
    obtain ⟨hdeclared, hothers, hsorted, hgroups⟩ := ih hrest hrec
    have hne : ∀ entry ∈ rest, entry.1.key ≠ m.key := by
      intro entry hentry heq
      exact hfresh (List.mem_map.mpr ⟨entry, hentry, heq⟩)
    refine ⟨?_, ?_, ?_, ?_⟩
    · intro entry hentry
      rcases List.mem_cons.mp hentry with rfl | hentry
      · obtain ⟨hfind, hgroup⟩ := hothers m.key hne
        refine ⟨?_, ?_, checkReplaceAll_eq_ok.mp hreplaces⟩
        · rw [hfind, OrderedMap.find?_insert_self]
        · rw [hgroup, InheritedGroups.group_erase, if_pos rfl]
      · obtain ⟨hfind, hgroup, hrep⟩ := hdeclared entry hentry
        rw [InheritedGroups.group_erase, if_neg (Ne.symm (hne entry hentry))] at hrep
        exact ⟨hfind, hgroup, hrep⟩
    · intro key hkey
      have hm : m.key ≠ key := hkey (m, index) (List.mem_cons_self ..)
      obtain ⟨hfind, hgroup⟩ := hothers key (fun e he => hkey e (List.mem_cons_of_mem _ he))
      rw [OrderedMap.find?_insert_of_ne _ hm] at hfind
      rw [InheritedGroups.group_erase, if_neg hm] at hgroup
      exact ⟨hfind, hgroup⟩
    · exact fun h => hsorted (OrderedMap.sorted_insert h _ _)
    · exact fun h => hgroups (OrderedMap.sorted_erase h _)

/-- Methods can be declared when each of them replaces what is inherited under its
signature. -/
theorem exists_declareMethods {declared : List (MethodDef × Nat)} {groups : InheritedGroups}
    (hkeys : (declared.map (fun entry => entry.1.key)).Nodup)
    (hreplaces : ∀ entry ∈ declared, ∀ old ∈ groups.group entry.1.key,
      t.Replaces ⟨id, entry.2⟩ old.method) :
    ∃ result, t.declareMethods id declared groups methods = .ok result := by
  induction declared generalizing groups methods with
  | nil => exact ⟨_, rfl⟩
  | cons first rest ih =>
    obtain ⟨m, index⟩ := first
    obtain ⟨hfresh, hrest⟩ := List.nodup_cons.mp hkeys
    obtain ⟨hfirst, hothers⟩ := List.forall_mem_cons.mp hreplaces
    have hrec : ∃ result, t.declareMethods id rest (groups.erase m.key)
        (methods.insert m.key { method := ⟨id, index⟩, isAbstract := m.isAbstract }) =
        .ok result := by
      refine ih hrest (fun entry hentry => ?_)
      have hne : m.key ≠ entry.1.key :=
        fun heq => hfresh (List.mem_map.mpr ⟨entry, hentry, heq.symm⟩)
      rw [InheritedGroups.group_erase, if_neg hne]
      exact hothers entry hentry
    obtain ⟨result, hresult⟩ := hrec
    exact ⟨result, bind_eq_ok.mpr ⟨(), checkReplaceAll_eq_ok.mpr hfirst, hresult⟩⟩

/-- Each group gives what it keeps; all else stays. -/
theorem inheritMethods_eq_ok {entries : List (MethodKey × List MemberMethod)}
    (hkeys : (entries.map Prod.fst).Nodup)
    (h : t.inheritMethods id entries methods = .ok methods') :
    (∀ entry ∈ entries, ∃ kept, t.inheritFrom id entry.1 entry.2 = .ok kept ∧
      methods'.find? entry.1 = kept.or (methods.find? entry.1)) ∧
    (∀ key ∉ entries.map Prod.fst, methods'.find? key = methods.find? key) ∧
    (methods.Sorted → methods'.Sorted) := by
  induction entries generalizing methods with
  | nil =>
    cases h
    exact ⟨by simp, fun _ _ => rfl, fun h => h⟩
  | cons first rest ih =>
    obtain ⟨key, group⟩ := first
    obtain ⟨hfresh, hrest⟩ := List.nodup_cons.mp hkeys
    obtain ⟨kept, hkept, hrec⟩ := bind_eq_ok.mp h
    cases kept with
    | none =>
      obtain ⟨hentries, hothers, hsorted⟩ := ih hrest hrec
      refine ⟨?_, ?_, hsorted⟩
      · intro entry hentry
        rcases List.mem_cons.mp hentry with rfl | hentry
        · exact ⟨none, hkept, by rw [hothers _ hfresh, Option.none_or]⟩
        · exact hentries entry hentry
      · intro other hother
        exact hothers other (fun hmem => hother (List.mem_cons_of_mem _ hmem))
    | some chosen =>
      obtain ⟨hentries, hothers, hsorted⟩ := ih hrest hrec
      refine ⟨?_, ?_, fun h => hsorted (OrderedMap.sorted_insert h _ _)⟩
      · intro entry hentry
        rcases List.mem_cons.mp hentry with rfl | hmem
        · refine ⟨some chosen, hkept, ?_⟩
          rw [hothers _ hfresh, OrderedMap.find?_insert_self, Option.some_or]
        · obtain ⟨kept, hkept, hfind⟩ := hentries entry hmem
          have hne : key ≠ entry.1 := by
            rintro rfl
            exact hfresh (List.mem_map.mpr ⟨entry, hmem, rfl⟩)
          rw [OrderedMap.find?_insert_of_ne _ hne] at hfind
          exact ⟨kept, hkept, hfind⟩
      · intro other hother
        simp only [List.map_cons, List.mem_cons, not_or] at hother
        rw [hothers other hother.2, OrderedMap.find?_insert_of_ne _ (Ne.symm hother.1)]

/-- Methods can be inherited when something can be kept of each group. -/
theorem exists_inheritMethods {entries : List (MethodKey × List MemberMethod)}
    (h : ∀ entry ∈ entries, ∃ kept, t.inheritFrom id entry.1 entry.2 = .ok kept) :
    ∃ methods', t.inheritMethods id entries methods = .ok methods' := by
  induction entries generalizing methods with
  | nil => exact ⟨_, rfl⟩
  | cons first rest ih =>
    obtain ⟨⟨kept, hkept⟩, hrest⟩ := List.forall_mem_cons.mp h
    cases kept with
    | none =>
      have hrec : ∃ methods', t.inheritMethods id rest methods = .ok methods' := ih hrest
      obtain ⟨methods', hmethods'⟩ := hrec
      exact ⟨methods', bind_eq_ok.mpr ⟨none, hkept, hmethods'⟩⟩
    | some chosen =>
      have hrec : ∃ methods', t.inheritMethods id rest (methods.insert first.1 chosen) =
          .ok methods' := ih hrest
      obtain ⟨methods', hmethods'⟩ := hrec
      exact ⟨methods', bind_eq_ok.mpr ⟨some chosen, hkept, hmethods'⟩⟩

end Steps

/-- A class passes when it is abstract or has no abstract method. -/
theorem checkConcrete_eq_ok {methods : OrderedMap MethodKey MemberMethod}
    (hsorted : methods.Sorted) : t.checkConcrete id methods = .ok () ↔
      ((t.classAt id).isAbstract = false → ∀ {key member}, methods.find? key = some member →
        member.isAbstract = false) := by
  have hfind : methods.entries.find? (fun entry => entry.2.isAbstract) = none ↔
      ∀ {key member}, methods.find? key = some member → member.isAbstract = false := by
    simp only [List.find?_eq_none, Prod.forall, OrderedMap.mem_entries_iff hsorted,
      Bool.not_eq_true]
  unfold checkConcrete
  cases (t.classAt id).isAbstract with
  | true => simp
  | false =>
    simp only [Bool.false_eq_true, if_false, forall_const, ← hfind]
    split
    · rename_i hsome
      simp [hsome]
    · rename_i hnone
      simp [hnone]

/-! ## §2 The methods of a type -/

/-- The methods of a type, given the members of its supertypes: those that it declares,
each in place of what is inherited, and what it keeps of all else. -/
structure Collects (t : TypeTable) (id : ClassId) (supers : List MemberSet)
    (methods : OrderedMap MethodKey MemberMethod) : Prop where
  sorted : methods.Sorted
  declared : ∀ {index m}, (t.classAt id).methods[index]? = some m →
    methods.find? m.key = some { method := ⟨id, index⟩, isAbstract := m.isAbstract }
  replaces : ∀ {index m old}, (t.classAt id).methods[index]? = some m →
    old ∈ (t.inheritedGroups (t.classAt id) supers).group m.key →
    t.Replaces ⟨id, index⟩ old.method
  inherited : ∀ {key}, (∀ m ∈ (t.classAt id).methods, m.key ≠ key) →
    t.inheritFrom id key ((t.inheritedGroups (t.classAt id) supers).group key) =
      .ok (methods.find? key)

/-- A group is found among the entries when it has a member. -/
theorem find?_of_group_ne_nil {groups : InheritedGroups} {key : MethodKey}
    (h : groups.group key ≠ []) : groups.find? key = some (groups.group key) := by
  unfold InheritedGroups.group at h ⊢
  cases hfind : groups.find? key with
  | none =>
    rw [hfind] at h
    exact absurd rfl h
  | some members => rfl

theorem inheritFrom_nil (t : TypeTable) (id : ClassId) (key : MethodKey) :
    t.inheritFrom id key [] = .ok none := rfl

section Methods

variable {supers : List MemberSet} {groups : InheritedGroups}
  {declared methods : OrderedMap MethodKey MemberMethod}
  (hkeys : ((t.classAt id).methods.map MethodDef.key).Nodup)
  (hdeclare : t.declareMethods id (t.classAt id).methods.zipIdx
    (t.inheritedGroups (t.classAt id) supers) ∅ = .ok (groups, declared))
include hkeys hdeclare

/-- The groups that are left once all methods are declared: those of other signatures. -/
theorem group_of_declareMethods : groups.Sorted ∧ ∀ key, groups.group key =
    if ∃ m ∈ (t.classAt id).methods, m.key = key then []
    else (t.inheritedGroups (t.classAt id) supers).group key := by
  obtain ⟨hdeclared, hothers, -, hgroups⟩ :=
    declareMethods_eq_ok (map_zipIdx_fst MethodDef.key _ ▸ hkeys) hdeclare
  refine ⟨hgroups (t.sorted_inheritedGroups (t.classAt id) supers), fun key => ?_⟩
  split
  · rename_i h
    obtain ⟨m, hm, rfl⟩ := h
    obtain ⟨index, hindex⟩ := List.mem_iff_getElem?.mp hm
    exact (hdeclared (m, index) (List.mem_zipIdx_iff_getElem?.mpr hindex)).2.1
  · rename_i h
    refine (hothers key ?_).2
    rintro ⟨m, index⟩ hentry heq
    exact h ⟨m, List.mem_of_getElem? (List.mem_zipIdx_iff_getElem?.mp hentry), heq⟩

/-- The methods that are computed are those of the type. -/
theorem collects_of_inheritMethods
    (hinherit : t.inheritMethods id groups.entries declared = .ok methods) :
    t.Collects id supers methods := by
  obtain ⟨hdeclared, hothers, hsorted, -⟩ :=
    declareMethods_eq_ok (map_zipIdx_fst MethodDef.key _ ▸ hkeys) hdeclare
  obtain ⟨hgroups, hgroup⟩ := group_of_declareMethods hkeys hdeclare
  obtain ⟨hentries, hrest, hfinal⟩ :=
    inheritMethods_eq_ok (OrderedMap.nodup_keys hgroups) hinherit
  -- what is kept of a group is added to the declared methods
  have hkept (key : MethodKey) : ∃ kept, t.inheritFrom id key (groups.group key) = .ok kept ∧
      methods.find? key = kept.or (declared.find? key) := by
    by_cases hmem : key ∈ groups.entries.map Prod.fst
    · obtain ⟨⟨key, group⟩, hentry, rfl⟩ := List.mem_map.mp hmem
      have hfound : groups.group key = group := by
        rw [InheritedGroups.group, OrderedMap.find?_of_mem_entries hgroups hentry]
        rfl
      rw [hfound]
      exact hentries _ hentry
    · have hnone : groups.group key = [] := by
        by_contra hne
        have hin := OrderedMap.mem_entries_of_find? (find?_of_group_ne_nil hne)
        exact hmem (List.mem_map.mpr ⟨_, hin, rfl⟩)
      exact ⟨none, by rw [hnone, inheritFrom_nil], hrest key hmem⟩
  constructor
  · exact hfinal (hsorted OrderedMap.sorted_empty)
  · intro index m hm
    obtain ⟨kept, hinherits, hfind⟩ := hkept m.key
    rw [hgroup, if_pos ⟨m, List.mem_of_getElem? hm, rfl⟩, inheritFrom_nil] at hinherits
    cases hinherits
    rw [hfind]
    exact (hdeclared (m, index) (List.mem_zipIdx_iff_getElem?.mpr hm)).1
  · intro index m old hm
    exact (hdeclared (m, index) (List.mem_zipIdx_iff_getElem?.mpr hm)).2.2 old
  · intro key hkey
    obtain ⟨kept, hinherits, hfind⟩ := hkept key
    have hnone : declared.find? key = none := by
      refine (hothers key ?_).1
      rintro ⟨m, index⟩ hentry
      exact hkey m (List.mem_of_getElem? (List.mem_zipIdx_iff_getElem?.mp hentry))
    rw [hgroup, if_neg (fun ⟨m, hm, heq⟩ => hkey m hm heq)] at hinherits
    rw [hinherits, hfind, hnone, Option.or_none]

end Methods

/-! ## §3 The member set -/

/-- What the member set of a type holds, given those of its supertypes. -/
structure Assembles (t : TypeTable) (id : ClassId) (supers : List MemberSet) (set : MemberSet) :
    Prop where
  sorted_methods : set.methods.Sorted
  sorted_fields : set.fields.Sorted
  declared : ∀ {index m}, (t.classAt id).methods[index]? = some m →
    set.method? m.key = some { method := ⟨id, index⟩, isAbstract := m.isAbstract }
  replaces : ∀ {index m old}, (t.classAt id).methods[index]? = some m →
    t.Inherits (t.classAt id) supers m.key old → t.Replaces ⟨id, index⟩ old.method
  inherited : ∀ {key}, (∀ m ∈ (t.classAt id).methods, m.key ≠ key) →
    t.InheritsFrom ((t.inheritedGroups (t.classAt id) supers).group key) (set.method? key)
  concrete : (t.classAt id).isAbstract = false → ∀ {key member}, set.method? key = some member →
    member.isAbstract = false
  fields_eq : set.fields = visibleFields (t.classAt id) id (inheritedFields supers)

section Sets

variable {supers : List MemberSet} {set : MemberSet}
  (hkeys : ((t.classAt id).methods.map MethodDef.key).Nodup)
include hkeys

/-- The methods in a member set that is computed. -/
theorem memberSet_collects (h : t.memberSet id supers = .ok set) :
    t.Collects id supers set.methods := by
  unfold memberSet at h
  obtain ⟨⟨groups, declared⟩, hdeclare, h⟩ := bind_eq_ok.mp h
  obtain ⟨methods, hinherit, h⟩ := bind_eq_ok.mp h
  obtain ⟨_, -, h⟩ := bind_eq_ok.mp h
  cases h
  exact collects_of_inheritMethods hkeys hdeclare hinherit

/-- A member set that is computed holds what it should. -/
theorem memberSet_eq_ok (h : t.memberSet id supers = .ok set) : t.Assembles id supers set := by
  have hcollects := memberSet_collects hkeys h
  unfold memberSet at h
  obtain ⟨⟨groups, declared⟩, hdeclare, h⟩ := bind_eq_ok.mp h
  obtain ⟨methods, hinherit, h⟩ := bind_eq_ok.mp h
  obtain ⟨_, hconcrete, h⟩ := bind_eq_ok.mp h
  cases h
  constructor
  · exact hcollects.sorted
  · exact sorted_visibleFields _ _ _
  · exact hcollects.declared
  · intro index m old hm hold
    obtain ⟨other, hother, hsame⟩ := exists_mem_group hold
    rw [← hsame]
    exact hcollects.replaces hm hother
  · exact fun hkey => inheritFrom_eq_ok (hcollects.inherited hkey)
  · exact (checkConcrete_eq_ok hcollects.sorted).mp hconcrete
  · rfl

/-- There is a member set when each declared method replaces what is inherited under its
signature, something can be kept under every other signature, and a class that is not
abstract collects no abstract method. -/
theorem exists_memberSet
    (hreplaces : ∀ {index m old}, (t.classAt id).methods[index]? = some m →
      old ∈ (t.inheritedGroups (t.classAt id) supers).group m.key →
      t.Replaces ⟨id, index⟩ old.method)
    (hinherits : ∀ key, (∀ m ∈ (t.classAt id).methods, m.key ≠ key) → ∃ kept,
      t.inheritFrom id key ((t.inheritedGroups (t.classAt id) supers).group key) = .ok kept)
    (hconcrete : (t.classAt id).isAbstract = false → ∀ methods, t.Collects id supers methods →
      ∀ {key member}, methods.find? key = some member → member.isAbstract = false) :
    ∃ set, t.memberSet id supers = .ok set := by
  have hdeclare : ∃ result, t.declareMethods id (t.classAt id).methods.zipIdx
      (t.inheritedGroups (t.classAt id) supers) ∅ = .ok result := by
    refine exists_declareMethods (map_zipIdx_fst MethodDef.key _ ▸ hkeys) ?_
    rintro ⟨m, index⟩ hentry old hold
    exact hreplaces (List.mem_zipIdx_iff_getElem?.mp hentry) hold
  obtain ⟨⟨groups, declared⟩, hdeclare⟩ := hdeclare
  obtain ⟨hgroups, hgroup⟩ := group_of_declareMethods hkeys hdeclare
  have hinherit : ∃ methods, t.inheritMethods id groups.entries declared = .ok methods := by
    refine exists_inheritMethods ?_
    rintro ⟨key, group⟩ hentry
    have hfound : groups.group key = group := by
      rw [InheritedGroups.group, OrderedMap.find?_of_mem_entries hgroups hentry]
      rfl
    rw [← hfound, hgroup]
    split
    · exact ⟨none, inheritFrom_nil t id key⟩
    · rename_i hkey
      exact hinherits key (fun m hm heq => hkey ⟨m, hm, heq⟩)
  obtain ⟨methods, hinherit⟩ := hinherit
  have hcollects := collects_of_inheritMethods hkeys hdeclare hinherit
  exact ⟨_, bind_eq_ok.mpr ⟨_, hdeclare, bind_eq_ok.mpr ⟨_, hinherit, bind_eq_ok.mpr
    ⟨(), (checkConcrete_eq_ok hcollects.sorted).mpr (fun hclass => hconcrete hclass _ hcollects),
      rfl⟩⟩⟩⟩

end Sets

namespace Assembles

variable {supers : List MemberSet} {set : MemberSet} {key : MethodKey} {member old : MemberMethod}

/-- A method in the set is declared by the type, or kept of what it
inherits. -/
theorem cases_method (h : t.Assembles id supers set) (hmember : set.method? key = some member) :
    (∃ index m, (t.classAt id).methods[index]? = some m ∧ m.key = key ∧
      member = { method := ⟨id, index⟩, isAbstract := m.isAbstract }) ∨
    ((∀ m ∈ (t.classAt id).methods, m.key ≠ key) ∧
      t.InheritsFrom ((t.inheritedGroups (t.classAt id) supers).group key) (some member) ∧
      t.Inherits (t.classAt id) supers key member) := by
  by_cases hdeclared : ∃ m ∈ (t.classAt id).methods, m.key = key
  · obtain ⟨m, hm, rfl⟩ := hdeclared
    obtain ⟨index, hindex⟩ := List.mem_iff_getElem?.mp hm
    rw [h.declared hindex] at hmember
    cases hmember
    exact Or.inl ⟨index, m, hindex, rfl, rfl⟩
  · have hnot : ∀ m ∈ (t.classAt id).methods, m.key ≠ key :=
      fun m hm heq => hdeclared ⟨m, hm, heq⟩
    have hkept := h.inherited hnot
    rw [hmember] at hkept
    exact Or.inr ⟨hnot, hkept, mem_group hkept.mem⟩

/-- What a type inherits under a signature it also has, with the same result
type. -/
theorem keeps (h : t.Assembles id supers set) (hold : t.Inherits (t.classAt id) supers key old) :
    ∃ member, set.method? key = some member ∧
      (t.methodAt member.method).returnType = (t.methodAt old.method).returnType := by
  by_cases hdeclared : ∃ m ∈ (t.classAt id).methods, m.key = key
  · obtain ⟨m, hm, rfl⟩ := hdeclared
    obtain ⟨index, hindex⟩ := List.mem_iff_getElem?.mp hm
    exact ⟨_, h.declared hindex, (h.replaces hindex hold).returnType⟩
  · have hkept := h.inherited (fun m hm heq => hdeclared ⟨m, hm, heq⟩)
    obtain ⟨other, hother, hsame⟩ := exists_mem_group hold
    obtain ⟨chosen, hchosen⟩ := hkept.exists_some hother
    rw [hchosen] at hkept
    refine ⟨chosen, hchosen, ?_⟩
    rw [hkept.returnType_eq hother, hsame]

end Assembles

end JoosStatics.TypeTable
