/-
JoosStatics.Proofs.Hierarchy.Inherited — what a type inherits.

The methods of all supertypes are sorted into one group for each signature. A
method that is met twice enters its group once, so a group knows every
inherited method but not every entry: `mem_group` says where the members of
a group come from, `exists_mem_group` that each inherited method has a
member, `head?_group` that the superclass comes first. §3 does the same for
fields.
-/
import JoosStatics.Proofs.SignatureOrder
import JoosStatics.Proofs.SortedMaps

namespace JoosStatics

/-- What is said of items alone does not need their positions. -/
theorem map_zipIdx_fst {α β : Type} (f : α → β) (items : List α) :
    items.zipIdx.map (fun entry => f entry.1) = items.map f := by
  have hitems := congrArg (List.map f) (List.zipIdx_map_fst 0 items)
  rwa [List.map_map] at hitems

theorem head?_of_prefix {α : Type} {xs ys : List α} {x : α} (h : xs <+: ys)
    (hx : xs.head? = some x) : ys.head? = some x := by
  obtain ⟨rest, rfl⟩ := h
  rw [List.head?_append, hx]
  rfl

/-! ## §1 Groups -/

namespace InheritedGroups

variable {g : InheritedGroups} {key : MethodKey}

theorem group_insert (g : InheritedGroups) (k : MethodKey) (members : List MemberMethod)
    (key : MethodKey) :
    group (g.insert k members) key = if k = key then members else g.group key := by
  unfold group
  rw [OrderedMap.find?_insert]
  split <;> rfl

theorem group_erase (g : InheritedGroups) (k key : MethodKey) :
    group (g.erase k) key = if k = key then [] else g.group key := by
  unfold group
  by_cases h : k = key
  · rw [if_pos h, h, OrderedMap.find?_erase_self]
    rfl
  · rw [if_neg h, OrderedMap.find?_erase_of_ne g (Ne.symm h)]

theorem group_append (g : InheritedGroups) (k key : MethodKey) (new : MemberMethod) :
    (g.append k new).group key = if k = key then g.group key ++ [new] else g.group key := by
  rw [append, group_insert]
  split
  · rename_i hk
    rw [hk]
  · rfl

/-- A group with one more method, unless it has the method already. -/
def join (group : List MemberMethod) (member : MemberMethod) : List MemberMethod :=
  if group.any (fun other => other.method == member.method) then group else group ++ [member]

theorem group_addNew (g : InheritedGroups) (k key : MethodKey) (new : MemberMethod) :
    (g.addNew k new).group key = if k = key then join (g.group key) new else g.group key := by
  unfold addNew join
  by_cases hk : k = key
  · subst hk
    rw [if_pos rfl]
    split
    · rfl
    · rw [group_insert, if_pos rfl]
  · rw [if_neg hk]
    split
    · rfl
    · rw [group_insert, if_neg hk]

theorem mem_join {group : List MemberMethod} {new member : MemberMethod} :
    member ∈ join group new ↔
      member ∈ group ∨ (member = new ∧ ∀ other ∈ group, other.method ≠ new.method) := by
  unfold join
  split
  · rename_i hknown
    obtain ⟨other, hother, heq⟩ := List.any_eq_true.mp hknown
    constructor
    · exact Or.inl
    · rintro (h | ⟨-, hnew⟩)
      · exact h
      · exact absurd (eq_of_beq heq) (hnew other hother)
  · rename_i hnew
    have hnew : ∀ other ∈ group, other.method ≠ new.method := by
      simpa using hnew
    rw [List.mem_append, List.mem_singleton, and_iff_left hnew]

theorem mem_group_append {k : MethodKey} {new member : MemberMethod} :
    member ∈ (g.append k new).group key ↔ member ∈ g.group key ∨ (k = key ∧ member = new) := by
  rw [group_append]
  by_cases h : k = key
  · simp [h]
  · simp [h]

theorem mem_group_addNew {k : MethodKey} {new member : MemberMethod} :
    member ∈ (g.addNew k new).group key ↔ member ∈ g.group key ∨
      (k = key ∧ member = new ∧ ∀ other ∈ g.group key, other.method ≠ new.method) := by
  rw [group_addNew]
  by_cases h : k = key
  · simp [h, mem_join]
  · simp [h]

/-- What stands in a group stays at its place. -/
theorem prefix_group_append (g : InheritedGroups) (k key : MethodKey) (new : MemberMethod) :
    g.group key <+: (g.append k new).group key := by
  rw [group_append]
  split
  · exact List.prefix_append ..
  · exact List.prefix_rfl

theorem prefix_group_addNew (g : InheritedGroups) (k key : MethodKey) (new : MemberMethod) :
    g.group key <+: (g.addNew k new).group key := by
  unfold addNew
  split
  · exact List.prefix_rfl
  · exact prefix_group_append g k key new

theorem sorted_addNew (h : g.Sorted) (k : MethodKey) (new : MemberMethod) :
    (g.addNew k new).Sorted := by
  unfold addNew
  split
  · exact h
  · exact OrderedMap.sorted_insert h k _

/-! ## §2 Entries of supertypes and implied methods -/

/-- Adds entries one after the other. -/
def addEntries (g : InheritedGroups) (entries : List (MethodKey × MemberMethod)) :
    InheritedGroups :=
  entries.foldl (fun g entry => g.addNew entry.1 entry.2) g

/-- Adds the methods of an interface without superinterfaces. -/
def appendEntries (g : InheritedGroups) (entries : List (MethodKey × MemberMethod)) :
    InheritedGroups :=
  entries.foldl (fun g entry => g.append entry.1 entry.2) g

theorem foldl_addAll (g : InheritedGroups) (supers : List MemberSet) :
    supers.foldl addAll g = g.addEntries (supers.flatMap (fun set => set.methods.entries)) := by
  unfold addEntries
  rw [List.foldl_flatMap]
  rfl

/-- A member of a group was there before or is one of the entries. -/
theorem mem_group_addEntries {entries : List (MethodKey × MemberMethod)} {member : MemberMethod}
    (h : member ∈ (g.addEntries entries).group key) :
    member ∈ g.group key ∨ (key, member) ∈ entries := by
  induction entries generalizing g with
  | nil => exact Or.inl h
  | cons entry entries ih =>
    obtain ⟨k, new⟩ := entry
    rcases ih h with h | h
    · rcases mem_group_addNew.mp h with h | ⟨rfl, rfl, -⟩
      · exact Or.inl h
      · exact Or.inr (List.mem_cons_self ..)
    · exact Or.inr (List.mem_cons_of_mem _ h)

/-- The method of every entry, old or new, has a member in its group. -/
theorem exists_mem_group_addEntries {entries : List (MethodKey × MemberMethod)} {ref : MethodRef}
    (h : (∃ member ∈ g.group key, member.method = ref) ∨
      ∃ member, (key, member) ∈ entries ∧ member.method = ref) :
    ∃ member ∈ (g.addEntries entries).group key, member.method = ref := by
  induction entries generalizing g with
  | nil =>
    rcases h with h | ⟨member, hmember, -⟩
    · exact h
    · cases hmember
  | cons entry entries ih =>
    obtain ⟨k, new⟩ := entry
    apply ih (g := g.addNew k new)
    rcases h with ⟨member, hmember, rfl⟩ | ⟨member, hmember, rfl⟩
    · exact Or.inl ⟨member, mem_group_addNew.mpr (Or.inl hmember), rfl⟩
    · rcases List.mem_cons.mp hmember with heq | hmember
      · obtain ⟨rfl, rfl⟩ := Prod.mk.injEq .. ▸ heq
        by_cases hknown : ∃ other ∈ g.group key, other.method = member.method
        · obtain ⟨other, hother, hsame⟩ := hknown
          exact Or.inl ⟨other, mem_group_addNew.mpr (Or.inl hother), hsame⟩
        · refine Or.inl ⟨member, mem_group_addNew.mpr (Or.inr ⟨rfl, rfl, ?_⟩), rfl⟩
          intro other hother hsame
          exact hknown ⟨other, hother, hsame⟩
      · exact Or.inr ⟨member, hmember, rfl⟩

theorem prefix_group_addEntries (g : InheritedGroups) (key : MethodKey)
    (entries : List (MethodKey × MemberMethod)) :
    g.group key <+: (g.addEntries entries).group key :=
  List.foldlRecOn (motive := fun g' => g.group key <+: group g' key) entries _ List.prefix_rfl
    (fun g' h entry _ => h.trans (prefix_group_addNew g' entry.1 key entry.2))

theorem prefix_group_appendEntries (g : InheritedGroups) (key : MethodKey)
    (entries : List (MethodKey × MemberMethod)) :
    g.group key <+: (g.appendEntries entries).group key :=
  List.foldlRecOn (motive := fun g' => g.group key <+: group g' key) entries _ List.prefix_rfl
    (fun g' h entry _ => h.trans (prefix_group_append g' entry.1 key entry.2))

/-- The first entry of a signature stands first in its group. -/
theorem head?_group_addEntries {entries : List (MethodKey × MemberMethod)} {member : MemberMethod}
    (hempty : g.group key = []) (h : OrderedMap.findIn key entries = some member) :
    ((g.addEntries entries).group key).head? = some member := by
  induction entries generalizing g with
  | nil => cases h
  | cons entry entries ih =>
    obtain ⟨k, new⟩ := entry
    have hstep := group_addNew g k key new
    by_cases hk : k = key
    · subst hk
      simp only [OrderedMap.findIn, if_true, Option.some.injEq] at h
      subst h
      refine head?_of_prefix (prefix_group_addEntries (g.addNew k new) k entries) ?_
      rw [hstep, if_pos rfl, hempty]
      rfl
    · simp only [OrderedMap.findIn, hk, if_false] at h
      rw [if_neg hk] at hstep
      exact ih (g := g.addNew k new) (hstep.trans hempty) h

theorem mem_group_appendEntries {entries : List (MethodKey × MemberMethod)}
    {member : MemberMethod} :
    member ∈ (g.appendEntries entries).group key ↔
      member ∈ g.group key ∨ (key, member) ∈ entries := by
  induction entries generalizing g with
  | nil => simp [appendEntries]
  | cons entry entries ih =>
    obtain ⟨k, new⟩ := entry
    show member ∈ ((g.append k new).appendEntries entries).group key ↔ _
    rw [ih, mem_group_append, List.mem_cons, Prod.mk.injEq]
    constructor
    · rintro ((h | ⟨rfl, rfl⟩) | h)
      · exact Or.inl h
      · exact Or.inr (Or.inl ⟨rfl, rfl⟩)
      · exact Or.inr (Or.inr h)
    · rintro (h | ⟨rfl, rfl⟩ | h)
      · exact Or.inl (Or.inl h)
      · exact Or.inl (Or.inr ⟨rfl, rfl⟩)
      · exact Or.inr h

/-- Entries of different signatures extend each group at most once. -/
theorem group_foldl {add : InheritedGroups → MethodKey → MemberMethod → InheritedGroups}
    (extend : List MemberMethod → MemberMethod → List MemberMethod)
    (hadd : ∀ g k key new,
      group (add g k new) key = if k = key then extend (group g key) new else group g key)
    {entries : List (MethodKey × MemberMethod)} (hkeys : (entries.map Prod.fst).Nodup) :
    group (entries.foldl (fun g entry => add g entry.1 entry.2) g) key =
      (OrderedMap.findIn key entries).elim (g.group key) (extend (g.group key)) := by
  induction entries generalizing g with
  | nil => rfl
  | cons entry entries ih =>
    obtain ⟨k, new⟩ := entry
    obtain ⟨hfresh, hothers⟩ := List.nodup_cons.mp hkeys
    rw [List.foldl_cons, ih hothers, hadd]
    by_cases hk : k = key
    · subst hk
      rw [OrderedMap.findIn_eq_none_of_notMem hfresh]
      simp [OrderedMap.findIn]
    · simp [OrderedMap.findIn, hk]

theorem group_addEntries {entries : List (MethodKey × MemberMethod)}
    (hkeys : (entries.map Prod.fst).Nodup) : (g.addEntries entries).group key =
      (OrderedMap.findIn key entries).elim (g.group key) (join (g.group key)) :=
  group_foldl join group_addNew hkeys

theorem group_appendEntries {entries : List (MethodKey × MemberMethod)}
    (hkeys : (entries.map Prod.fst).Nodup) : (g.appendEntries entries).group key =
      g.group key ++ (OrderedMap.findIn key entries).toList := by
  refine (group_foldl (fun members new => members ++ [new]) group_append hkeys).trans ?_
  cases OrderedMap.findIn key entries with
  | none => exact (List.append_nil _).symm
  | some new => rfl

theorem sorted_addEntries (h : g.Sorted) (entries : List (MethodKey × MemberMethod)) :
    (g.addEntries entries).Sorted :=
  List.foldlRecOn entries _ h (fun _ h entry _ => sorted_addNew h entry.1 entry.2)

theorem sorted_appendEntries (h : g.Sorted) (entries : List (MethodKey × MemberMethod)) :
    (g.appendEntries entries).Sorted :=
  List.foldlRecOn entries _ h (fun _ h entry _ => OrderedMap.sorted_insert h entry.1 _)

end InheritedGroups

namespace TypeTable

variable {t : TypeTable} {d : ClassDef} {supers : List MemberSet} {key : MethodKey}
  {member : MemberMethod}

/-- A type inherits a method under a signature: from a supertype, or implied
from `java.lang.Object`. -/
inductive Inherits (t : TypeTable) (d : ClassDef) (supers : List MemberSet) (key : MethodKey)
    (member : MemberMethod) : Prop
  | super {set : MemberSet} (hset : set ∈ supers) (hentry : (key, member) ∈ set.methods.entries)
  | implicit (hinterface : d.isInterface = true) (hroot : d.interfaces = [])
      (hentry : (key, member) ∈ t.implicitMembers)

theorem mem_implicitMembers : (key, member) ∈ t.implicitMembers ↔
    ∃ index m, (t.classAt t.wellKnown.object).methods[index]? = some m ∧
      m.modifiers.isPublic = true ∧ m.isStatic = false ∧ key = m.key ∧
      member = { method := ⟨t.wellKnown.object, index⟩, isAbstract := true } := by
  unfold implicitMembers
  simp only [List.mem_filterMap, Prod.exists, List.mem_zipIdx_iff_getElem?]
  constructor
  · rintro ⟨m, index, hm, hif⟩
    split at hif
    · rename_i hkind
      obtain ⟨hpublic, hstatic⟩ : m.modifiers.isPublic = true ∧ m.isStatic = false := by
        simpa using hkind
      cases hif
      exact ⟨index, m, hm, hpublic, hstatic, rfl, rfl⟩
    · cases hif
  · rintro ⟨index, m, hm, hpublic, hstatic, rfl, rfl⟩
    exact ⟨m, index, hm, by simp [hpublic, hstatic]⟩

theorem isAbstract_of_implicit (h : (key, member) ∈ t.implicitMembers) :
    member.isAbstract = true := by
  obtain ⟨index, m, -, -, -, -, rfl⟩ := mem_implicitMembers.mp h
  rfl

/-- No signature is implied twice when `java.lang.Object` declares none twice. -/
theorem nodup_implicitMembers
    (h : ((t.classAt t.wellKnown.object).methods.map MethodDef.key).Nodup) :
    (t.implicitMembers.map Prod.fst).Nodup := by
  rw [← map_zipIdx_fst] at h
  unfold implicitMembers
  refine List.pairwise_map.mpr (List.pairwise_filterMap.mpr ((List.pairwise_map.mp h).imp ?_))
  intro a b hne entry hentry entry' hentry'
  obtain ⟨-, heq⟩ := Option.ite_none_right_eq_some.mp hentry
  obtain ⟨-, heq'⟩ := Option.ite_none_right_eq_some.mp hentry'
  rwa [← Option.some.inj heq, ← Option.some.inj heq']

/-- What is implied under a signature. -/
theorem findIn_implicitMembers
    (h : ((t.classAt t.wellKnown.object).methods.map MethodDef.key).Nodup) :
    OrderedMap.findIn key t.implicitMembers = some member ↔
      ∃ index m, (t.classAt t.wellKnown.object).methods[index]? = some m ∧
        m.modifiers.isPublic = true ∧ m.isStatic = false ∧ key = m.key ∧
        member = { method := ⟨t.wellKnown.object, index⟩, isAbstract := true } :=
  (OrderedMap.findIn_eq_some_iff (nodup_implicitMembers h)).trans mem_implicitMembers

/-- The groups of a type are made of the entries of its supertypes and of the
implied methods. -/
theorem inheritedGroups_eq (t : TypeTable) (d : ClassDef) (supers : List MemberSet) :
    t.inheritedGroups d supers =
      if d.isInterface = true ∧ d.interfaces = [] then
        (InheritedGroups.addEntries ∅
          (supers.flatMap (fun set => set.methods.entries))).appendEntries t.implicitMembers
      else InheritedGroups.addEntries ∅ (supers.flatMap (fun set => set.methods.entries)) := by
  unfold inheritedGroups
  simp only [InheritedGroups.foldl_addAll, Bool.and_eq_true, List.isEmpty_iff]
  rfl

/-- The members of a group are inherited. -/
theorem mem_group (h : member ∈ (t.inheritedGroups d supers).group key) :
    t.Inherits d supers key member := by
  have hsuper : member ∈ InheritedGroups.group
      (InheritedGroups.addEntries ∅ (supers.flatMap (fun set => set.methods.entries))) key →
      t.Inherits d supers key member := by
    intro h
    rcases InheritedGroups.mem_group_addEntries h with h | h
    · cases h
    · obtain ⟨set, hset, hentry⟩ := List.mem_flatMap.mp h
      exact .super hset hentry
  rw [inheritedGroups_eq] at h
  split at h
  · rename_i hkind
    rcases InheritedGroups.mem_group_appendEntries.mp h with h | h
    · exact hsuper h
    · exact .implicit hkind.1 hkind.2 h
  · exact hsuper h

/-- The group of a signature has every method that is inherited under it. -/
theorem exists_mem_group (h : t.Inherits d supers key member) :
    ∃ other ∈ (t.inheritedGroups d supers).group key, other.method = member.method := by
  rw [inheritedGroups_eq]
  cases h with
  | super hset hentry =>
    have hmem : (key, member) ∈ supers.flatMap (fun set => set.methods.entries) :=
      List.mem_flatMap.mpr ⟨_, hset, hentry⟩
    obtain ⟨other, hother, hsame⟩ := InheritedGroups.exists_mem_group_addEntries (g := ∅)
      (Or.inr ⟨member, hmem, rfl⟩)
    refine ⟨other, ?_, hsame⟩
    split
    · exact InheritedGroups.mem_group_appendEntries.mpr (Or.inl hother)
    · exact hother
  | implicit hinterface hroot hentry =>
    rw [if_pos ⟨hinterface, hroot⟩]
    exact ⟨member, InheritedGroups.mem_group_appendEntries.mpr (Or.inr hentry), rfl⟩

/-- What a type inherits from its first supertype stands first in its group. -/
theorem head?_group (t : TypeTable) (d : ClassDef) {first : MemberSet}
    (h : first.method? key = some member) (rest : List MemberSet) :
    ((t.inheritedGroups d (first :: rest)).group key).head? = some member := by
  have hhead : (InheritedGroups.group (InheritedGroups.addEntries ∅
      ((first :: rest).flatMap (fun set => set.methods.entries))) key).head? = some member := by
    rw [List.flatMap_cons]
    refine InheritedGroups.head?_group_addEntries rfl ?_
    rw [OrderedMap.findIn_append,
      show OrderedMap.findIn key first.methods.entries = some member from h, Option.some_or]
  rw [inheritedGroups_eq]
  split
  · exact head?_of_prefix (InheritedGroups.prefix_group_appendEntries _ key _) hhead
  · exact hhead

theorem sorted_inheritedGroups (t : TypeTable) (d : ClassDef) (supers : List MemberSet) :
    (t.inheritedGroups d supers).Sorted := by
  rw [inheritedGroups_eq]
  have h := InheritedGroups.sorted_addEntries (g := ∅) OrderedMap.sorted_empty
    (supers.flatMap (fun set => set.methods.entries))
  split
  · exact InheritedGroups.sorted_appendEntries h _
  · exact h

/-! ## §3 Fields -/

theorem find?_foldl_insertNew {fields : OrderedMap Name FieldRef} {entries : List (Name × FieldRef)}
    {name : Name} :
    (entries.foldl (fun fields entry => fields.insertNew entry.1 entry.2) fields).find? name =
      (fields.find? name).or (OrderedMap.findIn name entries) := by
  induction entries generalizing fields with
  | nil => simp [OrderedMap.findIn]
  | cons entry entries ih =>
    obtain ⟨k, ref⟩ := entry
    rw [List.foldl_cons, ih, OrderedMap.find?_insertNew]
    by_cases h : k = name
    · subst h
      cases fields.find? k <;> simp [OrderedMap.findIn]
    · simp [OrderedMap.findIn, h]

/-- The first supertype that has a name provides its field. -/
theorem find?_inheritedFields (supers : List MemberSet) (name : Name) :
    (inheritedFields supers).find? name =
      OrderedMap.findIn name (supers.flatMap (fun set => set.fields.entries)) := by
  have hflat : inheritedFields supers = (supers.flatMap (fun set => set.fields.entries)).foldl
      (fun fields entry => fields.insertNew entry.1 entry.2) ∅ := by
    unfold inheritedFields
    rw [List.foldl_flatMap]
  rw [hflat, find?_foldl_insertNew]
  rfl

/-- The first supertype that has a field of a name provides it. -/
theorem find?_inheritedFields_eq (supers : List MemberSet) (name : Name) :
    (inheritedFields supers).find? name = supers.findSome? (fun set => set.field? name) := by
  rw [find?_inheritedFields]
  induction supers with
  | nil => rfl
  | cons set supers ih =>
    rw [List.flatMap_cons, OrderedMap.findIn_append, ih, List.findSome?_cons]
    show (set.field? name).or _ = _
    cases set.field? name <;> rfl

theorem find?_foldl_insert_of_ne {fields : OrderedMap Name FieldRef} {id : ClassId}
    {declared : List (FieldDef × Nat)} {name : Name} (h : ∀ entry ∈ declared, entry.1.name ≠ name) :
    (declared.foldl (fun fields entry => fields.insert entry.1.name ⟨id, entry.2⟩)
      fields).find? name = fields.find? name := by
  induction declared generalizing fields with
  | nil => rfl
  | cons entry declared ih =>
    obtain ⟨hfirst, hothers⟩ := List.forall_mem_cons.mp h
    rw [List.foldl_cons, ih hothers, OrderedMap.find?_insert_of_ne _ hfirst]

/-- A field that is declared hides the inherited ones. -/
theorem find?_visibleFields_of_declared {id : ClassId} {inherited : OrderedMap Name FieldRef}
    (hnames : (d.fields.map FieldDef.name).Nodup) {index : Nat} {f : FieldDef}
    (hf : d.fields[index]? = some f) :
    (visibleFields d id inherited).find? f.name = some ⟨id, index⟩ := by
  have hmem : (f, index) ∈ d.fields.zipIdx := List.mem_zipIdx_iff_getElem?.mpr hf
  obtain ⟨before, after, hsplit⟩ := List.append_of_mem hmem
  rw [← map_zipIdx_fst, hsplit, List.map_append, List.map_cons] at hnames
  have hafter := (List.nodup_cons.mp (List.nodup_append.mp hnames).2.1).1
  unfold visibleFields
  rw [hsplit, List.foldl_append, List.foldl_cons, find?_foldl_insert_of_ne]
  · exact OrderedMap.find?_insert_self ..
  · exact fun entry hentry heq => hafter (List.mem_map.mpr ⟨entry, hentry, heq⟩)

/-- A field that is not declared is inherited. -/
theorem find?_visibleFields_of_inherited {id : ClassId} {inherited : OrderedMap Name FieldRef}
    {name : Name} (h : ∀ f ∈ d.fields, f.name ≠ name) :
    (visibleFields d id inherited).find? name = inherited.find? name := by
  refine find?_foldl_insert_of_ne ?_
  rintro ⟨f, index⟩ hentry
  exact h f (List.mem_of_getElem? (List.mem_zipIdx_iff_getElem?.mp hentry))

theorem find?_foldl_insert {fields : OrderedMap Name FieldRef} {id : ClassId}
    {declared : List (FieldDef × Nat)} {name : Name} {ref : FieldRef}
    (h : (declared.foldl (fun fields entry => fields.insert entry.1.name ⟨id, entry.2⟩)
      fields).find? name = some ref) :
    fields.find? name = some ref ∨
      ∃ entry ∈ declared, entry.1.name = name ∧ ref = ⟨id, entry.2⟩ := by
  induction declared generalizing fields with
  | nil => exact Or.inl h
  | cons entry declared ih =>
    rcases ih h with h | ⟨other, hother, hname, rfl⟩
    · rw [OrderedMap.find?_insert] at h
      split at h
      · rename_i hname
        cases h
        exact Or.inr ⟨entry, List.mem_cons_self .., hname, rfl⟩
      · exact Or.inl h
    · exact Or.inr ⟨other, List.mem_cons_of_mem _ hother, hname, rfl⟩

theorem isSome_foldl_insert {fields : OrderedMap Name FieldRef} {id : ClassId}
    {declared : List (FieldDef × Nat)} {name : Name} (h : (fields.find? name).isSome = true) :
    ((declared.foldl (fun fields entry => fields.insert entry.1.name ⟨id, entry.2⟩)
      fields).find? name).isSome = true := by
  induction declared generalizing fields with
  | nil => exact h
  | cons entry declared ih =>
    apply ih
    rw [OrderedMap.find?_insert]
    split
    · rfl
    · exact h

/-- A visible field is declared by the type or visible in a supertype. -/
theorem find?_visibleFields {id : ClassId} {name : Name} {ref : FieldRef}
    (h : (visibleFields d id (inheritedFields supers)).find? name = some ref) :
    (∃ index f, d.fields[index]? = some f ∧ f.name = name ∧ ref = ⟨id, index⟩) ∨
      ∃ set ∈ supers, (name, ref) ∈ set.fields.entries := by
  rcases find?_foldl_insert h with h | ⟨⟨f, index⟩, hmem, hname, rfl⟩
  · rw [find?_inheritedFields] at h
    exact Or.inr (List.mem_flatMap.mp (OrderedMap.mem_of_findIn h))
  · exact Or.inl ⟨index, f, List.mem_zipIdx_iff_getElem?.mp hmem, hname, rfl⟩

/-- A field name that is visible in a supertype is visible in the type. -/
theorem isSome_visibleFields {id : ClassId} {set : MemberSet} (hset : set ∈ supers) {name : Name}
    {ref : FieldRef} (h : (name, ref) ∈ set.fields.entries) :
    ((visibleFields d id (inheritedFields supers)).find? name).isSome = true := by
  apply isSome_foldl_insert
  rw [find?_inheritedFields, OrderedMap.isSome_findIn]
  exact List.mem_map.mpr ⟨(name, ref), List.mem_flatMap.mpr ⟨set, hset, h⟩, rfl⟩

theorem sorted_visibleFields (d : ClassDef) (id : ClassId) (supers : List MemberSet) :
    (visibleFields d id (inheritedFields supers)).Sorted := by
  unfold visibleFields inheritedFields
  refine List.foldlRecOn _ _ ?_ (fun _ h entry _ => OrderedMap.sorted_insert h _ _)
  refine List.foldlRecOn _ _ OrderedMap.sorted_empty (fun _ h set _ => ?_)
  exact List.foldlRecOn _ _ h (fun _ h entry _ => OrderedMap.sorted_insertNew h _ _)

end TypeTable

end JoosStatics
