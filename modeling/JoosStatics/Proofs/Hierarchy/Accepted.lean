/-
JoosStatics.Proofs.Hierarchy.Accepted — what the hierarchy stage promises.

`TypeTable.Accepted t h` collects it: the direct supertypes are of the right
kind, no member is declared twice, the types can be listed with supertypes
first, and the members of every type are assembled from the members of its
direct supertypes.

* `checkHierarchy_checked`, `Checked.accepted` — every hierarchy that is
  accepted keeps the promises.
* `exists_checkHierarchy` — what it takes for the stage to succeed.
* `Accepted.wellFounded` — induction from supertypes to subtypes.
* `Accepted.origin` — where the methods of a type come from.
* `HasHierarchy` — a program passes all stages up to the hierarchy;
  `exists_hasHierarchy` finds it out for a given program.
-/
import JoosStatics.Hierarchy.Check
import JoosStatics.Library.Units
import JoosStatics.Proofs.Hierarchy.MemberSets
import JoosStatics.Proofs.Hierarchy.Order
import JoosStatics.Proofs.Linking.Lowered

namespace JoosStatics

/-! ## §1 The checks of single types -/

/-- No item is repeated when all keys differ, from each other and from the earlier
ones. -/
theorem firstRepeated?_eq_none {α κ : Type} [DecidableEq κ] {key : α → κ} {earlier : List κ}
    {items : List α} : firstRepeated? key earlier items = none ↔
      (items.map key).Nodup ∧ ∀ item ∈ items, key item ∉ earlier := by
  induction items generalizing earlier with
  | nil => simp [firstRepeated?]
  | cons item rest ih =>
    unfold firstRepeated?
    rw [List.map_cons, List.nodup_cons, List.forall_mem_cons]
    split
    · rename_i hrepeated
      exact ⟨nofun, fun h => absurd hrepeated h.2.1⟩
    · rename_i hfresh
      rw [ih]
      constructor
      · rintro ⟨hnodup, hnew⟩
        refine ⟨⟨fun hmem => ?_, hnodup⟩, hfresh, fun other hother hmem => ?_⟩
        · obtain ⟨other, hother, heq⟩ := List.mem_map.mp hmem
          exact hnew other hother (heq ▸ List.mem_cons_self ..)
        · exact hnew other hother (List.mem_cons_of_mem _ hmem)
      · rintro ⟨⟨hnotin, hnodup⟩, -, hnew⟩
        refine ⟨hnodup, fun other hother hmem => ?_⟩
        rcases List.mem_cons.mp hmem with heq | hmem
        · exact hnotin (heq ▸ List.mem_map_of_mem hother)
        · exact hnew other hother hmem

theorem forM_eq_ok {ε α : Type} {f : α → Except ε PUnit} {xs : List α} :
    xs.forM f = .ok () ↔ ∀ x ∈ xs, f x = .ok () := by
  induction xs with
  | nil => exact ⟨fun _ => nofun, fun _ => rfl⟩
  | cons x xs ih =>
    rw [List.forall_mem_cons, ← ih]
    show (f x >>= fun _ => xs.forM f) = .ok () ↔ _
    rw [bind_eq_ok]
    exact ⟨fun ⟨_, hx, hxs⟩ => ⟨hx, hxs⟩, fun ⟨hx, hxs⟩ => ⟨(), hx, hxs⟩⟩

namespace TypeTable

variable {t : TypeTable} {id : ClassId}

/-- A type passes when it declares no field name, no method signature and no
constructor signature twice. -/
theorem checkDuplicates_eq_ok :
    t.checkDuplicates id = .ok () ↔
      ((t.classAt id).fields.map FieldDef.name).Nodup ∧
      ((t.classAt id).methods.map MethodDef.key).Nodup ∧
      ((t.classAt id).constructors.map ConstructorDef.params).Nodup := by
  have hkeys : ((t.classAt id).methods.map (fun m => (m.name, m.params))).Nodup ↔
      ((t.classAt id).methods.map MethodDef.key).Nodup := by
    rw [List.Nodup, List.Nodup, List.pairwise_map, List.pairwise_map]
    simp only [MethodDef.key, ne_eq, Prod.mk.injEq, MethodKey.mk.injEq]
  have hnone : t.checkDuplicates id = .ok () ↔ t.repeatedMember? id = none := by
    unfold checkDuplicates
    cases t.repeatedMember? id with
    | some violation => exact ⟨nofun, nofun⟩
    | none => exact ⟨fun _ => rfl, fun _ => rfl⟩
  rw [hnone, ← hkeys]
  unfold repeatedMember?
  simp [firstRepeated?_eq_none, Option.or_eq_none_iff, Option.map_eq_none_iff]

/-- A superclass passes when it is a class and not final. -/
theorem checkSuperclass_eq_ok :
    t.checkSuperclass id = .ok () ↔ ∀ sup, (t.classAt id).superclass = some sup →
      (t.classAt sup).isInterface = false ∧ (t.classAt sup).isFinal = false := by
  unfold checkSuperclass
  cases (t.classAt id).superclass with
  | none => simp
  | some sup =>
    simp only [Option.some.injEq, forall_eq']
    cases (t.classAt sup).isInterface <;> cases (t.classAt sup).isFinal <;> simp

/-- Superinterfaces pass when they are interfaces and none of them is repeated. -/
theorem checkInterfaces_eq_ok {earlier interfaces : List ClassId} :
    t.checkInterfaces id earlier interfaces = .ok () ↔
      (∀ sup ∈ interfaces, (t.classAt sup).isInterface = true) ∧ interfaces.Nodup ∧
        ∀ sup ∈ interfaces, sup ∉ earlier := by
  induction interfaces generalizing earlier with
  | nil => simp [checkInterfaces]
  | cons interface rest ih =>
    unfold checkInterfaces
    rw [List.forall_mem_cons, List.nodup_cons, List.forall_mem_cons]
    split
    · rename_i hclass
      exact ⟨fun h => (by cases h), fun h => by simp [h.1.1] at hclass⟩
    · rename_i hinterface
      split
      · rename_i hrepeated
        exact ⟨fun h => (by cases h),
          fun h => absurd (List.contains_iff_mem.mp hrepeated) h.2.2.1⟩
      · rename_i hnew
        rw [List.contains_iff_mem] at hnew
        rw [ih]
        constructor
        · rintro ⟨hkinds, hnodup, hfresh⟩
          have hnotin : interface ∉ rest :=
            fun hmem => hfresh interface hmem (List.mem_cons_self ..)
          exact ⟨⟨by simpa using hinterface, hkinds⟩, ⟨hnotin, hnodup⟩, hnew,
            fun sup hsup hmem => hfresh sup hsup (List.mem_cons_of_mem _ hmem)⟩
        · rintro ⟨⟨-, hkinds⟩, ⟨hnotin, hnodup⟩, -, hfresh⟩
          refine ⟨hkinds, hnodup, fun sup hsup hmem => ?_⟩
          rcases List.mem_cons.mp hmem with rfl | hmem
          · exact hnotin hsup
          · exact hfresh sup hsup hmem

/-- Supertypes pass when the superclass is a class that is not final and the
superinterfaces are interfaces, none of them repeated. -/
theorem checkSupertypeEdges_eq_ok :
    t.checkSupertypeEdges id = .ok () ↔
      (∀ sup, (t.classAt id).superclass = some sup →
        (t.classAt sup).isInterface = false ∧ (t.classAt sup).isFinal = false) ∧
      (∀ sup ∈ (t.classAt id).interfaces, (t.classAt sup).isInterface = true) ∧
      (t.classAt id).interfaces.Nodup := by
  unfold checkSupertypeEdges
  rw [bind_eq_ok, ← checkSuperclass_eq_ok]
  constructor
  · rintro ⟨_, hclass, hinterfaces⟩
    obtain ⟨hkinds, hnodup, -⟩ := checkInterfaces_eq_ok.mp hinterfaces
    exact ⟨hclass, hkinds, hnodup⟩
  · rintro ⟨hclass, hkinds, hnodup⟩
    exact ⟨(), hclass,
      checkInterfaces_eq_ok.mpr ⟨hkinds, hnodup, fun _ _ => List.not_mem_nil⟩⟩

/-! ## §2 The members of all types -/

/-- The supertypes of each type that is still to come stand before it or are known. -/
def SupersKnown (t : TypeTable) (order : List ClassId) (sets : OrderedMap ClassId MemberSet) :
    Prop :=
  ∀ before id after, order = before ++ id :: after → ∀ sup, t.Extends id sup →
    sup ∈ before ∨ (sets.find? sup).isSome = true

section SupersKnown

variable {first sup : ClassId} {order rest : List ClassId} {sets : OrderedMap ClassId MemberSet}

theorem SupersFirst.supersKnown (h : t.SupersFirst order) : t.SupersKnown order sets :=
  fun before id after heq sup hsup => Or.inl (h before id after heq sup hsup)

theorem SupersKnown.head (h : t.SupersKnown (first :: rest) sets) (hsup : t.Extends first sup) :
    (sets.find? sup).isSome = true :=
  (h [] first rest rfl sup hsup).resolve_left List.not_mem_nil

theorem SupersKnown.tail (h : t.SupersKnown (first :: rest) sets) (set : MemberSet) :
    t.SupersKnown rest (sets.insert first set) := by
  intro before id after heq sup hsup
  rw [OrderedMap.find?_insert]
  rcases h (first :: before) id after (by rw [heq]; rfl) sup hsup with hs | hs
  · rcases List.mem_cons.mp hs with rfl | hs
    · exact Or.inr (by simp)
    · exact Or.inl hs
  · refine Or.inr ?_
    split
    · rfl
    · exact hs

end SupersKnown

/-- When types are computed in an order with the supertypes first, the members
of each are computed from the final members of its supertypes. -/
theorem computeMembers_eq_ok {order : List ClassId} {sets sets' : OrderedMap ClassId MemberSet}
    (hnodup : order.Nodup) (hfresh : ∀ id ∈ order, sets.find? id = none)
    (hsups : t.SupersKnown order sets) (h : t.computeMembers order sets = .ok sets') :
    (∀ id ∉ order, sets'.find? id = sets.find? id) ∧
    ∀ id ∈ order, ∃ set, sets'.find? id = some set ∧
      t.memberSet id ((t.classAt id).directSupertypes.filterMap sets'.find?) = .ok set ∧
      ∀ sup, t.Extends id sup → (sets'.find? sup).isSome = true := by
  induction order generalizing sets with
  | nil =>
    cases h
    exact ⟨fun _ _ => rfl, by simp⟩
  | cons first rest ih =>
    obtain ⟨hnew, hrest⟩ := List.nodup_cons.mp hnodup
    obtain ⟨set, hset, hrec⟩ := bind_eq_ok.mp h
    have hfind (id : ClassId) := OrderedMap.find?_insert sets first id set
    have hfresh' : ∀ id ∈ rest, (sets.insert first set).find? id = none := by
      intro id hid
      have hne : first ≠ id := fun heq => hnew (heq ▸ hid)
      rw [hfind, if_neg hne]
      exact hfresh id (List.mem_cons_of_mem _ hid)
    obtain ⟨hothers, hmembers⟩ := ih hrest hfresh' (hsups.tail set) hrec
    -- the supertypes of the first type are known and never computed again
    have hkept : ∀ sup, t.Extends first sup → sets'.find? sup = sets.find? sup := by
      intro sup hsup
      have hnotin : sup ∉ first :: rest := by
        intro hmem
        have hsome := hsups.head hsup
        rw [hfresh sup hmem] at hsome
        cases hsome
      rw [hothers sup (fun hmem => hnotin (List.mem_cons_of_mem _ hmem)), hfind, if_neg]
      rintro rfl
      exact hnotin (List.mem_cons_self ..)
    refine ⟨fun id hid => ?_, fun id hid => ?_⟩
    · simp only [List.mem_cons, not_or] at hid
      rw [hothers id hid.2, hfind, if_neg (Ne.symm hid.1)]
    · rcases List.mem_cons.mp hid with rfl | hid
      · refine ⟨set, by rw [hothers id hnew, hfind, if_pos rfl], ?_, fun sup hsup => ?_⟩
        · rw [← hset]
          congr 1
          exact List.filterMap_congr hkept
        · rw [hkept sup hsup]
          exact hsups.head hsup
      · exact hmembers id hid

theorem forall₂_filterMap {α β : Type} {r : α → β → Prop} {f : α → Option β} {xs : List α}
    (h : ∀ x ∈ xs, ∃ y, f x = some y ∧ r x y) : List.Forall₂ r xs (xs.filterMap f) := by
  induction xs with
  | nil => exact .nil
  | cons x xs ih =>
    obtain ⟨⟨y, hy, hr⟩, hothers⟩ := List.forall_mem_cons.mp h
    rw [List.filterMap_cons_some hy]
    exact .cons hr (ih hothers)

/-- The members of all types are computed when those of each type can be computed from
what has the property of its supertypes, and then have the property. -/
theorem exists_computeMembers {P : ClassId → MemberSet → Prop} {order : List ClassId}
    {sets : OrderedMap ClassId MemberSet}
    (hknown : ∀ id set, sets.find? id = some set → P id set) (hsups : t.SupersKnown order sets)
    (hstep : ∀ id ∈ order, ∀ supers, List.Forall₂ P (t.classAt id).directSupertypes supers →
      ∃ set, t.memberSet id supers = .ok set ∧ P id set) :
    ∃ sets', t.computeMembers order sets = .ok sets' ∧
      ∀ id set, sets'.find? id = some set → P id set := by
  induction order generalizing sets with
  | nil => exact ⟨sets, rfl, hknown⟩
  | cons first rest ih =>
    obtain ⟨hfirst, hrest⟩ := List.forall_mem_cons.mp hstep
    have hsupers : List.Forall₂ P (t.classAt first).directSupertypes
        ((t.classAt first).directSupertypes.filterMap sets.find?) := by
      refine forall₂_filterMap (fun sup hsup => ?_)
      obtain ⟨set, hset⟩ := Option.isSome_iff_exists.mp (hsups.head hsup)
      exact ⟨set, hset, hknown sup set hset⟩
    obtain ⟨set, hset, hP⟩ := hfirst _ hsupers
    have hknown' : ∀ id other, (sets.insert first set).find? id = some other → P id other := by
      intro id other hother
      rw [OrderedMap.find?_insert] at hother
      split at hother
      · rename_i heq
        cases hother
        exact heq ▸ hP
      · exact hknown id other hother
    obtain ⟨sets', hsets', hprop⟩ := ih hknown' (hsups.tail set) hrest
    exact ⟨sets', bind_eq_ok.mpr ⟨set, hset, hsets'⟩, hprop⟩

/-! ## §3 The stage -/

/-- What the hierarchy stage has checked and computed. -/
structure Checked (t : TypeTable) (h : Hierarchy) : Prop where
  edges : ∀ id ∈ t.ids, t.checkSupertypeEdges id = .ok ()
  exists_order : ∃ order, (∀ id, id ∈ order ↔ id < t.size) ∧ t.SupersFirst order
  duplicates : ∀ id ∈ t.ids, t.checkDuplicates id = .ok ()
  members : ∀ {id}, id < t.size →
    t.memberSet id ((t.classAt id).directSupertypes.map h.members) = .ok (h.members id)
  outside : ∀ {id}, t.size ≤ id → h.members id = {}

theorem checkHierarchy_checked (hsups : ∀ {sub sup}, t.Extends sub sup → sup < t.size)
    {h : Hierarchy} (hcheck : t.checkHierarchy = .ok h) : t.Checked h := by
  unfold checkHierarchy at hcheck
  obtain ⟨_, hedges, hcheck⟩ := bind_eq_ok.mp hcheck
  obtain ⟨order, horder, hcheck⟩ := bind_eq_ok.mp hcheck
  obtain ⟨_, hduplicates, hcheck⟩ := bind_eq_ok.mp hcheck
  obtain ⟨sets, hsets, hcheck⟩ := bind_eq_ok.mp hcheck
  cases hcheck
  obtain ⟨hnodup, hmem, hfirst⟩ := dependencyOrder_spec hsups horder
  obtain ⟨hothers, hmembers⟩ :=
    computeMembers_eq_ok hnodup (fun _ _ => rfl) hfirst.supersKnown hsets
  refine ⟨forM_eq_ok.mp hedges, ⟨order, hmem, hfirst⟩, forM_eq_ok.mp hduplicates,
    fun {id} hid => ?_, fun {id} hid => ?_⟩
  · obtain ⟨set, hset, hcomputed, hknown⟩ := hmembers id ((hmem id).mpr hid)
    have hmap : (t.classAt id).directSupertypes.filterMap sets.find? =
        (t.classAt id).directSupertypes.map (Hierarchy.members { sets }) := by
      rw [← List.filterMap_eq_map]
      apply List.filterMap_congr
      intro sup hsup
      obtain ⟨supSet, hsupSet⟩ := Option.isSome_iff_exists.mp (hknown sup hsup)
      simp [Hierarchy.members, hsupSet]
    have hat : Hierarchy.members { sets } id = set := by
      simp [Hierarchy.members, hset]
    rw [← hmap, hat, hcomputed]
  · have hnotin : id ∉ order := fun h => Nat.not_lt.mpr hid ((hmem id).mp h)
    simp [Hierarchy.members, hothers id hnotin]

/-- The stage succeeds when the checks do, no type is above itself, and the members of
each type can be computed from what has a property of its supertypes; then the members
have the property. -/
theorem exists_checkHierarchy (hsups : ∀ {sub sup}, t.Extends sub sup → sup < t.size)
    (hedges : ∀ id ∈ t.ids, t.checkSupertypeEdges id = .ok ())
    (hacyclic : ∀ id, ¬ Relation.TransGen t.Extends id id)
    (hduplicates : ∀ id ∈ t.ids, t.checkDuplicates id = .ok ())
    {P : ClassId → MemberSet → Prop}
    (hstep : ∀ id < t.size, ∀ supers, List.Forall₂ P (t.classAt id).directSupertypes supers →
      ∃ set, t.memberSet id supers = .ok set ∧ P id set) :
    ∃ h, t.checkHierarchy = .ok h ∧ ∀ id < t.size, P id (h.members id) := by
  obtain ⟨order, horder⟩ := exists_dependencyOrder hacyclic
  obtain ⟨hnodup, hmem, hfirst⟩ := dependencyOrder_spec hsups horder
  have hempty : ∀ id set, (∅ : OrderedMap ClassId MemberSet).find? id = some set → P id set :=
    fun _ _ h => by cases h
  obtain ⟨sets, hsets, hP⟩ := exists_computeMembers hempty hfirst.supersKnown
    (fun id hid => hstep id ((hmem id).mp hid))
  obtain ⟨-, hmembers⟩ := computeMembers_eq_ok hnodup (fun _ _ => rfl) hfirst.supersKnown hsets
  refine ⟨{ sets }, bind_eq_ok.mpr ⟨(), forM_eq_ok.mpr hedges, bind_eq_ok.mpr ⟨order, horder,
    bind_eq_ok.mpr ⟨(), forM_eq_ok.mpr hduplicates, bind_eq_ok.mpr ⟨sets, hsets, rfl⟩⟩⟩⟩,
    fun id hid => ?_⟩
  obtain ⟨set, hset, -⟩ := hmembers id ((hmem id).mpr hid)
  have hat : Hierarchy.members { sets } id = set := by
    simp [Hierarchy.members, hset]
  exact hat ▸ hP id set hset

/-- What the hierarchy stage promises about a table and the members of its
types. -/
structure Accepted (t : TypeTable) (h : Hierarchy) : Prop where
  superclass_isClass : ∀ {id sup}, (t.classAt id).superclass = some sup →
    (t.classAt sup).isInterface = false
  interfaces_areInterfaces : ∀ {id sup}, sup ∈ (t.classAt id).interfaces →
    (t.classAt sup).isInterface = true
  methods_nodup : ∀ id, ((t.classAt id).methods.map MethodDef.key).Nodup
  exists_order : ∃ order, (∀ id, id ∈ order ↔ id < t.size) ∧ t.SupersFirst order
  assembles : ∀ {id}, id < t.size →
    t.Assembles id ((t.classAt id).directSupertypes.map h.members) (h.members id)

/-- No chain of supertypes goes on forever. -/
theorem Accepted.wellFounded {h : Hierarchy} (ha : t.Accepted h) :
    WellFounded (fun sup id => t.Extends id sup) := by
  obtain ⟨order, horder, hfirst⟩ := ha.exists_order
  exact hfirst.wellFounded horder

/-- No type is above itself. -/
theorem Accepted.acyclic {h : Hierarchy} (ha : t.Accepted h) (id : ClassId) :
    ¬ Relation.TransGen t.Extends id id := by
  obtain ⟨order, horder, hfirst⟩ := ha.exists_order
  exact hfirst.acyclic horder id

/-- What has been checked and computed is what is promised. -/
theorem Checked.accepted {h : Hierarchy} (hc : t.Checked h) : t.Accepted h := by
  have hin : ∀ {id sup}, t.Extends id sup → t.checkSupertypeEdges id = .ok () :=
    fun hedge => hc.edges _ (List.mem_range.mpr hedge.lt_size)
  have hkeys : ∀ id, ((t.classAt id).methods.map MethodDef.key).Nodup := by
    intro id
    by_cases hid : id < t.size
    · exact (checkDuplicates_eq_ok.mp (hc.duplicates id (List.mem_range.mpr hid))).2.1
    · rw [t.classAt_of_size_le (Nat.le_of_not_lt hid)]
      exact List.nodup_nil
  constructor
  · intro id sup hsup
    have hedge : t.Extends id sup := List.mem_append_left _ (Option.mem_toList.mpr hsup)
    exact ((checkSupertypeEdges_eq_ok.mp (hin hedge)).1 sup hsup).1
  · intro id sup hsup
    have hedge : t.Extends id sup := List.mem_append_right _ hsup
    exact (checkSupertypeEdges_eq_ok.mp (hin hedge)).2.1 sup hsup
  · exact hkeys
  · exact hc.exists_order
  · exact fun hid => memberSet_eq_ok (hkeys _) (hc.members hid)

/-! ## §4 Where methods come from -/

/-- A method of a type is declared by it, kept from a direct supertype, or
implied by `java.lang.Object` in an interface without superinterfaces. -/
inductive MethodOrigin (t : TypeTable) (h : Hierarchy) (id : ClassId) (key : MethodKey)
    (member : MemberMethod) : Prop
  | declared {index : Nat} {m : MethodDef} (hm : (t.classAt id).methods[index]? = some m)
      (hkey : m.key = key)
      (heq : member = { method := ⟨id, index⟩, isAbstract := m.isAbstract })
  | inherited {sup : ClassId} (hnot : ∀ m ∈ (t.classAt id).methods, m.key ≠ key)
      (hedge : t.Extends id sup) (hfind : (h.members sup).method? key = some member)
  | implicit (hnot : ∀ m ∈ (t.classAt id).methods, m.key ≠ key)
      (hinterface : (t.classAt id).isInterface = true)
      (himplicit : (key, member) ∈ t.implicitMembers)

namespace Accepted

variable {h : Hierarchy} {sup : ClassId} {key : MethodKey} {member : MemberMethod}

/-- What a direct supertype has under a signature is inherited. -/
theorem inherits (hedge : t.Extends id sup) (hfind : (h.members sup).method? key = some member) :
    t.Inherits (t.classAt id) ((t.classAt id).directSupertypes.map h.members) key member :=
  .super (List.mem_map.mpr ⟨sup, hedge, rfl⟩) (OrderedMap.mem_entries_of_find? hfind)

theorem origin (hl : t.WellLinked) (ha : t.Accepted h) (hid : id < t.size)
    (hmember : (h.members id).method? key = some member) : t.MethodOrigin h id key member := by
  rcases (ha.assembles hid).cases_method hmember with
    ⟨index, m, hm, hkey, heq⟩ | ⟨hnot, -, hinherits⟩
  · exact .declared hm hkey heq
  · cases hinherits with
    | super hset hentry =>
      obtain ⟨sup, hedge, rfl⟩ := List.mem_map.mp hset
      have hsorted := (ha.assembles (hl.supertype_lt hedge)).sorted_methods
      exact .inherited hnot hedge (OrderedMap.find?_of_mem_entries hsorted hentry)
    | implicit hinterface _ hentry => exact .implicit hnot hinterface hentry

/-- A type keeps what its direct supertypes have under a signature, with the
same result type. -/
theorem keeps (ha : t.Accepted h) (hedge : t.Extends id sup)
    (hfind : (h.members sup).method? key = some member) :
    ∃ kept, (h.members id).method? key = some kept ∧
      (t.methodAt kept.method).returnType = (t.methodAt member.method).returnType :=
  (ha.assembles hedge.lt_size).keeps (inherits hedge hfind)

end Accepted

end TypeTable

/-! ## §5 Programs with a hierarchy -/

/-- A program and its library are linked, and their hierarchy is accepted. -/
def HasHierarchy (program library : List CompilationUnit) (l : Linked) (h : Hierarchy) : Prop :=
  ∃ s, SymbolTable.build program library = .ok s ∧ s.link = .ok l ∧ l.table.checkHierarchy = .ok h

namespace HasHierarchy

variable {program library : List CompilationUnit} {l : Linked} {h : Hierarchy}

theorem wellLinked (hh : HasHierarchy program library l h) : l.table.WellLinked := by
  obtain ⟨s, hbuild, hlink, -⟩ := hh
  exact SymbolTable.link_wellLinked (SymbolTable.build_indexed hbuild) hlink

theorem checked (hh : HasHierarchy program library l h) : l.table.Checked h := by
  obtain ⟨-, -, -, hcheck⟩ := id hh
  exact TypeTable.checkHierarchy_checked hh.wellLinked.supertype_lt hcheck

theorem accepted (hh : HasHierarchy program library l h) : l.table.Accepted h :=
  hh.checked.accepted

end HasHierarchy

/-- Whether a program passes all stages up to the hierarchy with a result that
passes a test. -/
def passesHierarchy (program library : List CompilationUnit) (test : Linked → Hierarchy → Bool) :
    Bool :=
  match SymbolTable.build program library with
  | .error _ => false
  | .ok s =>
    match s.link with
    | .error _ => false
    | .ok l =>
      match l.table.checkHierarchy with
      | .error _ => false
      | .ok h => test l h

theorem exists_hasHierarchy (program library : List CompilationUnit)
    (test : Linked → Hierarchy → Bool) (h : passesHierarchy program library test = true) :
    ∃ l h, HasHierarchy program library l h ∧ test l h = true := by
  unfold passesHierarchy at h
  split at h
  · cases h
  · rename_i s hbuild
    split at h
    · cases h
    · rename_i l hlink
      split at h
      · cases h
      · rename_i hierarchy hcheck
        exact ⟨l, hierarchy, ⟨s, hbuild, hlink, hcheck⟩, h⟩

/-- A library of the types that the rules mention, with a checked exception,
to try results on. -/
def coreUnits : List CompilationUnit :=
  [("java.lang", [
      { Library.classNamed "Object" with
        methods := [Library.method "hashCode" Library.int,
          Library.method "toString" Library.string] },
      Library.classNamed "String", Library.interfaceNamed "Cloneable",
      Library.classNamed "Throwable", (Library.classNamed "Exception").extending "Throwable",
      (Library.classNamed "RuntimeException").extending "Exception",
      (Library.classNamed "Error").extending "Throwable"]),
    ("java.io", [Library.interfaceNamed "Serializable"])].flatMap
    (fun (package, types) => types.map (Library.toUnit package))

/-- The units of types in the default package. -/
def unitsOf (types : List TypeBlueprint) : List CompilationUnit :=
  types.map (fun type => { decl := type.toDecl })

end JoosStatics
