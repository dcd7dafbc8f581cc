/-
JoosStatics.Proofs.Hierarchy.Cycles — cyclic hierarchies are found, all
others are put in order.

The edges of the table may be any: types can be named repeatedly, along
several ways, and by themselves. The walk over them fails exactly when some
type is above itself, and the failure names such a type. Otherwise the members
of the types can be computed in the order that it returns: those of the direct
supertypes are there when a type comes (`FindsSupers`).

* `dependencyOrder_decides_cycles` — cycle detection and order together.
-/
import JoosStatics.Proofs.Hierarchy.Accepted

namespace JoosStatics

namespace TypeTable

variable {t : TypeTable}

/-! ## §1 Members in order -/

/-- The members of a list of types are computed front to back. -/
theorem computeMembers_append (t : TypeTable) (before after : List ClassId)
    (sets : OrderedMap ClassId MemberSet) :
    t.computeMembers (before ++ after) sets =
      t.computeMembers before sets >>= t.computeMembers after := by
  induction before generalizing sets with
  | nil => rfl
  | cons id before ih =>
    show (t.memberSet id _ >>= fun set => t.computeMembers (before ++ after) _) =
      (t.memberSet id _ >>= fun set => t.computeMembers before _) >>= t.computeMembers after
    rw [bind_assoc]
    simp only [ih]

/-- What has been computed is known, and stays known. -/
theorem isSome_of_computeMembers {ids : List ClassId} {sets sets' : OrderedMap ClassId MemberSet}
    (h : t.computeMembers ids sets = .ok sets') {id : ClassId}
    (hid : id ∈ ids ∨ (sets.find? id).isSome = true) : (sets'.find? id).isSome = true := by
  induction ids generalizing sets with
  | nil =>
    cases h
    exact hid.resolve_left List.not_mem_nil
  | cons first rest ih =>
    obtain ⟨set, -, hrest⟩ := bind_eq_ok.mp h
    refine ih hrest ?_
    rw [OrderedMap.find?_insert]
    split
    · exact .inr rfl
    · rename_i hne
      exact hid.imp_left (fun hmem => (List.mem_cons.mp hmem).resolve_left (Ne.symm hne))

/-- Wherever the computation of members has come to, it goes on from sets in which the members
of all direct supertypes of the next type are found. -/
def FindsSupers (t : TypeTable) (order : List ClassId) : Prop :=
  ∀ before id after sets, order = before ++ id :: after → t.computeMembers before ∅ = .ok sets →
    t.computeMembers order ∅ = t.computeMembers (id :: after) sets ∧
    ∀ sup, t.Extends id sup → (sets.find? sup).isSome = true

theorem SupersFirst.findsSupers {order : List ClassId} (h : t.SupersFirst order) :
    t.FindsSupers order := by
  rintro before id after sets rfl hsets
  refine ⟨?_, fun sup hsup => ?_⟩
  · rw [computeMembers_append, hsets]
    rfl
  · exact isSome_of_computeMembers hsets (.inl (h before id after rfl sup hsup))

/-! ## §2 Cycles and order -/

/-- The walk fails exactly when a type is above itself, and then names such a type. Otherwise it
lists every type once, behind its direct supertypes, so that the members of these are found. A
type that the walk comes to enter is never open. -/
theorem dependencyOrder_decides_cycles (t : TypeTable)
    (hsups : ∀ {sub sup}, t.Extends sub sup → sup < t.size) :
    ((∃ v, t.dependencyOrder = .error v) ↔ ∃ id, Relation.TransGen t.Extends id id) ∧
    (∀ v, t.dependencyOrder = .error v → ∃ type id, v = t.cycleAt type id ∧
      t.Extends id type ∧ Relation.TransGen t.Extends type type) ∧
    (∀ order, t.dependencyOrder = .ok order →
      order.Nodup ∧ (∀ id, id ∈ order ↔ id < t.size) ∧ t.SupersFirst order ∧
        t.FindsSupers order) ∧
    ∀ id tasks left, t.Reached (.enter id :: tasks) left → .leave id ∉ tasks := by
  refine ⟨⟨?_, ?_⟩, fun v => dependencyOrder_eq_error, fun order horder => ?_,
    fun id tasks left hreached => hreached.notMem_of_enter⟩
  · rintro ⟨v, herror⟩
    obtain ⟨type, -, -, -, hcycle⟩ := dependencyOrder_eq_error herror
    exact ⟨type, hcycle⟩
  · rintro ⟨id, hcycle⟩
    cases horder : t.dependencyOrder with
    | error v => exact ⟨v, rfl⟩
    | ok order =>
      obtain ⟨-, hmem, hfirst⟩ := dependencyOrder_spec hsups horder
      exact absurd hcycle (hfirst.acyclic hmem id)
  · obtain ⟨hnodup, hmem, hfirst⟩ := dependencyOrder_spec hsups horder
    exact ⟨hnodup, hmem, hfirst, hfirst.findsSupers⟩

/-- The supertypes of all types are types of the table when those of the types in it are. -/
theorem lt_size_of_all
    (h : t.ids.all (fun id => (t.classAt id).directSupertypes.all (· < t.size)) = true)
    {sub sup : ClassId} (hedge : t.Extends sub sup) : sup < t.size := by
  have hsub := List.all_eq_true.mp h sub (List.mem_range.mpr hedge.lt_size)
  exact of_decide_eq_true (List.all_eq_true.mp hsub sup hedge)

/-- Interfaces `A` and `B` with the superinterfaces `B`, `C`, `B` and `C`, and interfaces `D` and
`E` that extend each other and `A`. -/
def knottedTable : TypeTable :=
  let interface (name : Name) (interfaces : List ClassId) : ClassDef :=
    { name := .single name, kind := .interfaceType, interfaces }
  { classes := #[interface "A" [1, 2, 1], interface "B" [2], interface "C" [],
      interface "D" [0, 4], interface "E" [0, 3]]
    wellKnown := default }

/-- The walk enters `D` after `A`, `B` and `C`, and fails. -/
theorem knottedTable_circular :
    (∀ {sub sup}, knottedTable.Extends sub sup → sup < knottedTable.size) ∧
    (∃ id, Relation.TransGen knottedTable.Extends id id) ∧
    ∃ v, knottedTable.dependencyOrder = .error v := by
  have hsups : ∀ {sub sup}, knottedTable.Extends sub sup → sup < knottedTable.size :=
    lt_size_of_all (by decide)
  have hcycle : ∃ id, Relation.TransGen knottedTable.Extends id id :=
    ⟨3, .tail (.single (show 4 ∈ _ by decide)) (show 3 ∈ _ by decide)⟩
  exact ⟨hsups, hcycle, (dependencyOrder_decides_cycles knottedTable hsups).1.mpr hcycle⟩

end TypeTable

end JoosStatics
