/-
JoosStatics.Proofs.Types.Supertypes — the walk over supertypes finds exactly
the types above a type.

* `TypeTable.Extends` — one type names another as a direct supertype.
* `TypeTable.Walks` — the walk, turn by turn; `supertypes_walks` says that it
  ends, and what it finds is shown by induction on its turns.
* `mem_supertypes_iff` — `supertypes` lists the reflexive-transitive
  closure of `Extends`.
* `isSubclass_iff` — subtyping is that closure with `java.lang.Object` put
  above everything.

No table is excluded: cyclic declarations and repeated edges are allowed.
Every type is expanded at most once, so the edges of the types that are
still to be expanded (`openEdges`) bound the steps that are left.
-/
import JoosStatics.Types.Relations
import Mathlib.Algebra.BigOperators.Group.Finset.Basic
import Mathlib.Logic.Relation

namespace JoosStatics.TypeTable

/-! ## §1 Positions of the table -/

/-- Types outside the table have the default signature. -/
theorem classAt_of_size_le (t : TypeTable) {id : ClassId} (h : t.size ≤ id) :
    t.classAt id = default := by
  unfold classAt
  rw [Array.getD_eq_getD_getElem?, Array.getElem?_eq_none h]
  rfl

/-- `sub` names `sup` as its superclass or as one of its superinterfaces. -/
def Extends (t : TypeTable) (sub sup : ClassId) : Prop :=
  sup ∈ (t.classAt sub).directSupertypes

/-- Only types of the table name supertypes. -/
theorem Extends.lt_size {t : TypeTable} {sub sup : ClassId} (h : t.Extends sub sup) :
    sub < t.size := by
  by_contra hge
  unfold Extends at h
  rw [t.classAt_of_size_le (Nat.le_of_not_lt hge)] at h
  cases h

/-- The signatures of the table in order of their positions. -/
theorem toList_classes (t : TypeTable) : t.classes.toList = t.ids.map t.classAt := by
  apply List.ext_getElem
  · simp [ids, size]
  · intro i h₁ h₂
    simp only [Array.length_toList] at h₁
    simp [ids, classAt, h₁]

/-! ## §2 The walk ends -/

/-- The edges of the types that have not been expanded yet. -/
def openEdges (t : TypeTable) (found : List ClassId) : Nat :=
  ∑ id ∈ Finset.range t.size \ found.toFinset, (t.classAt id).directSupertypes.length

theorem openEdges_nil (t : TypeTable) : t.openEdges [] = t.edgeCount := by
  unfold openEdges edgeCount
  rw [toList_classes, List.length_flatMap, List.map_map, List.toFinset_nil, Finset.sdiff_empty]
  rfl

/-- Expanding a type closes its edges. -/
theorem openEdges_append (t : TypeTable) {found : List ClassId} {id : ClassId}
    (h : id ∉ found) :
    t.openEdges (found ++ [id]) + (t.classAt id).directSupertypes.length = t.openEdges found := by
  unfold openEdges
  have hset : Finset.range t.size \ (found ++ [id]).toFinset =
      (Finset.range t.size \ found.toFinset).erase id := by
    ext x
    simp only [Finset.mem_sdiff, Finset.mem_range, List.mem_toFinset, List.mem_append,
      List.mem_singleton, Finset.mem_erase]
    tauto
  rw [hset]
  by_cases hid : id < t.size
  · apply Finset.sum_erase_add
    simp [hid, h]
  · rw [Finset.erase_eq_of_notMem (by simp [hid]),
      t.classAt_of_size_le (Nat.le_of_not_lt hid)]
    rfl

theorem expand_of_mem (t : TypeTable) {fuel : Nat} {id : ClassId} {queue found : List ClassId}
    (h : id ∈ found) : t.expand (fuel + 1) (id :: queue) found = t.expand fuel queue found := by
  simp [expand, h]

theorem expand_of_notMem (t : TypeTable) {fuel : Nat} {id : ClassId} {queue found : List ClassId}
    (h : id ∉ found) : t.expand (fuel + 1) (id :: queue) found =
      t.expand fuel (queue ++ (t.classAt id).directSupertypes) (found ++ [id]) := by
  simp [expand, h]

/-- The walk, turn by turn: with `queue` before it and `found` behind it, it ends and has
found `result`. -/
inductive Walks (t : TypeTable) : (queue found result : List ClassId) → Prop where
  | done (found : List ClassId) : Walks t [] found found
  | skip {id : ClassId} {queue found result : List ClassId} (hfound : id ∈ found)
      (h : Walks t queue found result) : Walks t (id :: queue) found result
  | visit {id : ClassId} {queue found result : List ClassId} (hnew : id ∉ found)
      (h : Walks t (queue ++ (t.classAt id).directSupertypes) (found ++ [id]) result) :
      Walks t (id :: queue) found result

/-- A turn takes an entry off the queue, and what it puts on the queue are edges that it
closes: fuel for both lasts to the end of the walk. -/
theorem expand_walks (t : TypeTable) (fuel : Nat) (queue found : List ClassId)
    (hfuel : queue.length + t.openEdges found ≤ fuel) :
    t.Walks queue found (t.expand fuel queue found) := by
  induction fuel generalizing queue found with
  | zero =>
    obtain rfl : queue = [] := List.length_eq_zero_iff.mp (by omega)
    exact .done found
  | succ fuel ih =>
    cases queue with
    | nil => exact .done found
    | cons id queue =>
      simp only [List.length_cons] at hfuel
      by_cases hid : id ∈ found
      · rw [t.expand_of_mem hid]
        exact .skip hid (ih queue found (by omega))
      · have hopen := t.openEdges_append hid
        rw [t.expand_of_notMem hid]
        refine .visit hid (ih _ _ ?_)
        simp only [List.length_append]
        omega

/-- The walk from a type ends, whatever the table. -/
theorem supertypes_walks (t : TypeTable) (id : ClassId) : t.Walks [id] [] (t.supertypes id) := by
  apply expand_walks
  rw [openEdges_nil, List.length_singleton]
  omega

/-! ## §3 What the walk finds -/

namespace Walks

variable {t : TypeTable} {queue found result : List ClassId}

/-- What is found stays where it is. -/
theorem found_prefix (h : t.Walks queue found result) : found <+: result := by
  induction h with
  | done found => exact List.prefix_refl found
  | skip _ _ ih => exact ih
  | visit _ _ ih => exact (List.prefix_append _ _).trans ih

/-- Everything in the queue is found. -/
theorem queue_subset (h : t.Walks queue found result) : queue ⊆ result := by
  induction h with
  | done found => simp
  | skip hfound h ih => exact List.cons_subset.mpr ⟨h.found_prefix.subset hfound, ih⟩
  | visit _ h ih =>
    have hself := h.found_prefix.subset (List.mem_append_right _ List.mem_cons_self)
    exact List.cons_subset.mpr ⟨hself, fun id hid => ih (List.mem_append_left _ hid)⟩

/-- A type is found with everything that it names, if those found before are. -/
theorem closed (h : t.Walks queue found result)
    (hfound : ∀ id ∈ found, ∀ sup, t.Extends id sup → sup ∈ result) :
    ∀ id ∈ result, ∀ sup, t.Extends id sup → sup ∈ result := by
  induction h with
  | done found => exact hfound
  | skip _ _ ih => exact ih hfound
  | visit _ h ih =>
    refine ih (fun id hid sup hsup => ?_)
    rcases List.mem_append.mp hid with hid | hid
    · exact hfound id hid sup hsup
    · obtain rfl := List.mem_singleton.mp hid
      exact h.queue_subset (List.mem_append_right _ hsup)

/-- The walk finds only types above those it was given. -/
theorem sound (h : t.Walks queue found result) {id : ClassId} (hid : id ∈ result) :
    id ∈ found ∨ ∃ start ∈ queue, Relation.ReflTransGen t.Extends start id := by
  induction h with
  | done found => exact Or.inl hid
  | skip _ _ ih =>
    rcases ih hid with hid | ⟨start, hstart, hpath⟩
    · exact Or.inl hid
    · exact Or.inr ⟨start, List.mem_cons_of_mem _ hstart, hpath⟩
  | @visit first queue found result _ _ ih =>
    rcases ih hid with hid | ⟨start, hstart, hpath⟩
    · rcases List.mem_append.mp hid with hid | hid
      · exact Or.inl hid
      · obtain rfl := List.mem_singleton.mp hid
        exact Or.inr ⟨id, List.mem_cons_self, .refl⟩
    · rcases List.mem_append.mp hstart with hstart | hstart
      · exact Or.inr ⟨start, List.mem_cons_of_mem _ hstart, hpath⟩
      · exact Or.inr ⟨first, List.mem_cons_self, .head hstart hpath⟩

end Walks

/-! ## §4 Supertypes and subtyping -/

/-- The supertypes of a type are the types that a chain of direct supertypes
leads to, the type itself included. -/
theorem mem_supertypes_iff (t : TypeTable) {sub sup : ClassId} :
    sup ∈ t.supertypes sub ↔ Relation.ReflTransGen t.Extends sub sup := by
  have hwalk := t.supertypes_walks sub
  constructor
  · intro h
    rcases hwalk.sound h with h | ⟨start, hstart, hpath⟩
    · cases h
    · obtain rfl := List.mem_singleton.mp hstart
      exact hpath
  · intro h
    induction h with
    | refl => exact hwalk.queue_subset List.mem_cons_self
    | tail _ hedge ih => exact hwalk.closed (by simp) _ ih _ hedge

theorem mem_supertypes_self (t : TypeTable) (id : ClassId) : id ∈ t.supertypes id :=
  t.mem_supertypes_iff.mpr .refl

theorem mem_supertypes_trans (t : TypeTable) {a b c : ClassId} (hab : b ∈ t.supertypes a)
    (hbc : c ∈ t.supertypes b) : c ∈ t.supertypes a :=
  t.mem_supertypes_iff.mpr ((t.mem_supertypes_iff.mp hab).trans (t.mem_supertypes_iff.mp hbc))

/-- A type is below its supertypes and below `java.lang.Object`. -/
theorem isSubclass_iff (t : TypeTable) {sub sup : ClassId} :
    t.isSubclass sub sup = true ↔ sup = t.wellKnown.object ∨ sup ∈ t.supertypes sub := by
  unfold isSubclass
  simp only [Bool.or_eq_true, beq_iff_eq, List.contains_iff_mem]
  constructor
  · rintro ((rfl | h) | h)
    · exact Or.inr (t.mem_supertypes_self sub)
    · exact Or.inl h
    · exact Or.inr h
  · rintro (h | h)
    · exact Or.inl (Or.inr h)
    · exact Or.inr h

theorem isSubclass_self (t : TypeTable) (id : ClassId) : t.isSubclass id id = true :=
  t.isSubclass_iff.mpr (Or.inr (t.mem_supertypes_self id))

/-- Subtyping is transitive from every type that has `java.lang.Object` among
its declared supertypes, whatever stands above `java.lang.Object` itself. -/
theorem isSubclass_trans (t : TypeTable) {a b c : ClassId}
    (hobject : t.wellKnown.object ∈ t.supertypes a) (hab : t.isSubclass a b = true)
    (hbc : t.isSubclass b c = true) : t.isSubclass a c = true := by
  have hb : b ∈ t.supertypes a := by
    rcases t.isSubclass_iff.mp hab with rfl | hb
    · exact hobject
    · exact hb
  rcases t.isSubclass_iff.mp hbc with hc | hc
  · exact t.isSubclass_iff.mpr (Or.inl hc)
  · exact t.isSubclass_iff.mpr (Or.inr (t.mem_supertypes_trans hb hc))

end JoosStatics.TypeTable
