/-
JoosStatics.Proofs.Types.NearestFirst — `supertypes` is in breadth-first order.

The list starts with the type itself, names every type above it once, and a
type never stands before one that is nearer: `supertypes_breadth_first`.

The queue may hold a type many times, also types that are found already and
lie nearer than the rest of the queue, so it is not sorted by distance. What
it keeps is two levels (`Levels`): first the entries that a chain of `n`
direct supertypes leads to, then those that a chain of `n + 1` leads to. All
types within a shorter chain are found. An entry of the first level that is
still new is therefore exactly `n` away, and no found type is farther.
-/
import JoosStatics.Proofs.Types.Supertypes
import Mathlib.Order.Lattice.Nat

namespace JoosStatics.TypeTable

/-! ## §1 Distances -/

/-- A chain of `n` direct supertypes leads from `sub` to `sup`. -/
def ExtendsIn (t : TypeTable) : (n : Nat) → (sub sup : ClassId) → Prop
  | 0, sub, sup => sup = sub
  | n + 1, sub, sup => ∃ mid, t.ExtendsIn n sub mid ∧ t.Extends mid sup

/-- The types above a type are those that a chain of some length leads to. -/
theorem exists_extendsIn_iff (t : TypeTable) {sub sup : ClassId} :
    (∃ n, t.ExtendsIn n sub sup) ↔ Relation.ReflTransGen t.Extends sub sup := by
  constructor
  · intro ⟨n, h⟩
    induction n generalizing sup with
    | zero =>
      obtain rfl := h
      exact .refl
    | succ n ih =>
      obtain ⟨mid, hmid, hedge⟩ := h
      exact (ih hmid).tail hedge
  · intro h
    induction h with
    | refl => exact ⟨0, rfl⟩
    | tail _ hedge ih =>
      obtain ⟨n, hn⟩ := ih
      exact ⟨n + 1, _, hn, hedge⟩

/-- How far `sup` is above `sub`: the length of a shortest chain of direct supertypes. -/
noncomputable def distance (t : TypeTable) (sub sup : ClassId) : Nat :=
  sInf {n | t.ExtendsIn n sub sup}

theorem distance_le {t : TypeTable} {n : Nat} {sub sup : ClassId} (h : t.ExtendsIn n sub sup) :
    t.distance sub sup ≤ n :=
  Nat.sInf_le h

/-- The distance to a type above is the length of a chain that leads there. -/
theorem extendsIn_distance {t : TypeTable} {sub sup : ClassId}
    (h : Relation.ReflTransGen t.Extends sub sup) : t.ExtendsIn (t.distance sub sup) sub sup :=
  Nat.sInf_mem (t.exists_extendsIn_iff.mpr h)

/-- Where no chain is shorter than `n`, the distance is not either. -/
theorem le_distance {t : TypeTable} {n : Nat} {sub sup : ClassId} (h : t.ExtendsIn n sub sup)
    (hshortest : ∀ m < n, ¬ t.ExtendsIn m sub sup) : n ≤ t.distance sub sup := by
  by_contra hlt
  have habove : Relation.ReflTransGen t.Extends sub sup := t.exists_extendsIn_iff.mp ⟨n, h⟩
  exact hshortest _ (by omega) (extendsIn_distance habove)

/-! ## §2 The two levels of the queue -/

/-- The queue of the walk from `start` holds the entries of `level`, then those of `next`,
and everything nearer than `level` is found. -/
structure Levels (t : TypeTable) (start : ClassId) (n : Nat) (level next found : List ClassId) :
    Prop where
  /-- The types that a shorter chain leads to are found. -/
  nearer : ∀ m < n, ∀ id, t.ExtendsIn m start id → id ∈ found
  /-- Those that a chain of `n` leads to are found or ahead in the queue. -/
  here : ∀ id, t.ExtendsIn n start id → id ∈ found ∨ id ∈ level
  level_in : ∀ id ∈ level, t.ExtendsIn n start id
  next_in : ∀ id ∈ next, t.ExtendsIn (n + 1) start id
  /-- What a found type names is found or in the queue. -/
  named : ∀ id ∈ found, ∀ sup, t.Extends id sup → sup ∈ found ∨ sup ∈ level ++ next
  within : ∀ id ∈ found, t.distance start id ≤ n
  sorted : found.Pairwise (fun a b => t.distance start a ≤ t.distance start b)

namespace Levels

variable {t : TypeTable} {start id : ClassId} {n : Nat} {level next found : List ClassId}

theorem init (t : TypeTable) (start : ClassId) : t.Levels start 0 [start] [] [] where
  nearer := by
    intro m hm
    omega
  here := by
    intro id h
    exact Or.inr (List.mem_singleton.mpr h)
  level_in := by
    intro id h
    exact List.mem_singleton.mp h
  next_in := by simp
  named := by simp
  within := by simp
  sorted := .nil

/-- When a level is done, the next one comes to the front. -/
theorem advance (h : t.Levels start n [] next found) : t.Levels start (n + 1) next [] found where
  nearer := by
    intro m hm id hid
    by_cases hlt : m < n
    · exact h.nearer m hlt id hid
    · obtain rfl : m = n := by omega
      simpa using h.here id hid
  here := by
    intro id ⟨mid, hmid, hedge⟩
    have hfound : mid ∈ found := by simpa using h.here mid hmid
    simpa using h.named mid hfound id hedge
  level_in := h.next_in
  next_in := by simp
  named := by simpa using h.named
  within := by
    intro id hid
    have hle := h.within id hid
    omega
  sorted := h.sorted

/-- An entry that is found already makes no difference. -/
theorem skip (h : t.Levels start n (id :: level) next found) (hfound : id ∈ found) :
    t.Levels start n level next found where
  nearer := h.nearer
  here := by
    intro x hx
    rcases h.here x hx with hx | hx
    · exact Or.inl hx
    · rcases List.mem_cons.mp hx with rfl | hx
      · exact Or.inl hfound
      · exact Or.inr hx
  level_in := fun x hx => h.level_in x (List.mem_cons_of_mem _ hx)
  next_in := h.next_in
  named := by
    intro x hx sup hsup
    rcases h.named x hx sup hsup with hsup | hsup
    · exact Or.inl hsup
    · rcases List.mem_cons.mp hsup with rfl | hsup
      · exact Or.inl hfound
      · exact Or.inr hsup
  within := h.within
  sorted := h.sorted

/-- A new entry of the front level is as far as the level says, since everything nearer is
found. What it names goes to the next level. -/
theorem visit (h : t.Levels start n (id :: level) next found) (hnew : id ∉ found) :
    t.Levels start n level (next ++ (t.classAt id).directSupertypes) (found ++ [id]) where
  nearer := fun m hm x hx => List.mem_append_left _ (h.nearer m hm x hx)
  here := by
    intro x hx
    rcases h.here x hx with hx | hx
    · exact Or.inl (List.mem_append_left _ hx)
    · rcases List.mem_cons.mp hx with rfl | hx
      · exact Or.inl (by simp)
      · exact Or.inr hx
  level_in := fun x hx => h.level_in x (List.mem_cons_of_mem _ hx)
  next_in := by
    intro x hx
    rcases List.mem_append.mp hx with hx | hx
    · exact h.next_in x hx
    · exact ⟨id, h.level_in id List.mem_cons_self, hx⟩
  named := by
    intro x hx sup hsup
    rcases List.mem_append.mp hx with hx | hx
    · have hnamed := h.named x hx sup hsup
      simp only [List.cons_append, List.mem_cons, List.mem_append] at hnamed ⊢
      tauto
    · obtain rfl := List.mem_singleton.mp hx
      exact Or.inr (List.mem_append_right _ (List.mem_append_right _ hsup))
  within := by
    intro x hx
    rcases List.mem_append.mp hx with hx | hx
    · exact h.within x hx
    · obtain rfl := List.mem_singleton.mp hx
      exact distance_le (h.level_in x List.mem_cons_self)
  sorted := by
    have hfar : n ≤ t.distance start id := by
      refine le_distance (h.level_in id List.mem_cons_self) (fun m hm hchain => ?_)
      exact hnew (h.nearer m hm id hchain)
    refine List.pairwise_append.mpr ⟨h.sorted, List.pairwise_singleton _ _, ?_⟩
    intro a ha b hb
    obtain rfl := List.mem_singleton.mp hb
    exact (h.within a ha).trans hfar

/-- The first entry of the queue is in the front level, of this length of chains or the next. -/
theorem exists_front {queue : List ClassId} (h : t.Levels start n level next found)
    (hqueue : id :: queue = level ++ next) :
    ∃ n level next, t.Levels start n (id :: level) next found ∧ queue = level ++ next := by
  cases level with
  | nil =>
    obtain rfl : id :: queue = next := hqueue
    exact ⟨n + 1, queue, [], h.advance, by simp⟩
  | cons first level =>
    obtain ⟨rfl, rfl⟩ := List.cons.inj hqueue
    exact ⟨n, level, next, h, rfl⟩

end Levels

/-! ## §3 The order of the walk -/

namespace Walks

variable {t : TypeTable} {queue found result : List ClassId}

theorem nodup (h : t.Walks queue found result) (hfound : found.Nodup) : result.Nodup := by
  induction h with
  | done found => exact hfound
  | skip _ _ ih => exact ih hfound
  | visit hnew _ ih => exact ih (List.nodup_append_comm.mp (List.nodup_cons.mpr ⟨hnew, hfound⟩))

/-- Every turn keeps the two levels, so what is found is sorted by distance. -/
theorem sorted (h : t.Walks queue found result) {start : ClassId} {n : Nat}
    {level next : List ClassId} (hlevels : t.Levels start n level next found)
    (hqueue : queue = level ++ next) :
    result.Pairwise (fun a b => t.distance start a ≤ t.distance start b) := by
  induction h generalizing n level next with
  | done found => exact hlevels.sorted
  | skip hfound _ ih =>
    obtain ⟨n, level, next, hfront, rfl⟩ := hlevels.exists_front hqueue
    exact ih (hfront.skip hfound) rfl
  | visit hnew _ ih =>
    obtain ⟨n, level, next, hfront, rfl⟩ := hlevels.exists_front hqueue
    exact ih (hfront.visit hnew) (List.append_assoc _ _ _)

end Walks

/-- The walk over supertypes ends on every table. It starts with the type itself, lists
exactly the types that its edges lead to, each once, and nearer ones first. -/
theorem supertypes_breadth_first (t : TypeTable) (id : ClassId) :
    t.Walks [id] [] (t.supertypes id) ∧
    (t.supertypes id).head? = some id ∧
    (t.supertypes id).Nodup ∧
    (∀ sup, sup ∈ t.supertypes id ↔ Relation.ReflTransGen t.Extends id sup) ∧
    (t.supertypes id).Pairwise (fun a b => t.distance id a ≤ t.distance id b) := by
  have hwalk := t.supertypes_walks id
  have hhead : (t.supertypes id).head? = some id := by
    cases hwalk with
    | skip hfound _ => cases hfound
    | visit _ h =>
      obtain ⟨rest, hrest⟩ := h.found_prefix
      rw [← hrest]
      rfl
  exact ⟨hwalk, hhead, hwalk.nodup .nil, fun _ => t.mem_supertypes_iff,
    hwalk.sorted (.init t id) rfl⟩

end JoosStatics.TypeTable
