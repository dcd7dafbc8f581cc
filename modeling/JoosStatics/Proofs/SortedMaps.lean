/-
JoosStatics.Proofs.SortedMaps — the laws of ordered maps.

§1 states what every operation does to a lookup. §2 is about maps whose
keys are in strictly increasing order: every map that the analyzer builds
is one (`sorted_empty`, `sorted_insert`, `sorted_erase`), and in such a map
an entry of the list is the same thing as a successful lookup
(`mem_entries_iff`). Lookups alone need no order, only that keys which
stand at the same place are equal.
-/
import JoosStatics.OrderedMap

namespace JoosStatics.OrderedMap

variable {κ ν : Type}

/-! ## §1 Lookups -/

section Lookups

variable [DecidableEq κ]

@[simp] theorem find?_empty (key : κ) : (∅ : OrderedMap κ ν).find? key = none := rfl

theorem findIn_filter_of_ne {key other : κ} (hne : other ≠ key) (entries : List (κ × ν)) :
    findIn other (entries.filter (fun entry => entry.1 ≠ key)) = findIn other entries := by
  induction entries with
  | nil => rfl
  | cons entry rest ih =>
    obtain ⟨k, v⟩ := entry
    by_cases hk : k = key
    · have hko : k ≠ other := fun h => hne (h.symm.trans hk)
      simpa [findIn, hk, Ne.symm hne] using ih
    · by_cases ho : k = other
      · simp [findIn, ho, hne]
      · simpa [findIn, hk, ho] using ih

theorem findIn_eq_none_of_notMem {key : κ} {entries : List (κ × ν)}
    (h : key ∉ entries.map Prod.fst) : findIn key entries = none := by
  induction entries with
  | nil => rfl
  | cons entry rest ih =>
    obtain ⟨k, v⟩ := entry
    simp only [List.map_cons, List.mem_cons, not_or] at h
    simp [findIn, Ne.symm h.1, ih h.2]

theorem mem_of_findIn {key : κ} {value : ν} {entries : List (κ × ν)}
    (h : findIn key entries = some value) : (key, value) ∈ entries := by
  induction entries with
  | nil => simp [findIn] at h
  | cons entry rest ih =>
    obtain ⟨k, v⟩ := entry
    by_cases hk : k = key
    · subst hk
      simp only [findIn, if_true, Option.some.injEq] at h
      simp [h]
    · simp only [findIn, hk, if_false] at h
      exact List.mem_cons_of_mem _ (ih h)

theorem isSome_findIn {key : κ} {entries : List (κ × ν)} :
    (findIn key entries).isSome = true ↔ key ∈ entries.map Prod.fst := by
  induction entries with
  | nil => simp [findIn]
  | cons entry rest ih =>
    obtain ⟨k, v⟩ := entry
    by_cases hk : k = key
    · simp [findIn, hk]
    · simp only [findIn, hk, if_false, ih, List.map_cons, List.mem_cons, Ne.symm hk, false_or]

theorem findIn_append {key : κ} {entries rest : List (κ × ν)} :
    findIn key (entries ++ rest) = (findIn key entries).or (findIn key rest) := by
  induction entries with
  | nil => rfl
  | cons entry entries ih =>
    obtain ⟨k, v⟩ := entry
    by_cases hk : k = key
    · simp [findIn, hk]
    · simpa [findIn, hk] using ih

/-- When keys differ, every entry is found under its key. -/
theorem findIn_eq_some_iff {key : κ} {value : ν} {entries : List (κ × ν)}
    (h : (entries.map Prod.fst).Nodup) :
    findIn key entries = some value ↔ (key, value) ∈ entries := by
  refine ⟨mem_of_findIn, fun hmem => ?_⟩
  obtain ⟨before, after, rfl⟩ := List.append_of_mem hmem
  rw [List.map_append, List.map_cons] at h
  have hbefore : key ∉ before.map Prod.fst := fun hkey =>
    (List.nodup_append.mp h).2.2 key hkey key (List.mem_cons_self ..) rfl
  rw [findIn_append, findIn_eq_none_of_notMem hbefore]
  simp [findIn]

theorem mem_keys_iff {m : OrderedMap κ ν} {key : κ} : key ∈ m.keys ↔ (m.find? key).isSome = true :=
  isSome_findIn.symm

/-- A value that is read is the value of an entry. -/
theorem mem_entries_of_find? {m : OrderedMap κ ν} {key : κ} {value : ν}
    (h : m.find? key = some value) : (key, value) ∈ m.entries :=
  mem_of_findIn h

/-- A removed key has no value. -/
@[simp] theorem find?_erase_self (m : OrderedMap κ ν) (key : κ) :
    (m.erase key).find? key = none := by
  apply findIn_eq_none_of_notMem
  simp [erase]

/-- Removing one key leaves every other key as it was. -/
theorem find?_erase_of_ne (m : OrderedMap κ ν) {key other : κ} (hne : other ≠ key) :
    (m.erase key).find? other = m.find? other :=
  findIn_filter_of_ne hne m.entries

theorem mem_keys_erase {m : OrderedMap κ ν} {key other : κ} :
    other ∈ (m.erase key).keys ↔ other ≠ key ∧ other ∈ m.keys := by
  rw [mem_keys_iff, mem_keys_iff]
  by_cases h : other = key
  · simp [h]
  · simp [find?_erase_of_ne m h, h]

variable [Ord κ] [Std.LawfulEqOrd κ]

/-- What is read after a write. -/
theorem find?_insert (m : OrderedMap κ ν) (key other : κ) (value : ν) :
    (m.insert key value).find? other = if key = other then some value else m.find? other := by
  by_cases h : key = other
  · subst h
    simp [find?_insert_self]
  · simp [find?_insert_of_ne m h, h]

/-- `insertNew` keeps a value that is there. -/
theorem find?_insertNew (m : OrderedMap κ ν) (key other : κ) (value : ν) :
    (m.insertNew key value).find? other =
      if key = other then some ((m.find? key).getD value) else m.find? other := by
  unfold insertNew contains
  by_cases h : key = other
  · subst h
    cases hf : m.find? key with
    | none => simp [find?_insert]
    | some v => simp [hf]
  · rw [if_neg h]
    split
    · rfl
    · rw [find?_insert, if_neg h]

theorem mem_keys_insert {m : OrderedMap κ ν} {key other : κ} {value : ν} :
    other ∈ (m.insert key value).keys ↔ other = key ∨ other ∈ m.keys := by
  rw [mem_keys_iff, mem_keys_iff, find?_insert]
  by_cases h : key = other
  · simp [h]
  · simp [h, Ne.symm h]

/-- A set holds what is added to it, and what it held before. -/
theorem mem_keys_foldl_add {keys : List κ} {set : OrderedSet κ} {key : κ} :
    key ∈ (keys.foldl OrderedSet.add set).keys ↔ key ∈ keys ∨ key ∈ set.keys := by
  induction keys generalizing set with
  | nil => simp
  | cons first keys ih =>
    rw [List.foldl_cons, ih, OrderedSet.add, mem_keys_insert, List.mem_cons, or_left_comm, or_assoc]

end Lookups

/-! ## §2 Keys in order -/

section Sorted

variable [Ord κ]

/-- The keys are in strictly increasing order. -/
def Sorted (m : OrderedMap κ ν) : Prop :=
  m.entries.Pairwise (fun a b => compare a.1 b.1 = .lt)

theorem sorted_empty : (∅ : OrderedMap κ ν).Sorted := List.Pairwise.nil

theorem mem_insertIn {key : κ} {value : ν} {entry : κ × ν} {entries : List (κ × ν)}
    (h : entry ∈ insertIn key value entries) : entry = (key, value) ∨ entry ∈ entries := by
  induction entries with
  | nil => simpa [insertIn] using h
  | cons head rest ih =>
    obtain ⟨k, v⟩ := head
    cases hc : compare key k with
    | lt => simpa [insertIn, hc] using h
    | eq =>
      simp only [insertIn, hc, List.mem_cons] at h
      rcases h with h | h
      · exact Or.inl h
      · exact Or.inr (List.mem_cons_of_mem _ h)
    | gt =>
      simp only [insertIn, hc, List.mem_cons] at h
      rcases h with h | h
      · exact Or.inr (h ▸ List.mem_cons_self ..)
      · rcases ih h with h | h
        · exact Or.inl h
        · exact Or.inr (List.mem_cons_of_mem _ h)

variable [Std.TransOrd κ]

theorem pairwise_insertIn (key : κ) (value : ν) {entries : List (κ × ν)}
    (h : entries.Pairwise (fun a b => compare a.1 b.1 = .lt)) :
    (insertIn key value entries).Pairwise (fun a b => compare a.1 b.1 = .lt) := by
  induction entries with
  | nil => simp [insertIn]
  | cons head rest ih =>
    obtain ⟨k, v⟩ := head
    obtain ⟨hhead, hrest⟩ := List.pairwise_cons.mp h
    cases hc : compare key k with
    | lt =>
      simp only [insertIn, hc]
      refine List.pairwise_cons.mpr ⟨fun entry he => ?_, h⟩
      rcases List.mem_cons.mp he with rfl | he
      · exact hc
      · exact Std.TransCmp.lt_trans hc (hhead entry he)
    | eq =>
      simp only [insertIn, hc]
      exact List.pairwise_cons.mpr
        ⟨fun entry he => Std.TransCmp.lt_of_eq_of_lt hc (hhead entry he), hrest⟩
    | gt =>
      simp only [insertIn, hc]
      refine List.pairwise_cons.mpr ⟨fun entry he => ?_, ih hrest⟩
      rcases mem_insertIn he with rfl | he
      · exact Std.OrientedCmp.lt_of_gt hc
      · exact hhead entry he

/-- Writing keeps the keys in order. -/
theorem sorted_insert {m : OrderedMap κ ν} (h : m.Sorted) (key : κ) (value : ν) :
    (m.insert key value).Sorted :=
  pairwise_insertIn key value h

theorem sorted_insertNew [DecidableEq κ] {m : OrderedMap κ ν} (h : m.Sorted) (key : κ)
    (value : ν) : (m.insertNew key value).Sorted := by
  unfold insertNew
  split
  · exact h
  · exact sorted_insert h key value

/-- Adding keys to a set keeps them in order. -/
theorem sorted_foldl_add (keys : List κ) {set : OrderedSet κ} (h : set.Sorted) :
    (keys.foldl OrderedSet.add set).Sorted := by
  induction keys generalizing set with
  | nil => exact h
  | cons key keys ih => exact ih (sorted_insert h key ())

omit [Std.TransOrd κ] in
/-- Removing keeps the keys in order. -/
theorem sorted_erase [DecidableEq κ] {m : OrderedMap κ ν} (h : m.Sorted) (key : κ) :
    (m.erase key).Sorted :=
  List.Pairwise.sublist List.filter_sublist h

/-- In a sorted map every entry is found under its key. -/
theorem find?_of_mem_entries [DecidableEq κ] {m : OrderedMap κ ν} (h : m.Sorted) {key : κ}
    {value : ν} (hm : (key, value) ∈ m.entries) : m.find? key = some value := by
  obtain ⟨entries⟩ := m
  simp only [Sorted, find?] at h hm ⊢
  induction entries with
  | nil => simp at hm
  | cons head rest ih =>
    obtain ⟨k, v⟩ := head
    obtain ⟨hhead, hrest⟩ := List.pairwise_cons.mp h
    rcases List.mem_cons.mp hm with heq | hm
    · obtain ⟨rfl, rfl⟩ := Prod.mk.injEq .. ▸ heq
      simp [findIn]
    · have hne : k ≠ key := by
        rintro rfl
        have := hhead _ hm
        simp [Std.ReflCmp.compare_self] at this
      simp [findIn, hne, ih hrest hm]

/-- The entries of a sorted map are its successful lookups. -/
theorem mem_entries_iff [DecidableEq κ] {m : OrderedMap κ ν} (h : m.Sorted) {key : κ}
    {value : ν} : (key, value) ∈ m.entries ↔ m.find? key = some value :=
  ⟨find?_of_mem_entries h, mem_entries_of_find?⟩

/-- No key of a sorted map is listed twice. -/
theorem nodup_keys {m : OrderedMap κ ν} (h : m.Sorted) : m.keys.Nodup := by
  refine List.pairwise_map.mpr (List.Pairwise.imp ?_ h)
  intro a b hlt heq
  rw [heq] at hlt
  simp [Std.ReflCmp.compare_self] at hlt

theorem nodup_entries {m : OrderedMap κ ν} (h : m.Sorted) : m.entries.Nodup :=
  List.Pairwise.imp (fun hne heq => hne (congrArg Prod.fst heq))
    (List.pairwise_map.mp (nodup_keys h))

theorem compare_asymm {a b : κ} (hlt : compare a b = .lt) : compare b a ≠ .lt := by
  intro hgt
  have hself : compare a a = .lt := Std.TransCmp.lt_trans hlt hgt
  simp [Std.ReflCmp.compare_self] at hself

/-- Sorted maps with the same successful lookups are the same. -/
theorem eq_of_find? [DecidableEq κ] {m m' : OrderedMap κ ν} (h : m.Sorted) (h' : m'.Sorted)
    (hfind : ∀ key, m.find? key = m'.find? key) : m = m' := by
  have hperm : m.entries.Perm m'.entries :=
    (List.perm_ext_iff_of_nodup (nodup_entries h) (nodup_entries h')).mpr
      (fun (key, value) => by rw [mem_entries_iff h, mem_entries_iff h', hfind])
  have hentries := hperm.eq_of_pairwise
    (fun _ _ _ _ hlt hgt => absurd hgt (compare_asymm hlt)) h h'
  cases m
  cases m'
  exact congrArg _ hentries

/-- Sorted sets with the same keys are the same. -/
theorem eq_of_mem_keys [DecidableEq κ] {set set' : OrderedSet κ} (h : set.Sorted)
    (h' : set'.Sorted) (hkeys : ∀ key, key ∈ set.keys ↔ key ∈ set'.keys) : set = set' := by
  refine eq_of_find? h h' (fun key => ?_)
  have hkey := hkeys key
  rw [mem_keys_iff, mem_keys_iff] at hkey
  cases hfind : set.find? key <;> cases hfind' : set'.find? key <;> simp_all

/-- In sorted sets that differ only in keys that a search passes over, the search finds
the same. -/
theorem findSome?_keys_congr {γ : Type} [DecidableEq κ] {set set' : OrderedSet κ} (h : set.Sorted)
    (h' : set'.Sorted) {search : κ → Option γ}
    (hkeys : ∀ key, (search key).isSome = true → (key ∈ set.keys ↔ key ∈ set'.keys)) :
    set.keys.findSome? search = set'.keys.findSome? search := by
  have hsearch : (fun key => if (search key).isSome then search key else none) = search := by
    funext key
    cases search key <;> rfl
  have hfound (set : OrderedSet κ) : set.keys.findSome? search =
      (set.keys.filter (fun key => (search key).isSome)).findSome? search := by
    rw [← List.head?_filterMap, ← List.head?_filterMap, List.filterMap_filter, hsearch]
  have hsorted {set : OrderedSet κ} (h : set.Sorted) :
      (set.keys.filter (fun key => (search key).isSome)).Pairwise
        (fun a b => compare a b = .lt) := by
    refine List.Pairwise.filter _ (List.pairwise_map.mpr ?_)
    exact h
  have hperm : (set.keys.filter (fun key => (search key).isSome)).Perm
      (set'.keys.filter (fun key => (search key).isSome)) := by
    refine (List.perm_ext_iff_of_nodup ((nodup_keys h).filter _) ((nodup_keys h').filter _)).mpr
      (fun key => ?_)
    rw [List.mem_filter, List.mem_filter]
    exact and_congr_left (hkeys key)
  rw [hfound, hfound, hperm.eq_of_pairwise
    (fun _ _ _ _ hlt hgt => absurd hgt (compare_asymm hlt)) (hsorted h) (hsorted h')]

end Sorted

end JoosStatics.OrderedMap
