/-
JoosStatics.OrderedMap — finite maps kept as association lists in key order.

The analyzer's answers list members, packages and constructors in key
order, so the order is part of the type. The view of a map is its list
`entries`; `find?` reads it, `insert` replaces or adds one entry.

* `find?_insert_self`, `find?_insert_of_ne` — reading after writing.
* `OrderedSet` — the keys alone.
-/

namespace JoosStatics

/-- A finite map as its list of entries, smallest key first. -/
structure OrderedMap (κ ν : Type) where
  entries : List (κ × ν) := []
  deriving DecidableEq

namespace OrderedMap

variable {κ ν : Type}

instance : EmptyCollection (OrderedMap κ ν) := ⟨⟨[]⟩⟩
instance : Inhabited (OrderedMap κ ν) := ⟨⟨[]⟩⟩

/-- The keys in order. -/
def keys (m : OrderedMap κ ν) : List κ := m.entries.map Prod.fst

/-- The values in the order of their keys. -/
def values (m : OrderedMap κ ν) : List ν := m.entries.map Prod.snd

/-- The number of keys. -/
def size (m : OrderedMap κ ν) : Nat := m.entries.length

/-- The entry of an association list stored under `key`. -/
def findIn [DecidableEq κ] (key : κ) : List (κ × ν) → Option ν
  | [] => none
  | (k, v) :: rest => if k = key then some v else findIn key rest

/-- The value stored under `key`. -/
def find? [DecidableEq κ] (m : OrderedMap κ ν) (key : κ) : Option ν := findIn key m.entries

/-- Whether `key` has a value. -/
def contains [DecidableEq κ] (m : OrderedMap κ ν) (key : κ) : Bool := (m.find? key).isSome

/-- The entries with `value` under `key`, in the place the order gives it. -/
def insertIn [Ord κ] (key : κ) (value : ν) : List (κ × ν) → List (κ × ν)
  | [] => [(key, value)]
  | (k, v) :: rest =>
    match compare key k with
    | .lt => (key, value) :: (k, v) :: rest
    | .eq => (key, value) :: rest
    | .gt => (k, v) :: insertIn key value rest

/-- Store `value` under `key`, replacing what was there. -/
def insert [Ord κ] (m : OrderedMap κ ν) (key : κ) (value : ν) : OrderedMap κ ν :=
  ⟨insertIn key value m.entries⟩

/-- Store `value` under `key` unless the key has a value already. -/
def insertNew [Ord κ] [DecidableEq κ] (m : OrderedMap κ ν) (key : κ) (value : ν) :
    OrderedMap κ ν :=
  if m.contains key then m else m.insert key value

/-- Remove `key`. -/
def erase [DecidableEq κ] (m : OrderedMap κ ν) (key : κ) : OrderedMap κ ν :=
  ⟨m.entries.filter (fun entry => entry.1 ≠ key)⟩

/-- The map with the entries of a list, later ones replacing earlier ones. -/
def ofList [Ord κ] (entries : List (κ × ν)) : OrderedMap κ ν :=
  entries.foldl (fun m entry => m.insert entry.1 entry.2) ∅

section Lemmas

variable [Ord κ] [Std.LawfulEqOrd κ] [DecidableEq κ]

theorem findIn_insertIn_self (key : κ) (value : ν) (entries : List (κ × ν)) :
    findIn key (insertIn key value entries) = some value := by
  induction entries with
  | nil => simp [insertIn, findIn]
  | cons entry rest ih =>
    obtain ⟨k, v⟩ := entry
    cases hc : compare key k with
    | lt => simp [insertIn, hc, findIn]
    | eq => simp [insertIn, hc, findIn]
    | gt =>
      have hne : k ≠ key := by
        rintro rfl
        simp [Std.ReflCmp.compare_self] at hc
      simp [insertIn, hc, findIn, hne, ih]

theorem findIn_insertIn_of_ne {key other : κ} (hne : key ≠ other) (value : ν)
    (entries : List (κ × ν)) :
    findIn other (insertIn key value entries) = findIn other entries := by
  induction entries with
  | nil => simp [insertIn, findIn, hne]
  | cons entry rest ih =>
    obtain ⟨k, v⟩ := entry
    cases hc : compare key k with
    | lt => simp [insertIn, hc, findIn, hne]
    | eq =>
      obtain rfl : key = k := Std.LawfulEqOrd.eq_of_compare hc
      simp [insertIn, findIn, hne]
    | gt => simp [insertIn, hc, findIn, ih]

/-- The value written last under a key is the one read. -/
theorem find?_insert_self (m : OrderedMap κ ν) (key : κ) (value : ν) :
    (m.insert key value).find? key = some value :=
  findIn_insertIn_self key value m.entries

/-- Writing under one key leaves every other key as it was. -/
theorem find?_insert_of_ne (m : OrderedMap κ ν) {key other : κ} (hne : key ≠ other) (value : ν) :
    (m.insert key value).find? other = m.find? other :=
  findIn_insertIn_of_ne hne value m.entries

end Lemmas

end OrderedMap

/-- A finite set, listed in order. -/
abbrev OrderedSet (κ : Type) := OrderedMap κ Unit

/-- The set with `key` added. -/
def OrderedSet.add {κ : Type} [Ord κ] (s : OrderedSet κ) (key : κ) : OrderedSet κ :=
  OrderedMap.insert s key ()

end JoosStatics
