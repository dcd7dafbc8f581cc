/-
JoosStatics.Proofs.Linking.Symbols — the indexes of a symbol table agree with
its units.

`SymbolTable.Indexed` says what the two name indexes hold: `byName` finds
the number of the one unit with a full name, `packages` the number of the
one unit of a package with a simple name. Adding a unit keeps it
(`add_indexed`), since a full name that is declared already is refused; so
it holds of every table that is built (`build_indexed`).
-/
import JoosStatics.Linking.SymbolTable
import JoosStatics.Proofs.SortedMaps

namespace JoosStatics

/-- A full name is the package followed by the simple name, so it determines
both. -/
theorem CompilationUnit.typeName_eq_iff {u v : CompilationUnit} :
    u.typeName = v.typeName ↔ u.packageName = v.packageName ∧ u.decl.name = v.decl.name := by
  unfold typeName QualifiedName.child
  constructor
  · intro h
    obtain ⟨hpackage, hname⟩ := List.append_inj' (congrArg QualifiedName.segments h) rfl
    refine ⟨?_, by simpa using hname⟩
    cases hu : u.packageName
    cases hv : v.packageName
    rw [hu, hv] at hpackage
    exact congrArg _ hpackage
  · rintro ⟨hpackage, hname⟩
    rw [hpackage, hname]

namespace SymbolTable

/-- The name indexes find exactly the units of the table. -/
structure Indexed (s : SymbolTable) : Prop where
  lookup_iff : ∀ {name : QualifiedName} {id : ClassId},
    s.lookup name = some id ↔ id < s.size ∧ (s.unitAt id).typeName = name
  lookupIn_iff : ∀ {package : PackageName} {name : Name} {id : ClassId},
    s.lookupIn package name = some id ↔
      id < s.size ∧ (s.unitAt id).packageName = package ∧ (s.unitAt id).decl.name = name

/-- No two units have the same full name. -/
theorem Indexed.eq_of_typeName_eq {s : SymbolTable} (h : s.Indexed) {i j : ClassId}
    (hi : i < s.size) (hj : j < s.size) (heq : (s.unitAt i).typeName = (s.unitAt j).typeName) :
    i = j := by
  have hfound : s.lookup (s.unitAt j).typeName = some i := h.lookup_iff.mpr ⟨hi, heq⟩
  rw [h.lookup_iff.mpr ⟨hj, rfl⟩] at hfound
  exact (Option.some.inj hfound).symm

/-! ## Adding units -/

section Add

variable {s s' : SymbolTable} {unit : CompilationUnit}

/-- A unit is added under the next number, and only under a new full name. -/
theorem add_eq_ok (h : s.add unit = .ok s') :
    s.lookup unit.typeName = none ∧ s'.units = s.units.push unit ∧
    s'.programSize = s.programSize ∧ s'.byName = s.byName.insert unit.typeName s.size ∧
    s'.packages = s.packages.insert unit.packageName
      (((s.typesIn unit.packageName).getD ∅).insert unit.decl.name s.size) := by
  unfold add at h
  simp only at h
  split at h
  · cases h
  · rename_i hnew
    cases h
    refine ⟨?_, rfl, rfl, rfl, rfl⟩
    simpa [OrderedMap.contains, lookup] using hnew

theorem size_of_units_push (h : s'.units = s.units.push unit) : s'.size = s.size + 1 := by
  unfold size
  rw [h, Array.size_push]

theorem lt_size_of_ne {id : ClassId} (h : id < s.size + 1) (hne : id ≠ s.size) : id < s.size :=
  Nat.lt_of_le_of_ne (Nat.le_of_lt_succ h) hne

/-- The units of a table that has grown by one unit. -/
theorem unitAt_of_units_push (h : s'.units = s.units.push unit) (id : ClassId) :
    s'.unitAt id = if id = s.size then unit else s.unitAt id := by
  unfold unitAt size
  rw [h, Array.getD_eq_getD_getElem?, Array.getD_eq_getD_getElem?, Array.getElem?_push]
  split <;> rfl

/-- What a package holds once a type has been added to it. -/
theorem lookupIn_of_packages_insert {package : PackageName} {simple : Name}
    (h : s'.packages = s.packages.insert package
      (((s.typesIn package).getD ∅).insert simple s.size)) (other : PackageName) (name : Name) :
    s'.lookupIn other name =
      if package = other ∧ simple = name then some s.size else s.lookupIn other name := by
  unfold lookupIn typesIn
  rw [h, OrderedMap.find?_insert]
  by_cases hpackage : package = other
  · subst hpackage
    rw [if_pos rfl, Option.bind_some, OrderedMap.find?_insert]
    by_cases hname : simple = name
    · simp [hname]
    · rw [if_neg hname, if_neg (fun h => hname h.2), typesIn]
      cases s.packages.find? package <;> rfl
  · rw [if_neg hpackage, if_neg (fun h => hpackage h.1)]

/-- An index that agrees with the units up to here agrees with them and one more, which it
finds when the unit is the only one with the key. -/
theorem found_iff_of_units_push (hunits : s'.units = s.units.push unit)
    (key : CompilationUnit → Prop) [Decidable (key unit)] {found : Option ClassId} {id : ClassId}
    (hfound : found = some id ↔ id < s.size ∧ key (s.unitAt id))
    (hfresh : key unit → ∀ id < s.size, ¬ key (s.unitAt id)) :
    (if key unit then some s.size else found) = some id ↔
      id < s'.size ∧ key (s'.unitAt id) := by
  rw [unitAt_of_units_push hunits, size_of_units_push hunits]
  by_cases hlast : id = s.size
  · rw [if_pos hlast, hlast, and_iff_right (Nat.lt_succ_self _)]
    split
    · rename_i hkey
      exact iff_of_true rfl hkey
    · rename_i hkey
      rw [hlast] at hfound
      exact iff_of_false (fun h => Nat.lt_irrefl _ (hfound.mp h).1) hkey
  · have hlt : id < s.size + 1 ↔ id < s.size :=
      ⟨fun h => lt_size_of_ne h hlast, Nat.lt_succ_of_lt⟩
    rw [if_neg hlast, hlt]
    split
    · rename_i hkey
      exact iff_of_false (fun h => hlast (Option.some.inj h).symm)
        (fun h => hfresh hkey id h.1 h.2)
    · exact hfound

/-- Adding a unit keeps the indexes in agreement with the units. -/
theorem add_indexed (hs : s.Indexed) (h : s.add unit = .ok s') : s'.Indexed := by
  obtain ⟨hnew, hunits, -, hbyName, hpackages⟩ := add_eq_ok h
  have hfresh : ∀ id < s.size, (s.unitAt id).typeName ≠ unit.typeName := by
    intro id hid heq
    rw [hs.lookup_iff.mpr ⟨hid, heq⟩] at hnew
    cases hnew
  constructor
  · intro name id
    have hlookup : s'.lookup name =
        if unit.typeName = name then some s.size else s.lookup name := by
      unfold lookup
      rw [hbyName, OrderedMap.find?_insert]
    rw [hlookup]
    refine found_iff_of_units_push hunits (fun u => u.typeName = name) hs.lookup_iff ?_
    rintro rfl
    exact hfresh
  · intro package name id
    rw [lookupIn_of_packages_insert hpackages]
    refine found_iff_of_units_push hunits
      (fun u => u.packageName = package ∧ u.decl.name = name) hs.lookupIn_iff ?_
    rintro ⟨rfl, rfl⟩ id hid hkey
    exact hfresh id hid (CompilationUnit.typeName_eq_iff.mpr hkey)

/-- What a run of additions does to the units and the indexes. -/
theorem addAll_spec (hs : s.Indexed) {units : List CompilationUnit}
    (h : s.addAll units = .ok s') :
    s'.Indexed ∧ s'.units.toList = s.units.toList ++ units ∧ s'.programSize = s.programSize := by
  induction units generalizing s with
  | nil =>
    cases h
    exact ⟨hs, by simp, rfl⟩
  | cons unit units ih =>
    unfold addAll at h
    split at h
    · rename_i s₁ hadd
      obtain ⟨-, hunits, hprogram, -, -⟩ := add_eq_ok hadd
      obtain ⟨hs', hunits', hprogram'⟩ := ih (add_indexed hs hadd) h
      refine ⟨hs', ?_, hprogram'.trans hprogram⟩
      rw [hunits', hunits, Array.toList_push, List.append_assoc, List.singleton_append]
    · cases h

/-- A unit can be added when its full name is new. -/
theorem add_isOk_iff : (∃ s', s.add unit = .ok s') ↔ s.lookup unit.typeName = none := by
  constructor
  · rintro ⟨s', h⟩
    exact (add_eq_ok h).1
  · intro h
    unfold add
    simp only
    rw [if_neg (by simpa [OrderedMap.contains, lookup] using h)]
    exact ⟨_, rfl⟩

/-- Units can be added when their full names are new and distinct. -/
theorem addAll_isOk_iff (hs : s.Indexed) {units : List CompilationUnit} :
    (∃ s', s.addAll units = .ok s') ↔
      (units.map CompilationUnit.typeName).Nodup ∧
      ∀ unit ∈ units, s.lookup unit.typeName = none := by
  induction units generalizing s with
  | nil => exact ⟨fun _ => ⟨.nil, nofun⟩, fun _ => ⟨s, rfl⟩⟩
  | cons unit units ih =>
    rw [List.map_cons, List.nodup_cons, List.forall_mem_cons]
    -- a name is new once the unit is added when it was new before and is not the unit's
    have hnext {s₁ : SymbolTable} (hadd : s.add unit = .ok s₁) :
        (∃ s', s.addAll (unit :: units) = .ok s') ↔
          (units.map CompilationUnit.typeName).Nodup ∧
          ∀ other ∈ units, unit.typeName ≠ other.typeName ∧ s.lookup other.typeName = none := by
      have hlookup (name : QualifiedName) : s₁.lookup name = none ↔
          unit.typeName ≠ name ∧ s.lookup name = none := by
        obtain ⟨-, -, -, hbyName, -⟩ := add_eq_ok hadd
        unfold lookup
        rw [hbyName, OrderedMap.find?_insert]
        split <;> simp_all
      rw [addAll, hadd]
      simp only [ih (add_indexed hs hadd), hlookup]
    constructor
    · intro h
      obtain ⟨s', hs'⟩ := id h
      unfold addAll at hs'
      split at hs'
      · rename_i s₁ hadd
        obtain ⟨hnodup, hfresh⟩ := (hnext hadd).mp h
        refine ⟨⟨fun hmem => ?_, hnodup⟩, (add_eq_ok hadd).1, fun other hother =>
          (hfresh other hother).2⟩
        obtain ⟨other, hother, heq⟩ := List.mem_map.mp hmem
        exact (hfresh other hother).1 heq.symm
      · cases hs'
    · rintro ⟨⟨hnew, hnodup⟩, hfirst, hfresh⟩
      obtain ⟨s₁, hadd⟩ := add_isOk_iff.mpr hfirst
      refine (hnext hadd).mpr ⟨hnodup, fun other hother => ⟨fun heq => hnew ?_, hfresh other hother⟩⟩
      exact List.mem_map.mpr ⟨other, hother, heq.symm⟩

theorem add_packageExists (h : s.add unit = .ok s') (package : PackageName) :
    s'.packageExists package = true ↔
      package ∈ enclosing unit.packageName ∨ s.packageExists package = true := by
  unfold add at h
  simp only at h
  split at h
  · cases h
  · cases h
    unfold packageExists OrderedMap.contains
    simp only [← OrderedMap.mem_keys_iff, OrderedMap.mem_keys_foldl_add]

/-- The packages that exist are those around the types that have been added. -/
theorem addAll_packageExists {units : List CompilationUnit} (h : s.addAll units = .ok s')
    (package : PackageName) :
    s'.packageExists package = true ↔
      (∃ unit ∈ units, package ∈ enclosing unit.packageName) ∨ s.packageExists package = true := by
  induction units generalizing s with
  | nil =>
    cases h
    simp
  | cons unit units ih =>
    unfold addAll at h
    split at h
    · rename_i s₁ hadd
      simp only [ih h, add_packageExists hadd, List.mem_cons, exists_eq_or_imp]
      rw [or_left_comm, or_assoc]
    · cases h

end Add

/-! ## Tables that are built -/

variable {program library : List CompilationUnit} {s : SymbolTable}

theorem indexed_empty (size : Nat) : ({ programSize := size } : SymbolTable).Indexed := by
  constructor
  · intro name id
    constructor
    · intro h
      cases h
    · rintro ⟨h, -⟩
      exact absurd h (Nat.not_lt_zero _)
  · intro package name id
    constructor
    · intro h
      cases h
    · rintro ⟨h, -⟩
      exact absurd h (Nat.not_lt_zero _)

theorem build_spec (h : build program library = .ok s) :
    s.Indexed ∧ s.units.toList = program ++ library ∧ s.programSize = program.length := by
  obtain ⟨hs, hunits, hprogram⟩ := addAll_spec (indexed_empty _) h
  exact ⟨hs, by simpa using hunits, hprogram⟩

/-- A table can be built when all full names are distinct. -/
theorem build_isOk_iff :
    (∃ s, build program library = .ok s) ↔
      ((program ++ library).map CompilationUnit.typeName).Nodup :=
  (addAll_isOk_iff (indexed_empty _)).trans (and_iff_left (fun _ _ => rfl))

/-- Whether a table can be built that passes a test is decided by building it. -/
theorem exists_build (program library : List CompilationUnit) (test : SymbolTable → Bool)
    (h : (build program library).toOption.any test = true) :
    ∃ s, build program library = .ok s ∧ test s = true := by
  cases hbuild : build program library with
  | error v =>
    rw [hbuild] at h
    cases h
  | ok s =>
    rw [hbuild] at h
    exact ⟨s, rfl, h⟩

theorem build_packageExists (h : build program library = .ok s) (package : PackageName) :
    s.packageExists package = true ↔
      ∃ unit ∈ program ++ library, package ∈ enclosing unit.packageName :=
  (addAll_packageExists h package).trans (or_iff_left Bool.false_ne_true)

/-- The indexes of a table that is built agree with its units. -/
theorem build_indexed (h : build program library = .ok s) : s.Indexed := (build_spec h).1

/-- The first numbers are those of the units of the program. -/
theorem build_unitAt_mem (h : build program library = .ok s) {id : ClassId}
    (hid : id < s.programSize) : s.unitAt id ∈ program := by
  obtain ⟨-, hunits, hsize⟩ := build_spec h
  rw [hsize] at hid
  have hat : s.units[id]? = some program[id] := by
    rw [← Array.getElem?_toList, hunits, List.getElem?_append_left hid,
      List.getElem?_eq_getElem hid]
  rw [unitAt, Array.getD_eq_getD_getElem?, hat]
  exact List.getElem_mem hid

/-- Every unit of the program has a number. -/
theorem build_exists_unitAt (h : build program library = .ok s) {unit : CompilationUnit}
    (hunit : unit ∈ program) : ∃ id < s.programSize, s.unitAt id = unit := by
  obtain ⟨-, hunits, hsize⟩ := build_spec h
  obtain ⟨id, hid, rfl⟩ := List.getElem_of_mem hunit
  refine ⟨id, hsize ▸ hid, ?_⟩
  have hat : s.units[id]? = some program[id] := by
    rw [← Array.getElem?_toList, hunits, List.getElem?_append_left hid,
      List.getElem?_eq_getElem hid]
  rw [unitAt, Array.getD_eq_getD_getElem?, hat]
  rfl

theorem build_programSize_le (h : build program library = .ok s) : s.programSize ≤ s.size := by
  obtain ⟨-, hunits, hsize⟩ := build_spec h
  rw [hsize, size, ← Array.length_toList, hunits, List.length_append]
  exact Nat.le_add_right _ _

end SymbolTable

end JoosStatics
