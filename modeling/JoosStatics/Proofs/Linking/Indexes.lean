/-
JoosStatics.Proofs.Linking.Indexes — what a symbol table that is built says
about the units it is built from.

`SymbolTable.Indexes` states what each index holds in terms of the two lists
of units alone. A unit is named by its position in the lists, program units
first: `lookup` finds it under its full name, `typesIn` under its package and
its simple name, `packageExists` knows the packages around it, and
`programSize` divides the program from the library. A table is not built
exactly when two positions hold the same full name.

A unit may leave out its package or write the empty one: both are the default
package, so two units that differ in this alone have the same full name.
-/
import JoosStatics.Proofs.Linking.Symbols

namespace JoosStatics

namespace SymbolTable

variable {program library units : List CompilationUnit} {s : SymbolTable}

/-! ## §1 Positions -/

/-- Numbers are positions among the units. -/
theorem unit_iff_unitAt (h : s.units.toList = units) {id : ClassId} {P : CompilationUnit → Prop} :
    (∃ unit, units[id]? = some unit ∧ P unit) ↔ id < s.size ∧ P (s.unitAt id) := by
  have hat : units[id]? = s.units[id]? := by
    rw [← h, Array.getElem?_toList]
  unfold unitAt size
  rw [hat, Array.getD_eq_getD_getElem?]
  by_cases hid : id < s.units.size
  · simp [hid]
  · simp [hid]

/-- Full names repeat when two positions hold the same one. -/
theorem typeNames_repeat_iff :
    ¬ (units.map CompilationUnit.typeName).Nodup ↔
      ∃ (i j : ClassId) (u v : CompilationUnit), i < j ∧ units[i]? = some u ∧
        units[j]? = some v ∧ u.typeName.segments = v.typeName.segments := by
  rw [List.Nodup, List.pairwise_iff_getElem]
  constructor
  · intro h
    simp only [Classical.not_forall, Classical.not_not, ne_eq] at h
    obtain ⟨i, j, hi, hj, hlt, heq⟩ := h
    rw [List.length_map] at hi hj
    rw [List.getElem_map, List.getElem_map] at heq
    exact ⟨i, j, units[i], units[j], hlt, List.getElem?_eq_getElem hi,
      List.getElem?_eq_getElem hj, congrArg QualifiedName.segments heq⟩
  · intro ⟨i, j, u, v, hlt, hu, hv, heq⟩ h
    obtain ⟨hi, rfl⟩ := List.getElem?_eq_some_iff.mp hu
    obtain ⟨hj, rfl⟩ := List.getElem?_eq_some_iff.mp hv
    have hne := h i j (by simpa using hi) (by simpa using hj) hlt
    rw [List.getElem_map, List.getElem_map] at hne
    exact hne (congrArg QualifiedName.mk heq)

/-- The packages around a package are its prefixes. -/
theorem mem_enclosing_iff {package other : PackageName} :
    package ∈ enclosing other ↔ package.segments <+: other.segments := by
  unfold enclosing QualifiedName.take QualifiedName.length
  rw [List.mem_map]
  constructor
  · intro ⟨count, _, h⟩
    rw [← h]
    exact List.take_prefix _ _
  · intro h
    refine ⟨package.segments.length, ?_, ?_⟩
    · have hle := h.length_le
      rw [List.mem_range]
      omega
    · exact congrArg QualifiedName.mk (List.prefix_iff_eq_take.mp h).symm

/-! ## §2 Tables -/

/-- A table indexes a program and its library. The number of a unit is its position, and each
index tells what the unit there declares. -/
structure Indexes (s : SymbolTable) (program library : List CompilationUnit) : Prop where
  units : s.units.toList = program ++ library
  lookup_iff : ∀ name id, s.lookup name = some id ↔
    ∃ unit, (program ++ library)[id]? = some unit ∧ unit.typeName = name
  typesIn_iff : ∀ package name id,
    (∃ types, s.typesIn package = some types ∧ types.find? name = some id) ↔
      ∃ unit, (program ++ library)[id]? = some unit ∧
        unit.packageName = package ∧ unit.decl.name = name
  packageExists_iff : ∀ package, s.packageExists package = true ↔
    ∃ unit ∈ program ++ library, package.segments <+: unit.packageName.segments
  lt_programSize_iff : ∀ id, id < s.programSize ↔
    ∃ unit ∈ program, (program ++ library)[id]? = some unit

/-- Units of distinct full names are distinct. -/
theorem nodup_of_typeNames (h : (units.map CompilationUnit.typeName).Nodup) : units.Nodup :=
  List.Pairwise.of_map CompilationUnit.typeName
    (fun _ _ hne heq => hne (congrArg CompilationUnit.typeName heq)) h

/-- A unit of the program stands at no position of the library: its full name would be there
twice. -/
theorem lt_length_iff_of_nodup
    (hnodup : ((program ++ library).map CompilationUnit.typeName).Nodup) (id : ClassId) :
    id < program.length ↔ ∃ unit ∈ program, (program ++ library)[id]? = some unit := by
  constructor
  · intro hid
    refine ⟨program[id], List.getElem_mem hid, ?_⟩
    rw [List.getElem?_append_left hid, List.getElem?_eq_getElem hid]
  · intro ⟨unit, hunit, hat⟩
    obtain ⟨first, hfirst, hfound⟩ := List.getElem_of_mem hunit
    have hat' : (program ++ library)[first]? = some unit := by
      rw [List.getElem?_append_left hfirst, List.getElem?_eq_getElem hfirst, hfound]
    have heq : first = id := by
      have hlt : first < (program ++ library).length := by
        rw [List.length_append]
        omega
      exact (List.getElem?_inj hlt (nodup_of_typeNames hnodup)).mp (hat'.trans hat.symm)
    exact heq ▸ hfirst

theorem build_indexes (h : build program library = .ok s) : s.Indexes program library := by
  obtain ⟨hs, hunits, hsize⟩ := build_spec h
  constructor
  case units => exact hunits
  case lookup_iff =>
    intro name id
    rw [hs.lookup_iff, unit_iff_unitAt (P := fun unit => unit.typeName = name) hunits]
  case typesIn_iff =>
    intro package name id
    rw [unit_iff_unitAt
      (P := fun unit => unit.packageName = package ∧ unit.decl.name = name) hunits]
    rw [← hs.lookupIn_iff, lookupIn, Option.bind_eq_some_iff]
  case packageExists_iff =>
    intro package
    simp only [build_packageExists h, mem_enclosing_iff]
  case lt_programSize_iff =>
    intro id
    rw [hsize]
    exact lt_length_iff_of_nodup (build_isOk_iff.mp ⟨s, h⟩) id

/-- Building fails only over two units of one full name, and otherwise every index agrees with
the units. -/
theorem build_agrees (program library : List CompilationUnit) :
    ((∃ v, build program library = .error v) ↔
      ∃ (i j : ClassId) (u v : CompilationUnit), i < j ∧ (program ++ library)[i]? = some u ∧
        (program ++ library)[j]? = some v ∧ u.typeName.segments = v.typeName.segments) ∧
    ∀ s, build program library = .ok s → s.Indexes program library := by
  constructor
  · rw [← typeNames_repeat_iff, ← build_isOk_iff]
    cases hbuild : build program library with
    | error v => simp
    | ok s => simp
  · intro s h
    exact build_indexes h

/-- A type of a package. -/
def declaring (package : Option PackageName) (name : Name) : CompilationUnit :=
  { package, decl := { kind := .classType, name } }

/-- Two types of the default package, written in either way, beside a nested package. -/
theorem defaultPackage_agrees :
    (∃ s, build [declaring none "A", declaring (some {}) "B"]
        [declaring (some ⟨["java", "lang"]⟩) "A"] = .ok s ∧
      s.Indexes [declaring none "A", declaring (some {}) "B"]
        [declaring (some ⟨["java", "lang"]⟩) "A"] ∧
      s.lookupIn {} "B" = some 1 ∧ s.lookup ⟨["java", "lang", "A"]⟩ = some 2 ∧
      s.packageExists ⟨["java"]⟩ = true ∧ s.typesIn ⟨["java"]⟩ = none) ∧
    ∃ v, build [declaring none "A"] [declaring (some {}) "A"] = .error v := by
  constructor
  · obtain ⟨s, hbuild, htest⟩ := exists_build
      [declaring none "A", declaring (some {}) "B"] [declaring (some ⟨["java", "lang"]⟩) "A"]
      (fun s => decide (s.lookupIn {} "B" = some 1 ∧ s.lookup ⟨["java", "lang", "A"]⟩ = some 2 ∧
        s.packageExists ⟨["java"]⟩ = true ∧ (s.typesIn ⟨["java"]⟩).isNone)) (by decide +kernel)
    obtain ⟨hfirst, hsecond, hexists, hnone⟩ := of_decide_eq_true htest
    exact ⟨s, hbuild, (build_agrees _ _).2 s hbuild, hfirst, hsecond, hexists,
      Option.isNone_iff_eq_none.mp hnone⟩
  · apply (build_agrees _ _).1.mpr
    exact ⟨0, 1, _, _, by decide, rfl, rfl, rfl⟩

end SymbolTable

end JoosStatics
