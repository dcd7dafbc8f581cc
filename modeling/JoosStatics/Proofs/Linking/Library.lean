/-
JoosStatics.Proofs.Linking.Library — what the library means in a program.

The units of the library are linked together with those of the program, and
names in both are looked up by the same rules. A library signature
therefore means in every program what it means by itself, up to one
exception: a simple name in it denotes a type of the program that is
declared in the package of the library unit, if there is one.

* `namedType?_library` — names in library units.
* `library_signature` — the signatures of the library in a program.
-/
import JoosStatics.Library.Units
import JoosStatics.Proofs.Renaming.Signatures

namespace JoosStatics

/-- A program and its library are linked. -/
def IsLinked (program library : List CompilationUnit) (l : Linked) : Prop :=
  ∃ s, SymbolTable.build program library = .ok s ∧ s.link = .ok l

/-- Whether a program is linked with a result that passes a test. -/
def passesLinking (program library : List CompilationUnit) (test : Linked → Bool) : Bool :=
  match SymbolTable.build program library with
  | .error _ => false
  | .ok s =>
    match s.link with
    | .error _ => false
    | .ok l => test l

theorem exists_isLinked (program library : List CompilationUnit) (test : Linked → Bool)
    (h : passesLinking program library test = true) :
    ∃ l, IsLinked program library l ∧ test l = true := by
  unfold passesLinking at h
  split at h
  · cases h
  · rename_i s hbuild
    split at h
    · cases h
    · rename_i l hlink
      exact ⟨l, ⟨s, hbuild, hlink⟩, h⟩

/-- The program declares a type of a package under a simple name. -/
def declaredIn? (program : List CompilationUnit) (package : PackageName) (name : QualifiedName) :
    Option ClassId :=
  if name.isSimple then
    program.findIdx? (fun unit => unit.typeName = ⟨package.segments ++ name.segments⟩)
  else none

theorem CompilationUnit.typeName_eq_child_iff {u : CompilationUnit} {package : PackageName}
    {name : Name} :
    u.typeName = package.child name ↔ u.packageName = package ∧ u.decl.name = name :=
  typeName_eq_iff (v := { package := some package, decl := { kind := .classType, name } })

namespace SymbolTable

/-! ## §1 Units without imports -/

variable {s s₀ : SymbolTable} {program library : List CompilationUnit}

/-- In a unit without imports a name denotes the unit's own type, or a type of its
package, or one of `java.lang`. -/
theorem simpleType?_of_imports_nil {id : ClassId} (h : (s.unitAt id).imports = []) (name : Name) :
    s.simpleType? id name =
      if (s.unitAt id).decl.name = name then some id
      else (s.lookupIn (s.unitAt id).packageName name).or
        (s.lookupIn Imports.javaLang.package name) := by
  have hsingle : (s.importsOf id).single = [] := by simp [importsOf, Imports.ofUnit, h]
  have hits : s.onDemandHits id name =
      ((s.lookupIn Imports.javaLang.package name).map
        (fun found => (found, Imports.javaLang.package))).toList := by
    have honDemand : (s.importsOf id).onDemand = [Imports.javaLang] := by
      simp [importsOf, Imports.ofUnit, h]
    unfold onDemandHits
    rw [honDemand, List.filterMap_cons]
    cases s.lookupIn Imports.javaLang.package name <;> rfl
  unfold simpleType? findSimple
  simp only [hsingle, hits, List.filter_nil]
  by_cases hown : (s.unitAt id).decl.name = name
  · simp only [if_pos hown]
  · simp only [if_neg hown]
    cases s.lookupIn (s.unitAt id).packageName name with
    | some found => rfl
    | none => cases s.lookupIn Imports.javaLang.package name <;> rfl

/-! ## §2 The library in two programs -/

section Library

variable (hs : build program library = .ok s) (hs₀ : build [] library = .ok s₀)
include hs hs₀

/-- The units of the library follow those of the program. -/
theorem unitAt_library (id : ClassId) : s.unitAt (program.length + id) = s₀.unitAt id := by
  obtain ⟨-, hunits, -⟩ := build_spec hs
  obtain ⟨-, hunits₀, -⟩ := build_spec hs₀
  unfold unitAt
  rw [Array.getD_eq_getD_getElem?, Array.getD_eq_getD_getElem?, ← Array.getElem?_toList,
    ← Array.getElem?_toList, hunits, hunits₀, List.getElem?_append_right (Nat.le_add_right _ _),
    Nat.add_sub_cancel_left, List.nil_append]

theorem size_library : s.size = program.length + s₀.size := by
  obtain ⟨-, hunits, -⟩ := build_spec hs
  obtain ⟨-, hunits₀, -⟩ := build_spec hs₀
  unfold size
  rw [← Array.length_toList, ← Array.length_toList, hunits, hunits₀, List.length_append,
    List.nil_append]

/-- A full name of a library type keeps its type. -/
theorem lookup_library {name : QualifiedName} {id : ClassId} (h : s₀.lookup name = some id) :
    s.lookup name = some (program.length + id) := by
  obtain ⟨hid, hname⟩ := (build_indexed hs₀).lookup_iff.mp h
  refine (build_indexed hs).lookup_iff.mpr ⟨?_, ?_⟩
  · rw [size_library hs hs₀]
    exact Nat.add_lt_add_left hid _
  · rwa [unitAt_library hs hs₀]

theorem lookupIn_library {package : PackageName} {name : Name} {id : ClassId}
    (h : s₀.lookupIn package name = some id) :
    s.lookupIn package name = some (program.length + id) := by
  obtain ⟨hid, hname⟩ := (build_indexed hs₀).lookupIn_iff.mp h
  refine (build_indexed hs).lookupIn_iff.mpr ⟨?_, ?_⟩
  · rw [size_library hs hs₀]
    exact Nat.add_lt_add_left hid _
  · rwa [unitAt_library hs hs₀]

omit hs₀ in
theorem unitAt_program {id : ClassId} (hid : id < program.length) :
    s.unitAt id = program[id] := by
  obtain ⟨-, hunits, -⟩ := build_spec hs
  unfold unitAt
  rw [Array.getD_eq_getD_getElem?, ← Array.getElem?_toList, hunits,
    List.getElem?_append_left hid, List.getElem?_eq_getElem hid]
  rfl

omit hs₀ in
/-- A type that the program declares in a package is found there. -/
theorem lookupIn_of_declared {package : PackageName} {name : Name} {id : ClassId}
    (h : declaredIn? program package (.single name) = some id) :
    s.lookupIn package name = some id := by
  obtain ⟨hid, hname, -⟩ := List.findIdx?_eq_some_iff_getElem.mp h
  refine (build_indexed hs).lookupIn_iff.mpr ⟨?_, ?_⟩
  · have hle := build_programSize_le hs
    rw [(build_spec hs).2.2] at hle
    exact Nat.lt_of_lt_of_le hid hle
  · rw [unitAt_program hs hid]
    exact CompilationUnit.typeName_eq_child_iff.mp (of_decide_eq_true hname)

/-- What a package holds that the library does not is declared by the program. -/
theorem lookupIn_program {package : PackageName} {name : Name}
    (h : s₀.lookupIn package name = none) :
    s.lookupIn package name = declaredIn? program package (.single name) := by
  cases hdeclared : declaredIn? program package (.single name) with
  | some id => exact lookupIn_of_declared hs hdeclared
  | none =>
    refine Option.eq_none_iff_forall_ne_some.mpr (fun id hfound => ?_)
    obtain ⟨hid, hpackage, hname⟩ := (build_indexed hs).lookupIn_iff.mp hfound
    by_cases hprogram : id < program.length
    · rw [unitAt_program hs hprogram] at hpackage hname
      have hnone := List.findIdx?_eq_none_iff.mp hdeclared _ (List.getElem_mem hprogram)
      exact of_decide_eq_false hnone
        (CompilationUnit.typeName_eq_child_iff.mpr ⟨hpackage, hname⟩)
    · obtain ⟨other, rfl⟩ := Nat.exists_eq_add_of_le (Nat.le_of_not_lt hprogram)
      rw [unitAt_library hs hs₀] at hpackage hname
      rw [size_library hs hs₀] at hid
      rw [(build_indexed hs₀).lookupIn_iff.mpr
        ⟨Nat.lt_of_add_lt_add_left hid, hpackage, hname⟩] at h
      cases h

/-- A simple name in a library unit denotes what it denotes without the program, or
else a type that the program declares in the package of the unit. -/
theorem simpleType?_library {id found : ClassId} (himports : (s₀.unitAt id).imports = [])
    (hid : id < s₀.size) {name : Name} (h : s₀.simpleType? id name = some found) :
    s.simpleType? (program.length + id) name =
      some ((declaredIn? program (s₀.unitAt id).packageName (.single name)).getD
        (program.length + found)) := by
  have hunit := unitAt_library hs hs₀ id
  rw [simpleType?_of_imports_nil himports] at h
  rw [simpleType?_of_imports_nil (hunit ▸ himports), hunit]
  by_cases hown : (s₀.unitAt id).decl.name = name
  · rw [if_pos hown] at h ⊢
    cases h
    cases hdeclared : declaredIn? program (s₀.unitAt id).packageName (.single name) with
    | none => rfl
    | some other =>
      have hown' := lookupIn_library hs hs₀ ((build_indexed hs₀).lookupIn_iff.mpr ⟨hid, rfl, hown⟩)
      rw [lookupIn_of_declared hs hdeclared] at hown'
      exact hown'.symm
  · rw [if_neg hown] at h ⊢
    cases hpackage : s₀.lookupIn (s₀.unitAt id).packageName name with
    | some other =>
      rw [hpackage] at h
      cases h
      have hkept := lookupIn_library hs hs₀ hpackage
      cases hdeclared : declaredIn? program (s₀.unitAt id).packageName (.single name) with
      | none =>
        rw [hkept]
        rfl
      | some declared =>
        rw [lookupIn_of_declared hs hdeclared]
        rfl
    | none =>
      rw [hpackage, Option.none_or] at h
      rw [lookupIn_program hs hs₀ hpackage, lookupIn_library hs hs₀ h]
      cases declaredIn? program (s₀.unitAt id).packageName (.single name) <;> rfl

/-- What a name denotes in a library unit. -/
theorem namedType?_library {id found found' : ClassId} (himports : (s₀.unitAt id).imports = [])
    (hid : id < s₀.size) {name : QualifiedName} (h₀ : s₀.namedType? id name = some found)
    (h : s.namedType? (program.length + id) name = some found') :
    found' = (declaredIn? program (s₀.unitAt id).packageName name).getD
      (program.length + found) := by
  obtain ⟨segments⟩ := name
  match segments with
  | [] => cases h
  | [simple] =>
    exact Option.some.inj (h.symm.trans (simpleType?_library hs hs₀ himports hid h₀))
  | first :: second :: others =>
    unfold namedType? at h h₀
    simp only at h h₀
    split at h
    · cases h
    split at h₀
    · cases h₀
    exact Option.some.inj (h.symm.trans (lookup_library hs hs₀ h₀))

end Library

end SymbolTable

/-! ## §3 The signatures of the library -/

/-- Types are numbered further on, everything else is as before. -/
def Renaming.shift (count : Nat) : Renaming :=
  { identity Eq with
    type := fun id => count + id
    field := fun ref => { ref with owner := count + ref.owner }
    method := fun ref => { ref with owner := count + ref.owner }
    constructor := fun ref => { ref with owner := count + ref.owner }
    type_injective := fun _ _ h => Nat.add_left_cancel h }

section Linked

variable {program library : List CompilationUnit} {l l₀ : Linked}

/-- What a library without imports means in a program, from what it means by itself. -/
theorem IsLinked.library_classAt (h : IsLinked program library l) (h₀ : IsLinked [] library l₀)
    {id : ClassId} {unit : CompilationUnit} (hunit : library[id]? = some unit)
    (himports : unit.imports = []) :
    l₀.table.classAt id =
      unit.signature (l₀.symbols.denotation id) (some l₀.table.wellKnown.object) ∧
    l.table.classAt (program.length + id) =
      unit.signature
        (fun name => (declaredIn? program unit.packageName name).getD
          (program.length + l₀.symbols.denotation id name))
        (some (program.length + l₀.table.wellKnown.object)) := by
  obtain ⟨s, hs, hlink⟩ := h
  obtain ⟨s₀, hs₀, hlink₀⟩ := h₀
  obtain ⟨rfl, -⟩ := SymbolTable.link_run hlink
  obtain ⟨rfl, -⟩ := SymbolTable.link_run hlink₀
  have hid : id < l₀.symbols.size := by
    obtain ⟨-, hunits, -⟩ := SymbolTable.build_spec hs₀
    rw [SymbolTable.size, ← Array.length_toList, hunits, List.nil_append]
    exact (List.getElem?_eq_some_iff.mp hunit).1
  have hunit₀ : l₀.symbols.unitAt id = unit := by
    obtain ⟨-, hunits, -⟩ := SymbolTable.build_spec hs₀
    rw [SymbolTable.unitAt, Array.getD_eq_getD_getElem?, ← Array.getElem?_toList, hunits,
      List.nil_append, hunit]
    rfl
  have hobject := SymbolTable.link_lookup_object (SymbolTable.build_indexed hs₀) hlink₀
  have hunitL := (SymbolTable.unitAt_library hs hs₀ id).trans hunit₀
  have hidL : program.length + id < l.symbols.size := by
    rw [SymbolTable.size_library hs hs₀]
    exact Nat.add_lt_add_left hid _
  have hresolvable₀ := (SymbolTable.link_lowers hlink₀).1.resolvable id (List.mem_range.mpr hid)
  have hresolvable :=
    (SymbolTable.link_lowers hlink).1.resolvable _ (List.mem_range.mpr hidL)
  rw [SymbolTable.link_classAt hlink₀ hid, SymbolTable.link_classAt hlink hidL]
  unfold SymbolTable.signatureOf
  rw [hunit₀, hunitL, hobject, SymbolTable.lookup_library hs hs₀ hobject]
  refine ⟨rfl, CompilationUnit.signature_congr (fun name hname => ?_) _⟩
  have hname₀ : name ∈ l₀.symbols.linkedNames id :=
    List.mem_append_left _ (hunit₀.symm ▸ hname)
  have hnameL : name ∈ l.symbols.linkedNames (program.length + id) :=
    List.mem_append_left _ (hunitL.symm ▸ hname)
  obtain ⟨found, hfound⟩ := Option.isSome_iff_exists.mp (hresolvable₀.names name hname₀)
  obtain ⟨found', hfound'⟩ := Option.isSome_iff_exists.mp (hresolvable.names name hnameL)
  have hdenotes := SymbolTable.namedType?_library hs hs₀ (hunit₀.symm ▸ himports) hid hfound hfound'
  unfold SymbolTable.denotation
  rw [hfound, hfound', Option.getD_some, Option.getD_some, hdenotes, hunit₀]

end Linked

/-- The units of the library import nothing. -/
theorem Library.imports_eq_nil {unit : CompilationUnit} (h : unit ∈ Library.units) :
    unit.imports = [] := by
  obtain ⟨⟨package, types⟩, -, hunit⟩ := List.mem_flatMap.mp h
  obtain ⟨type, -, rfl⟩ := List.mem_map.mp hunit
  rfl

/-- In every program a type of the library has the signature that it has by itself, but
for simple names under which the program declares a type in the package of the library
type: those denote the type of the program. If there is none, nothing changes. -/
theorem library_signature {program : List CompilationUnit} {l l₀ : Linked}
    (h : IsLinked program Library.units l) (h₀ : IsLinked [] Library.units l₀) {id : ClassId}
    {unit : CompilationUnit} (hunit : Library.units[id]? = some unit) :
    (l₀.table.classAt id =
      unit.signature (l₀.symbols.denotation id) (some l₀.table.wellKnown.object) ∧
    l.table.classAt (program.length + id) =
      unit.signature
        (fun name => (declaredIn? program unit.packageName name).getD
          (program.length + l₀.symbols.denotation id name))
        (some (program.length + l₀.table.wellKnown.object))) ∧
    ((∀ name ∈ unit.decl.signatureNames, declaredIn? program unit.packageName name = none) →
      l.table.classAt (program.length + id) =
        (l₀.table.classAt id).rename (.shift program.length)) ∧
    ∀ other < Library.units.length,
      (l.table.classAt (program.length + other)).name = (l₀.table.classAt other).name := by
  have hunits {other : ClassId} {u : CompilationUnit} (hu : Library.units[other]? = some u) :=
    h.library_classAt h₀ hu (Library.imports_eq_nil (List.mem_of_getElem? hu))
  refine ⟨hunits hunit, fun hnone => ?_, fun other hother => ?_⟩
  · obtain ⟨hid₀, hid⟩ := hunits hunit
    rw [hid, hid₀]
    refine CompilationUnit.signature_rename (ρ := .shift program.length) rfl
      (fun name hname => ?_) (some l₀.table.wellKnown.object)
    rw [hnone name hname]
    rfl
  · obtain ⟨hid₀, hid⟩ := hunits (List.getElem?_eq_getElem hother)
    rw [hid, hid₀]
    rfl

/-- A class that is named like a class of `java.lang`, in the package `java.io`. -/
def ioStringUnits : List CompilationUnit := [Library.toUnit "java.io" (Library.classNamed "String")]

/-- The position of `java.io.IOException` in the library. -/
def ioExceptionId : ClassId :=
  Library.units.findIdx (fun unit => unit.typeName = .ofDotted "java.io.IOException")

theorem ioExceptionId_lt : ioExceptionId < Library.units.length := by
  decide +kernel

theorem exists_ioString_linked :
    ∃ l l₀, IsLinked ioStringUnits Library.units l ∧ IsLinked [] Library.units l₀ ∧
      [.declared 0] ∈ (l.table.classAt (ioStringUnits.length + ioExceptionId)).constructors.map
        ConstructorDef.params := by
  obtain ⟨l, h, htest⟩ := exists_isLinked ioStringUnits Library.units
    (fun l => decide ([.declared 0] ∈
      (l.table.classAt (ioStringUnits.length + ioExceptionId)).constructors.map
        ConstructorDef.params)) (by decide +kernel)
  obtain ⟨l₀, h₀, -⟩ := exists_isLinked [] Library.units (fun _ => true) (by decide +kernel)
  exact ⟨l, l₀, h, h₀, of_decide_eq_true htest⟩

/-- That class changes the signature of `java.io.IOException`. -/
theorem ioString_captured :
    ¬ ∀ program l l₀, IsLinked program Library.units l → IsLinked [] Library.units l₀ →
      ∀ id < Library.units.length, l.table.classAt (program.length + id) =
        (l₀.table.classAt id).rename (.shift program.length) := by
  intro hsame
  obtain ⟨l, l₀, h, h₀, hparams⟩ := exists_ioString_linked
  rw [hsame _ l l₀ h h₀ ioExceptionId ioExceptionId_lt] at hparams
  simp only [ClassDef.rename, List.map_map, List.mem_map] at hparams
  obtain ⟨c, -, hc⟩ := hparams
  obtain ⟨type, htype, hzero⟩ := List.mem_map.mp (hc ▸ List.mem_singleton_self (Ty.declared 0))
  cases type with
  | declared other =>
    exact absurd (Ty.declared.inj hzero) (Nat.ne_of_gt (Nat.lt_add_right other Nat.one_pos))
  | _ => cases hzero

/-- Its constructor takes the string of the program. -/
theorem ioString_signature :
    ∃ l l₀ unit, IsLinked ioStringUnits Library.units l ∧ IsLinked [] Library.units l₀ ∧
      Library.units[ioExceptionId]? = some unit ∧
      l.table.classAt (ioStringUnits.length + ioExceptionId) =
        unit.signature
          (fun name => (declaredIn? ioStringUnits unit.packageName name).getD
            (ioStringUnits.length + l₀.symbols.denotation ioExceptionId name))
          (some (ioStringUnits.length + l₀.table.wellKnown.object)) := by
  obtain ⟨l, l₀, h, h₀, -⟩ := exists_ioString_linked
  obtain ⟨unit, hunit⟩ : ∃ unit, Library.units[ioExceptionId]? = some unit :=
    ⟨_, List.getElem?_eq_getElem ioExceptionId_lt⟩
  exact ⟨l, l₀, unit, h, h₀, hunit, (library_signature h h₀ hunit).1.2⟩

end JoosStatics
