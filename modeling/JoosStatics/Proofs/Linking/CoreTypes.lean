/-
JoosStatics.Proofs.Linking.CoreTypes — the types above arrays, as the bundled
library declares them.

Arrays can be assigned to `java.lang.Object`, `java.lang.Cloneable` and
`java.io.Serializable`. No program declares these types, since no full name is
declared twice; so in every program they are what the library makes them: types
without direct supertypes, the last two of them interfaces. Their headers name
no other type, so nothing that the program declares gets into them.
-/
import JoosStatics.Proofs.Linking.Library
import JoosStatics.Proofs.Types.Assignability

namespace JoosStatics

variable {program library : List CompilationUnit} {l : Linked}

/-- The unit that has the name of a given one is that one. -/
theorem SymbolTable.build_unitAt_eq {s : SymbolTable} (h : build program library = .ok s)
    {unit : CompilationUnit} (hunit : unit ∈ program ++ library) {id : ClassId} (hid : id < s.size)
    (hname : (s.unitAt id).typeName = unit.typeName) : s.unitAt id = unit := by
  obtain ⟨-, hunits, -⟩ := build_spec h
  have hmem : s.unitAt id ∈ program ++ library := by
    rw [← hunits, unitAt, Array.getD_eq_getD_getElem?, Array.getElem?_eq_getElem hid]
    exact Array.mem_toList_iff.mpr (Array.getElem_mem hid)
  exact List.inj_on_of_nodup_map (build_isOk_iff.mp ⟨s, h⟩) hmem hunit hname

/-- A type that the rules mention has the signature of the library unit with its name. -/
theorem IsLinked.classAt_of_require (h : IsLinked program library l) {unit : CompilationUnit}
    (hunit : unit ∈ library) {dotted : String} (hname : unit.typeName = .ofDotted dotted)
    {id : ClassId} (hid : TypeTable.require l.table.classes dotted = .ok id) :
    ∃ denote object, l.table.classAt id = unit.signature denote object := by
  obtain ⟨s, hbuild, hlink⟩ := h
  obtain ⟨hlt, hat⟩ := TypeTable.require_eq_ok hid
  obtain ⟨-, hsize, -⟩ := SymbolTable.link_eq_ok (SymbolTable.build_indexed hbuild) hlink
  have hin : id < s.size := hsize ▸ hlt
  have hsignature := SymbolTable.link_classAt hlink hin
  have hfound : s.unitAt id = unit := by
    refine SymbolTable.build_unitAt_eq hbuild (List.mem_append_right _ hunit) hin ?_
    rw [hname, ← hat]
    exact (congrArg ClassDef.name hsignature).symm
  rw [SymbolTable.signatureOf, hfound] at hsignature
  exact ⟨_, _, hsignature⟩

/-- A declaration that names no supertypes, and gets none, has none. -/
theorem CompilationUnit.directSupertypes_signature {denote : QualifiedName → ClassId}
    {object : Option ClassId} {unit : CompilationUnit} (himplicit : unit.hasImplicitSuperclass = false)
    (hsuperclass : unit.decl.superclass = none) (hinterfaces : unit.decl.interfaces = []) :
    (unit.signature denote object).directSupertypes = [] := by
  have hnone : unit.decl.classSuperclass = none := by
    unfold TypeDecl.classSuperclass
    split
    · rfl
    · exact hsuperclass
  simp [ClassDef.directSupertypes, signature, superclassIn, himplicit, hnone, hinterfaces]

namespace Library

/-- The unit of `java.lang.Object`. -/
def objectUnit : CompilationUnit := toUnit "java.lang" objectClass

/-- The unit of `java.lang.Cloneable`. -/
def cloneableUnit : CompilationUnit := toUnit "java.lang" (interfaceNamed "Cloneable")

/-- The unit of `java.io.Serializable`. -/
def serializableUnit : CompilationUnit := toUnit "java.io" (interfaceNamed "Serializable")

theorem objectUnit_mem : objectUnit ∈ units :=
  List.mem_append_left _ (List.mem_map_of_mem (by simp [langTypes]))

theorem cloneableUnit_mem : cloneableUnit ∈ units :=
  List.mem_append_left _ (List.mem_map_of_mem (by simp [langTypes]))

theorem serializableUnit_mem : serializableUnit ∈ units :=
  List.mem_append_right _ (List.mem_append_left _ (List.mem_map_of_mem (by simp [ioTypes])))

end Library

namespace IsLinked

/-- The types above arrays have the signatures of their library units. -/
theorem classAt_aboveArrays (h : IsLinked program Library.units l) {id : ClassId}
    (hid : l.table.IsAboveArrays id) :
    ∃ unit denote object, l.table.classAt id = unit.signature denote object ∧
      (id = l.table.wellKnown.object ∧ unit = Library.objectUnit ∨
        unit = Library.cloneableUnit ∨ unit = Library.serializableUnit) := by
  have ⟨s, _, hlink⟩ := h
  obtain ⟨hclasses, hobject, hcloneable, hserializable, -⟩ :=
    TypeTable.ofClasses_requires (SymbolTable.link_lowers hlink).1.table
  rw [← hclasses] at hobject hcloneable hserializable
  rcases hid with rfl | rfl | rfl
  · obtain ⟨denote, object, hat⟩ :=
      h.classAt_of_require Library.objectUnit_mem (by decide +kernel) hobject
    exact ⟨_, denote, object, hat, .inl ⟨rfl, rfl⟩⟩
  · obtain ⟨denote, object, hat⟩ :=
      h.classAt_of_require Library.cloneableUnit_mem (by decide +kernel) hcloneable
    exact ⟨_, denote, object, hat, .inr (.inl rfl)⟩
  · obtain ⟨denote, object, hat⟩ :=
      h.classAt_of_require Library.serializableUnit_mem (by decide +kernel) hserializable
    exact ⟨_, denote, object, hat, .inr (.inr rfl)⟩

/-- In every program the types above arrays have no direct supertypes. -/
theorem arrayTypesOnTop (h : IsLinked program Library.units l) : l.table.ArrayTypesOnTop := by
  intro id hid
  obtain ⟨unit, denote, object, hat, ⟨-, rfl⟩ | rfl | rfl⟩ := h.classAt_aboveArrays hid
  · rw [hat]
    exact CompilationUnit.directSupertypes_signature (by decide +kernel) rfl rfl
  · rw [hat]
    exact CompilationUnit.directSupertypes_signature rfl rfl rfl
  · rw [hat]
    exact CompilationUnit.directSupertypes_signature rfl rfl rfl

/-- In every program the types above arrays are interfaces but for `java.lang.Object`. -/
theorem isInterface_of_isAboveArrays (h : IsLinked program Library.units l) {id : ClassId}
    (hid : l.table.IsAboveArrays id) :
    id = l.table.wellKnown.object ∨ (l.table.classAt id).isInterface = true := by
  obtain ⟨unit, denote, object, hat, ⟨hobject, -⟩ | rfl | rfl⟩ := h.classAt_aboveArrays hid
  · exact .inl hobject
  · exact .inr (hat ▸ rfl)
  · exact .inr (hat ▸ rfl)

end IsLinked

end JoosStatics
