/-
JoosStatics.Proofs.Hierarchy.TypeOrder — an accepted hierarchy orders the types.

The hierarchy check rules out cycles, and the bundled library puts the types
above arrays on top. So assignment conversion is a partial order on all types,
and subtyping one on the classes and interfaces, with `java.lang.Object` as
the greatest of them.

* `checkHierarchy_acyclic` — no type of an accepted hierarchy is above itself.
* `assignability_isPartialOrder` — the two orders, and that the library provides
  for what they rest on.
-/
import JoosStatics.Proofs.Hierarchy.Accepted
import JoosStatics.Proofs.Linking.CoreTypes

namespace JoosStatics

/-- A program that passes up to the hierarchy is linked. -/
theorem HasHierarchy.isLinked {program library : List CompilationUnit} {l : Linked} {h : Hierarchy}
    (hh : HasHierarchy program library l h) : IsLinked program library l := by
  obtain ⟨s, hbuild, hlink, -⟩ := hh
  exact ⟨s, hbuild, hlink⟩

namespace TypeTable

variable {t : TypeTable} {h : Hierarchy}

/-- No type of an accepted hierarchy is above itself. -/
theorem checkHierarchy_acyclic (hsups : ∀ {sub sup}, t.Extends sub sup → sup < t.size)
    (hcheck : t.checkHierarchy = .ok h) (id : ClassId) : ¬ Relation.TransGen t.Extends id id :=
  (checkHierarchy_checked hsups hcheck).accepted.acyclic id

/-- An accepted hierarchy orders its classes and interfaces when nothing is above
`java.lang.Object`. -/
theorem isPartialOrder_isSubclass (hsups : ∀ {sub sup}, t.Extends sub sup → sup < t.size)
    (hcheck : t.checkHierarchy = .ok h)
    (hobject : (t.classAt t.wellKnown.object).directSupertypes = []) :
    IsPartialOrder ClassId (fun a b => t.isSubclass a b = true) where
  refl := t.isSubclass_self
  trans _ _ _ := isSubclass_trans_of_top hobject
  antisymm _ _ := isSubclass_antisymm hobject (checkHierarchy_acyclic hsups hcheck)

/-- An accepted hierarchy orders all types when nothing is above the types above arrays. -/
theorem isPartialOrder_isAssignable (hsups : ∀ {sub sup}, t.Extends sub sup → sup < t.size)
    (hcheck : t.checkHierarchy = .ok h) (htop : t.ArrayTypesOnTop) :
    IsPartialOrder Ty (fun a b => t.isAssignable a b = true) := by
  simp only [isAssignable_iff]
  exact {
    refl := .refl
    trans := fun _ _ _ hab hbc => hab.trans htop hbc
    antisymm := fun _ _ hab hba =>
      hab.antisymm (htop _ (.inl rfl)) (checkHierarchy_acyclic hsups hcheck) hba }

end TypeTable

/-- A program that is linked with the library orders its types. -/
theorem HasHierarchy.isPartialOrder {program : List CompilationUnit} {l : Linked} {h : Hierarchy}
    (hh : HasHierarchy program Library.units l h) :
    IsPartialOrder Ty (fun a b => l.table.isAssignable a b = true) := by
  have ⟨_, _, _, hcheck⟩ := hh
  exact TypeTable.isPartialOrder_isAssignable hh.wellLinked.supertype_lt hcheck
    hh.isLinked.arrayTypesOnTop

/-- In an accepted hierarchy with the types above arrays on top, assignment conversion orders
all types and subtyping the classes and interfaces, with `java.lang.Object` above all others.
In a program that is linked with the library these types are on top. -/
theorem assignability_isPartialOrder :
    (∀ (t : TypeTable) (h : Hierarchy), (∀ {sub sup}, t.Extends sub sup → sup < t.size) →
      t.checkHierarchy = .ok h → t.ArrayTypesOnTop →
      IsPartialOrder Ty (fun a b => t.isAssignable a b = true) ∧
      IsPartialOrder ClassId (fun a b => t.isSubclass a b = true) ∧
      ∀ id, t.isSubclass id t.wellKnown.object = true) ∧
    ∀ program l, IsLinked program Library.units l → l.table.ArrayTypesOnTop := by
  refine ⟨fun t h hsups hcheck htop => ⟨?_, ?_, t.isSubclass_object⟩,
    fun program l hlinked => hlinked.arrayTypesOnTop⟩
  · exact TypeTable.isPartialOrder_isAssignable hsups hcheck htop
  · exact TypeTable.isPartialOrder_isSubclass hsups hcheck (htop _ (.inl rfl))

/-- An interface, a class below it that can be copied and stored, and a final class that is
not below it. -/
def solids : List CompilationUnit :=
  unitsOf [
    Library.interfaceNamed "Solid",
    ((((Library.classNamed "Ball").implementing "Solid").implementing "Cloneable").implementing
      "java.io.Serializable"),
    Library.marking .final (Library.classNamed "Label")]

/-- The program has a hierarchy, in which arrays of labels cannot be cast to arrays of solids. -/
theorem solids_hasHierarchy : ∃ l h, HasHierarchy solids Library.units l h ∧
    l.table.isCastable (.array (.declared 2)) (.array (.declared 0)) = false := by
  obtain ⟨l, h, hh, htest⟩ := exists_hasHierarchy solids Library.units
    (fun l _ => !l.table.isCastable (.array (.declared 2)) (.array (.declared 0)))
    (by decide +kernel)
  exact ⟨l, h, hh, by simpa using htest⟩

/-- The types of the program are ordered. -/
theorem solids_types_ordered :
    ∃ l h, HasHierarchy solids Library.units l h ∧
      (∀ {sub sup}, l.table.Extends sub sup → sup < l.table.size) ∧
      l.table.checkHierarchy = .ok h ∧ l.table.ArrayTypesOnTop ∧
      IsPartialOrder Ty (fun a b => l.table.isAssignable a b = true) := by
  obtain ⟨l, h, hh, -⟩ := solids_hasHierarchy
  have ⟨_, _, _, hcheck⟩ := hh
  have htop := assignability_isPartialOrder.2 solids l hh.isLinked
  exact ⟨l, h, hh, hh.wellLinked.supertype_lt, hcheck, htop,
    (assignability_isPartialOrder.1 l.table h hh.wellLinked.supertype_lt hcheck htop).1⟩

end JoosStatics
