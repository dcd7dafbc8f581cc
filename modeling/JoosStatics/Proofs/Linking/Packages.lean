/-
JoosStatics.Proofs.Linking.Packages — the rule on clashes, package by package.

The rule reports one clash, but it is about every package that the program
refers to: those that its units name and those that supplied a type.
-/
import JoosStatics.Linking.Packages
import JoosStatics.Proofs.Linking.Signatures

namespace JoosStatics

namespace SymbolTable

variable {s : SymbolTable} {used : OrderedSet PackageName}

/-- The packages that the units of the program name themselves. -/
def namedPackages (s : SymbolTable) : List PackageName :=
  s.programIds.flatMap (fun id =>
    (s.unitAt id).packageName :: (s.importsOf id).single.map (fun imp => imp.path.parent))

/-- The packages that a program refers to, the default package aside: those that its
units name, and those that supply a type to one of them. -/
def RefersTo (s : SymbolTable) (package : PackageName) : Prop :=
  package ≠ {} ∧ (package ∈ s.namedPackages ∨
    ∃ key ∈ s.linkedKeys, package ∈ (s.findSimple key.1 key.2 {}).2)

theorem mem_referencedPackages {package : PackageName} :
    package ∈ (s.referencedPackages used).keys ↔
      package ≠ {} ∧ (package ∈ s.namedPackages ∨ package ∈ used.keys) := by
  show package ∈ ((s.namedPackages.foldl OrderedSet.add used).erase {}).keys ↔ _
  rw [OrderedMap.mem_keys_erase, OrderedMap.mem_keys_foldl_add]

/-- The rule on clashes is about every package that the program refers to. -/
theorem checkPackageClashes_eq_ok :
    s.checkPackageClashes used = .ok () ↔
      ∀ package ∈ (s.referencedPackages used).keys, s.clashOf? package = none := by
  unfold checkPackageClashes
  cases hfind : (s.referencedPackages used).keys.findSome? (fun package =>
      (s.clashOf? package).map (fun id => (package, id))) with
  | none => simpa using hfind
  | some clash =>
    obtain ⟨package, hpackage, hclash⟩ := List.exists_of_findSome?_eq_some hfind
    obtain ⟨id, hid, -⟩ := Option.map_eq_some_iff.mp hclash
    constructor
    · intro h
      cases h
    · intro h
      rw [h package hpackage] at hid
      cases hid

end SymbolTable

end JoosStatics
