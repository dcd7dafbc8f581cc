/-
JoosStatics.Proofs.Linking.Declarations — signatures follow declarations.

Linking turns every declared type into a signature, while names are looked
up and answers remembered across all of them. §1 says what it is for a
signature to follow its declaration: member by member and in order, with
each written type denoting what it denotes when nothing has been looked up
before. §2 shows it of the signatures of a linked program.

* `LowersUnit` — a signature follows the declaration of a unit.
* `link_faithful` — the table has one such signature for each unit, under
  the number of the unit.
-/
import Mathlib.Data.List.Forall2
import JoosStatics.Proofs.Linking.Library

namespace JoosStatics.SymbolTable

variable {s : SymbolTable} {id : ClassId}

/-! ## §1 Following a declaration -/

/-- A reference denotes a type when it is the first to be resolved. -/
def RefDenotes (s : SymbolTable) (id : ClassId) (ref : TypeRef) (found : ClassId) : Prop :=
  (s.resolveRef id ref {}).1 = .ok found

/-- A written type denotes a type when it is the first to be resolved. -/
def TypeDenotes (s : SymbolTable) (id : ClassId) (type : TypeSyntax) (found : Ty) : Prop :=
  (s.resolveType id type {}).1 = .ok found

/-- The signature of a field follows its declaration. -/
structure LowersField (s : SymbolTable) (id : ClassId) (d : FieldDecl) (f : FieldDef) : Prop where
  name : f.name = d.name
  type : s.TypeDenotes id d.type f.type
  modifiers : f.modifiers = d.modifiers
  span : f.span = d.range

/-- The parameters and the throws clause of a signature follow those written. -/
structure LowersParams (s : SymbolTable) (id : ClassId) (params : List Param)
    (throws : List TypeRef) (paramTypes : List Ty) (thrown : List ClassId) : Prop where
  params : List.Forall₂ (fun param type => s.TypeDenotes id param.type type) params paramTypes
  throws : List.Forall₂ (s.RefDenotes id) throws thrown

/-- The signature of a method follows its declaration; in an interface it is public and
abstract as well. -/
structure LowersMethod (s : SymbolTable) (id : ClassId) (isInterface : Bool) (d : MethodDecl)
    (m : MethodDef) : Prop extends s.LowersParams id d.params d.throws m.params m.throws where
  name : m.name = d.name
  returnType : d.returnType.elim (m.returnType = .void)
    (fun type => s.TypeDenotes id type m.returnType)
  modifiers : m.modifiers =
    if isInterface then d.modifiers ||| (.public ||| .abstract) else d.modifiers
  span : m.span = d.range

/-- The signature of a constructor follows its declaration. -/
structure LowersConstructor (s : SymbolTable) (id : ClassId) (d : ConstructorDecl)
    (c : ConstructorDef) : Prop extends
    s.LowersParams id d.params d.throws c.params c.throws where
  modifiers : c.modifiers = d.modifiers
  span : c.span = d.range
  isDefault : c.isDefault = false

/-- The superclass of a signature is the one that is written, and else that of all
classes; interfaces have none, nor has the class above all others. -/
inductive LowersSuperclass (s : SymbolTable) (id : ClassId) (u : CompilationUnit) :
    Option ClassId → Prop
  | ofInterface (h : u.decl.isInterface = true) : s.LowersSuperclass id u none
  | written {ref : TypeRef} {found : ClassId} (h : u.decl.isInterface = false)
      (href : u.decl.superclass = some ref) (hfound : s.RefDenotes id ref found) :
      s.LowersSuperclass id u (some found)
  | topmost (h : u.decl.isInterface = false) (hnone : u.decl.superclass = none)
      (hname : u.typeName = objectName) : s.LowersSuperclass id u none
  | implicit {object : ClassId} (h : u.decl.isInterface = false)
      (hnone : u.decl.superclass = none) (hname : u.typeName ≠ objectName)
      (hobject : s.lookup objectName = some object) : s.LowersSuperclass id u (some object)

/-- The constructors of a signature: none for an interface, those of a class that declares
some, and else the default one. -/
inductive LowersConstructors (s : SymbolTable) (id : ClassId) (d : TypeDecl) :
    List ConstructorDef → Prop
  | ofInterface (h : d.isInterface = true) : s.LowersConstructors id d []
  | default (h : d.isInterface = false) (hnone : d.constructors = []) :
      s.LowersConstructors id d [defaultConstructor d]
  | declared {constructors : List ConstructorDef} (h : d.isInterface = false)
      (hsome : d.constructors ≠ [])
      (hall : List.Forall₂ (s.LowersConstructor id) d.constructors constructors) :
      s.LowersConstructors id d constructors

/-- The signature of a type follows the declaration of its unit. -/
structure LowersUnit (s : SymbolTable) (id : ClassId) (u : CompilationUnit) (d : ClassDef) :
    Prop where
  name : d.name = u.typeName
  kind : d.kind = u.decl.kind
  modifiers : d.modifiers = u.decl.modifiers
  superclass : s.LowersSuperclass id u d.superclass
  interfaces : List.Forall₂ (s.RefDenotes id) u.decl.interfaces d.interfaces
  fields : List.Forall₂ (s.LowersField id) u.decl.fields d.fields
  constructors : s.LowersConstructors id u.decl d.constructors
  methods : List.Forall₂ (s.LowersMethod id u.decl.isInterface) u.decl.methods d.methods
  span : d.span = u.decl.range

/-- The superclass is absent for interfaces and the class above all others only. -/
theorem LowersSuperclass.eq_none_iff {u : CompilationUnit} {superclass : Option ClassId}
    (h : s.LowersSuperclass id u superclass) : superclass = none ↔
      u.decl.isInterface = true ∨ u.typeName = objectName ∧ u.decl.superclass = none := by
  cases h with
  | ofInterface h => simp [h]
  | written h href => simp [h, href]
  | topmost h hnone hname => simp [hnone, hname]
  | implicit h hnone hname => simp [h, hname]

/-- A class has one default constructor when it declares none, and no default constructor
when it declares some. -/
theorem LowersConstructors.countP_isDefault {d : TypeDecl} {constructors : List ConstructorDef}
    (h : s.LowersConstructors id d constructors) (hclass : d.isInterface = false) :
    constructors.countP ConstructorDef.isDefault = if d.constructors = [] then 1 else 0 := by
  cases h with
  | ofInterface h =>
    rw [h] at hclass
    cases hclass
  | default _ hnone =>
    rw [if_pos hnone]
    rfl
  | declared _ hsome hall =>
    rw [if_neg hsome, List.countP_eq_zero]
    intro c hc
    obtain ⟨i, hi, rfl⟩ := List.getElem_of_mem hc
    have hdeclared : constructors[i].isDefault = false :=
      (hall.get (hall.length_eq ▸ hi) hi).isDefault
    exact hdeclared ▸ Bool.false_ne_true

/-! ## §2 Signatures follow declarations -/

/-- All of some names denote types in a unit. -/
def AllNamed (s : SymbolTable) (id : ClassId) (names : List QualifiedName) : Prop :=
  ∀ name ∈ names, (s.namedType? id name).isSome = true

/-- What names denote is found when nothing has been looked up before. -/
theorem DenotesIn.run_empty {α : Type} {x : LookupM α} {names : List QualifiedName} {value : α}
    (hx : s.DenotesIn id x names value) (h : s.AllNamed id names) : (x {}).1 = .ok value := by
  obtain ⟨-, ⟨-, hvalue, -⟩ | ⟨hinvalid, -⟩⟩ := hx {} s.recorded_empty
  · exact hvalue
  · exact absurd h hinvalid

theorem refDenotes_of_named {ref : TypeRef} (h : s.AllNamed id [ref.name]) :
    s.RefDenotes id ref (s.denotation id ref.name) :=
  (resolveRef_denotes id ref).run_empty h

theorem typeDenotes_of_named {type : TypeSyntax} (h : s.AllNamed id type.names) :
    s.TypeDenotes id type (type.typeIn (s.denotation id)) :=
  (resolveType_denotes id type).run_empty h

theorem refsDenote_of_named {refs : List TypeRef} (h : s.AllNamed id (refs.map TypeRef.name)) :
    List.Forall₂ (s.RefDenotes id) refs (refs.map (fun ref => s.denotation id ref.name)) := by
  rw [List.forall₂_map_right_iff, List.forall₂_same]
  intro ref href
  refine refDenotes_of_named (fun name hname => ?_)
  rw [List.mem_singleton.mp hname]
  exact h ref.name (List.mem_map_of_mem href)

theorem lowersField_signature {f : FieldDecl} (h : s.AllNamed id f.type.names) :
    s.LowersField id f (f.signature (s.denotation id)) where
  name := rfl
  type := typeDenotes_of_named h
  modifiers := rfl
  span := rfl

theorem lowersParams_signature {params : List Param} {result : Option TypeSyntax}
    {throws : List TypeRef} (h : s.AllNamed id (signatureNames params result throws)) :
    s.LowersParams id params throws (params.map (fun p => p.type.typeIn (s.denotation id)))
      (throws.map (fun ref => s.denotation id ref.name)) where
  params := by
    rw [List.forall₂_map_right_iff, List.forall₂_same]
    exact fun p hp => typeDenotes_of_named (fun name hname =>
      h name (List.mem_append_left _ (List.mem_flatMap_of_mem hp hname)))
  throws := refsDenote_of_named (fun name hname =>
    h name (List.mem_append_right _ (List.mem_append_right _ hname)))

theorem lowersMethod_signature {isInterface : Bool} {m : MethodDecl}
    (h : s.AllNamed id (signatureNames m.params m.returnType m.throws)) :
    s.LowersMethod id isInterface m (m.signature (s.denotation id) isInterface) where
  toLowersParams := lowersParams_signature h
  name := rfl
  returnType := by
    unfold MethodDecl.signature
    unfold signatureNames at h
    cases hresult : m.returnType with
    | none => rfl
    | some type =>
      rw [hresult] at h
      exact typeDenotes_of_named (fun name hname =>
        h name (List.mem_append_right _ (List.mem_append_left _ hname)))
  modifiers := rfl
  span := rfl

theorem lowersConstructor_signature {c : ConstructorDecl}
    (h : s.AllNamed id (signatureNames c.params none c.throws)) :
    s.LowersConstructor id c (c.signature (s.denotation id)) where
  toLowersParams := lowersParams_signature h
  modifiers := rfl
  span := rfl
  isDefault := rfl

theorem lowersSuperclass_signature {u : CompilationUnit}
    (hnames : s.AllNamed id (u.decl.classSuperclass.toList.map TypeRef.name))
    (hobject : u.hasImplicitSuperclass = true → (s.lookup objectName).isSome) :
    s.LowersSuperclass id u (u.superclassIn (s.denotation id) (s.lookup objectName)) := by
  unfold CompilationUnit.superclassIn
  unfold CompilationUnit.hasImplicitSuperclass at *
  unfold TypeDecl.classSuperclass at *
  cases hinterface : u.decl.isInterface with
  | true => exact .ofInterface hinterface
  | false =>
    rw [hinterface] at hnames hobject
    cases hwritten : u.decl.superclass with
    | some ref =>
      rw [hwritten] at hnames
      exact .written hinterface hwritten (refDenotes_of_named hnames)
    | none =>
      rw [hwritten] at hobject
      by_cases hname : u.typeName = objectName
      · simpa [hname] using LowersSuperclass.topmost hinterface hwritten hname
      · have himplicit : (!false && (none : Option TypeRef).isNone && u.typeName != objectName) =
            true := by simpa using hname
        obtain ⟨object, hfound⟩ := Option.isSome_iff_exists.mp (hobject himplicit)
        rw [if_pos himplicit, hfound]
        exact .implicit hinterface hwritten hname hfound

theorem lowersConstructors_signature {d : TypeDecl} (h : s.AllNamed id
      (d.classConstructors.flatMap (fun c => signatureNames c.params none c.throws))) :
    s.LowersConstructors id d (d.constructorSignatures (s.denotation id)) := by
  unfold TypeDecl.constructorSignatures
  unfold TypeDecl.classConstructors at h
  cases hinterface : d.isInterface with
  | true => exact .ofInterface hinterface
  | false =>
    rw [hinterface] at h
    simp only [Bool.false_eq_true, if_false] at h ⊢
    by_cases hempty : d.constructors = []
    · rw [if_pos (List.isEmpty_iff.mpr hempty)]
      exact .default hinterface hempty
    · rw [if_neg (mt List.isEmpty_iff.mp hempty)]
      refine .declared hinterface hempty ?_
      rw [List.forall₂_map_right_iff, List.forall₂_same]
      exact fun c hc => lowersConstructor_signature (fun name hname =>
        h name (List.mem_flatMap_of_mem hc hname))

/-- The signature of a unit whose names all denote types follows the declaration. -/
theorem lowersUnit_signatureOf (h : s.Resolvable id) :
    s.LowersUnit id (s.unitAt id) (s.signatureOf id) := by
  have hnames : s.AllNamed id (s.unitAt id).decl.signatureNames :=
    fun name hname => h.names name (List.mem_append_left _ hname)
  obtain ⟨hsuperclass, hnames⟩ := List.forall_mem_append.mp hnames
  obtain ⟨hinterfaces, hnames⟩ := List.forall_mem_append.mp hnames
  obtain ⟨hfields, hnames⟩ := List.forall_mem_append.mp hnames
  obtain ⟨hmethods, hconstructors⟩ := List.forall_mem_append.mp hnames
  refine ⟨rfl, rfl, rfl, lowersSuperclass_signature hsuperclass h.object,
    refsDenote_of_named hinterfaces, ?_, lowersConstructors_signature hconstructors, ?_, rfl⟩
  · refine List.forall₂_map_right_iff.mpr (List.forall₂_same.mpr (fun f hf => ?_))
    exact lowersField_signature (fun name hname => hfields name (List.mem_flatMap_of_mem hf hname))
  · refine List.forall₂_map_right_iff.mpr (List.forall₂_same.mpr (fun m hm => ?_))
    exact lowersMethod_signature (fun name hname =>
      hmethods name (List.mem_flatMap_of_mem hm hname))

/-- Linking gives every unit a signature that follows its declaration, under the number and
the name of the unit. -/
theorem link_faithful {program library : List CompilationUnit} {l : Linked}
    (hbuild : build program library = .ok s) (hlink : s.link = .ok l) :
    l.table.size = s.size ∧ (∀ name, l.table.lookup name = s.lookup name) ∧
    ∀ id < s.size, s.LowersUnit id (s.unitAt id) (l.table.classAt id) ∧
      ((l.table.classAt id).superclass = none ↔ (s.unitAt id).decl.isInterface = true ∨
        (s.unitAt id).typeName = objectName ∧ (s.unitAt id).decl.superclass = none) ∧
      ((s.unitAt id).decl.isInterface = false →
        (l.table.classAt id).constructors.countP ConstructorDef.isDefault =
          if (s.unitAt id).decl.constructors = [] then 1 else 0) := by
  have hs := build_indexed hbuild
  obtain ⟨hlowers, -, -⟩ := link_lowers hlink
  have hclasses := (TypeTable.ofClasses_eq_ok hlowers.table).1
  refine ⟨(link_eq_ok hs hlink).2.1, fun name => ?_, fun id hid => ?_⟩
  · unfold TypeTable.lookup
    rw [hclasses, indexIn_signatures hs]
  · have hunit := lowersUnit_signatureOf (hlowers.resolvable id (List.mem_range.mpr hid))
    rw [link_classAt hlink hid]
    exact ⟨hunit, hunit.superclass.eq_none_iff, hunit.constructors.countP_isDefault⟩

/-- A class that is named like one of the library follows its own declaration. -/
theorem ioString_faithful : ∃ s l, build ioStringUnits Library.units = .ok s ∧
    s.link = .ok l ∧ s.LowersUnit 0 (s.unitAt 0) (l.table.classAt 0) := by
  obtain ⟨l, -, ⟨s, hbuild, hlink⟩, -⟩ := exists_ioString_linked
  have hsize : 0 < s.size := by
    refine Nat.lt_of_lt_of_le ?_ (build_programSize_le hbuild)
    rw [(build_spec hbuild).2.2]
    exact Nat.one_pos
  exact ⟨s, l, hbuild, hlink, ((link_faithful hbuild hlink).2.2 0 hsize).1⟩

end JoosStatics.SymbolTable
