/-
JoosStatics.Proofs.Renaming.Basic — two accounts of one program.

Types, members and variables are numbers, and places are spans. A
`Renaming` says which numbers and places of one account of a program stand
for those of another. `TypeTable.Renames` says that two tables give the
same account up to a renaming; then subtyping, assignment, casts, messages
and the selection of overloads are the same (§3, §4).
-/
import JoosStatics.Proofs.StatefulRuns
import JoosStatics.Proofs.Types.Supertypes
import JoosStatics.Bodies.Calls

namespace JoosStatics

/-! ## §1 Renamings -/

/-- How types, members, variables and places of one account of a program are named
in another. Different types stay different, and a missing place stays missing.
Variables need not correspond one to one. -/
structure Renaming where
  type : ClassId → ClassId
  field : FieldRef → FieldRef
  method : MethodRef → MethodRef
  constructor : ConstructorRef → ConstructorRef
  sameLocal : LocalId → LocalId → Prop
  span : Span → Span
  type_injective : Function.Injective type
  span_default : span {} = {}

namespace Renaming

/-- Nothing is renamed but variables. -/
def identity (sameLocal : LocalId → LocalId → Prop) : Renaming where
  type := id
  field := id
  method := id
  constructor := id
  sameLocal := sameLocal
  span := id
  type_injective := Function.injective_id
  span_default := rfl

variable (sameLocal : LocalId → LocalId → Prop)

@[simp] theorem type_identity : (identity sameLocal).type = id := rfl

@[simp] theorem span_identity : (identity sameLocal).span = id := rfl

end Renaming

/-- The same type under other numbers. -/
def Ty.rename (σ : ClassId → ClassId) : Ty → Ty
  | .primitive p => .primitive p
  | .declared id => .declared (σ id)
  | .array element => .array (element.rename σ)
  | .null => .null
  | .void => .void

namespace Ty

variable {σ : ClassId → ClassId}

@[simp] theorem rename_id (a : Ty) : a.rename id = a := by
  induction a with
  | array element ih => exact congrArg _ ih
  | _ => rfl

theorem rename_comp (σ τ : ClassId → ClassId) (a : Ty) :
    (a.rename σ).rename τ = a.rename (τ ∘ σ) := by
  induction a with
  | array element ih => exact congrArg _ ih
  | _ => rfl

theorem rename_injective (hσ : Function.Injective σ) : Function.Injective (Ty.rename σ) := by
  intro a b h
  induction a generalizing b with
  | array element ih =>
    cases b with
    | array other => exact congrArg _ (ih (Ty.array.inj h))
    | _ => cases h
  | declared i =>
    cases b with
    | declared j => exact congrArg _ (hσ (Ty.declared.inj h))
    | _ => cases h
  | primitive p =>
    cases b with
    | primitive q => exact h
    | _ => cases h
  | null => cases b <;> first | rfl | cases h
  | void => cases b <;> first | rfl | cases h

@[simp] theorem isNumeric_rename (a : Ty) : (a.rename σ).isNumeric = a.isNumeric := by
  cases a <;> rfl

@[simp] theorem isBoolean_rename (a : Ty) : (a.rename σ).isBoolean = a.isBoolean := by
  cases a <;> rfl

@[simp] theorem isReference_rename (a : Ty) : (a.rename σ).isReference = a.isReference := by
  cases a <;> rfl

@[simp] theorem element?_rename (a : Ty) :
    (a.rename σ).element? = a.element?.map (Ty.rename σ) := by
  cases a <;> rfl

@[simp] theorem rename_eq_void {a : Ty} : a.rename σ = .void ↔ a = .void := by
  cases a <;> simp [rename]

theorem arrayOf_rename (dims : Nat) (base : Ty) :
    (arrayOf dims base).rename σ = arrayOf dims (base.rename σ) := by
  induction dims with
  | zero => rfl
  | succ dims ih => exact congrArg _ ih

end Ty

variable {ρ : Renaming}

/-- The same field in another account. -/
def FieldDef.rename (ρ : Renaming) (f : FieldDef) : FieldDef :=
  { f with type := f.type.rename ρ.type, span := ρ.span f.span }

/-- The same method in another account. -/
def MethodDef.rename (ρ : Renaming) (m : MethodDef) : MethodDef :=
  { m with
    params := m.params.map (Ty.rename ρ.type)
    returnType := m.returnType.rename ρ.type
    throws := m.throws.map ρ.type
    span := ρ.span m.span }

/-- The same constructor in another account. -/
def ConstructorDef.rename (ρ : Renaming) (c : ConstructorDef) : ConstructorDef :=
  { c with
    params := c.params.map (Ty.rename ρ.type)
    throws := c.throws.map ρ.type
    span := ρ.span c.span }

/-- The same signature in another account that keeps the order of the members. -/
def ClassDef.rename (ρ : Renaming) (d : ClassDef) : ClassDef :=
  { d with
    superclass := d.superclass.map ρ.type
    interfaces := d.interfaces.map ρ.type
    fields := d.fields.map (FieldDef.rename ρ)
    constructors := d.constructors.map (ConstructorDef.rename ρ)
    methods := d.methods.map (MethodDef.rename ρ)
    span := ρ.span d.span }

/-- The same library types under other numbers. -/
def WellKnown.rename (σ : ClassId → ClassId) (w : WellKnown) : WellKnown where
  object := σ w.object
  string := σ w.string
  cloneable := σ w.cloneable
  serializable := σ w.serializable
  throwable := σ w.throwable
  runtimeException := σ w.runtimeException
  error := σ w.error

/-- The same variable in another account. -/
def LocalVar.rename (ρ : Renaming) (v : LocalVar) : LocalVar :=
  { v with type := v.type.rename ρ.type, span := ρ.span v.span }

theorem map_rename_id (types : List Ty) : types.map (Ty.rename id) = types := by
  rw [funext Ty.rename_id]
  exact List.map_id types

section Identity

variable (sameLocal : LocalId → LocalId → Prop)

@[simp] theorem FieldDef.rename_identity (f : FieldDef) :
    f.rename (.identity sameLocal) = f := by
  simp [rename, Renaming.identity]

@[simp] theorem MethodDef.rename_identity (m : MethodDef) :
    m.rename (.identity sameLocal) = m := by
  simp [rename, Renaming.identity, map_rename_id]

@[simp] theorem ConstructorDef.rename_identity (c : ConstructorDef) :
    c.rename (.identity sameLocal) = c := by
  simp [rename, Renaming.identity, map_rename_id]

@[simp] theorem ClassDef.rename_identity (d : ClassDef) :
    d.rename (.identity sameLocal) = d := by
  have hfields : FieldDef.rename (.identity sameLocal) = id := funext (FieldDef.rename_identity _)
  have hmethods : MethodDef.rename (.identity sameLocal) = id :=
    funext (MethodDef.rename_identity _)
  have hconstructors : ConstructorDef.rename (.identity sameLocal) = id :=
    funext (ConstructorDef.rename_identity _)
  simp [rename, hfields, hmethods, hconstructors]

end Identity

/-! ## §2 Tables -/

/-- The constructors of a type. -/
def TypeTable.constructorsOf (t : TypeTable) (id : ClassId) : List ConstructorRef :=
  (List.range (t.classAt id).constructors.length).map (ConstructorRef.mk id)

/-- The constructors of a type, with their positions. -/
theorem TypeTable.constructors_zipIdx {α : Type} (t : TypeTable) (id : ClassId)
    (g : ConstructorRef → ConstructorDef → α) :
    (t.classAt id).constructors.zipIdx.map (fun entry => g ⟨id, entry.2⟩ entry.1) =
      (t.constructorsOf id).map (fun ref => g ref (t.constructorAt ref)) := by
  unfold constructorsOf
  rw [List.map_map]
  refine List.ext_getElem (by simp) (fun i h₁ h₂ => ?_)
  have hi : i < (t.classAt id).constructors.length := by simpa using h₁
  simp [constructorAt, hi]

/-- Two tables give the same account of every type. -/
structure TypeTable.Renames (ρ : Renaming) (t t' : TypeTable) : Prop where
  wellKnown : t'.wellKnown = t.wellKnown.rename ρ.type
  name : ∀ id, (t'.classAt (ρ.type id)).name = (t.classAt id).name
  kind : ∀ id, (t'.classAt (ρ.type id)).kind = (t.classAt id).kind
  modifiers : ∀ id, (t'.classAt (ρ.type id)).modifiers = (t.classAt id).modifiers
  superclass : ∀ id, (t'.classAt (ρ.type id)).superclass = (t.classAt id).superclass.map ρ.type
  interfaces : ∀ id, (t'.classAt (ρ.type id)).interfaces = (t.classAt id).interfaces.map ρ.type
  fieldAt : ∀ ref, t'.fieldAt (ρ.field ref) = (t.fieldAt ref).rename ρ
  methodAt : ∀ ref, t'.methodAt (ρ.method ref) = (t.methodAt ref).rename ρ
  constructorAt : ∀ ref, t'.constructorAt (ρ.constructor ref) = (t.constructorAt ref).rename ρ
  constructorsOf : ∀ id,
    (t'.constructorsOf (ρ.type id)).Perm ((t.constructorsOf id).map ρ.constructor)

namespace TypeTable

variable {t t' : TypeTable}

/-- A table gives the same account as itself. -/
theorem renames_refl (t : TypeTable) (sameLocal : LocalId → LocalId → Prop) :
    t.Renames (.identity sameLocal) t where
  wellKnown := rfl
  name _ := rfl
  kind _ := rfl
  modifiers _ := rfl
  superclass _ := Option.map_id.symm ▸ rfl
  interfaces _ := (List.map_id _).symm
  fieldAt _ := (FieldDef.rename_identity ..).symm
  methodAt _ := (MethodDef.rename_identity ..).symm
  constructorAt _ := (ConstructorDef.rename_identity ..).symm
  constructorsOf _ := (List.map_id _) ▸ .refl _

/-! ## §3 Relations of types -/

namespace Renames

variable (h : t.Renames ρ t')
include h

theorem isInterface (id : ClassId) :
    (t'.classAt (ρ.type id)).isInterface = (t.classAt id).isInterface := by
  unfold ClassDef.isInterface
  rw [h.kind]

theorem isFinal (id : ClassId) : (t'.classAt (ρ.type id)).isFinal = (t.classAt id).isFinal := by
  unfold ClassDef.isFinal
  rw [h.modifiers]

theorem isAbstract (id : ClassId) :
    (t'.classAt (ρ.type id)).isAbstract = (t.classAt id).isAbstract := by
  unfold ClassDef.isAbstract
  rw [h.isInterface, h.modifiers]

theorem simpleName (id : ClassId) :
    (t'.classAt (ρ.type id)).simpleName = (t.classAt id).simpleName := by
  unfold ClassDef.simpleName
  rw [h.name]

theorem nameOf (id : ClassId) : t'.nameOf (ρ.type id) = t.nameOf id := by
  unfold TypeTable.nameOf
  rw [h.name]

theorem display (a : Ty) : t'.display (a.rename ρ.type) = t.display a := by
  induction a with
  | declared id => exact h.nameOf id
  | array element ih => exact congrArg (· ++ "[]") ih
  | _ => rfl

theorem displayList (types : List Ty) :
    t'.displayList (types.map (Ty.rename ρ.type)) = t.displayList types := by
  unfold TypeTable.displayList
  rw [List.map_map]
  exact congrArg _ (List.map_congr_left (fun a _ => h.display a))

theorem signature (name : Name) (params : List Ty) :
    t'.signature name (params.map (Ty.rename ρ.type)) = t.signature name params := by
  unfold TypeTable.signature
  rw [h.displayList]

theorem methodSignature (m : MethodDef) : t'.methodSignature (m.rename ρ) = t.methodSignature m :=
  h.signature m.name m.params

theorem directSupertypes (id : ClassId) :
    (t'.classAt (ρ.type id)).directSupertypes = (t.classAt id).directSupertypes.map ρ.type := by
  unfold ClassDef.directSupertypes
  rw [h.superclass, h.interfaces]
  cases (t.classAt id).superclass <;> simp

theorem extends_iff {sub sup' : ClassId} :
    t'.Extends (ρ.type sub) sup' ↔ ∃ sup, t.Extends sub sup ∧ ρ.type sup = sup' := by
  unfold Extends
  rw [h.directSupertypes, List.mem_map]

theorem mem_supertypes_iff {sub sup : ClassId} :
    ρ.type sup ∈ t'.supertypes (ρ.type sub) ↔ sup ∈ t.supertypes sub := by
  rw [TypeTable.mem_supertypes_iff, TypeTable.mem_supertypes_iff]
  constructor
  · intro hchain
    suffices hmain : ∀ sup', Relation.ReflTransGen t'.Extends (ρ.type sub) sup' →
        ∃ sup, ρ.type sup = sup' ∧ Relation.ReflTransGen t.Extends sub sup by
      obtain ⟨found, hfound, hreach⟩ := hmain _ hchain
      rwa [ρ.type_injective hfound] at hreach
    intro sup' hchain
    induction hchain with
    | refl => exact ⟨sub, rfl, .refl⟩
    | tail _ hstep ih =>
      obtain ⟨between, rfl, hreach⟩ := ih
      obtain ⟨next, hnext, rfl⟩ := h.extends_iff.mp hstep
      exact ⟨next, rfl, hreach.tail hnext⟩
  · intro hchain
    induction hchain with
    | refl => exact .refl
    | tail _ hstep ih => exact ih.tail (h.extends_iff.mpr ⟨_, hstep, rfl⟩)

theorem object : t'.wellKnown.object = ρ.type t.wellKnown.object := by
  rw [h.wellKnown]
  rfl

theorem isSubclass (sub sup : ClassId) :
    t'.isSubclass (ρ.type sub) (ρ.type sup) = t.isSubclass sub sup := by
  rw [Bool.eq_iff_iff, isSubclass_iff, isSubclass_iff, h.mem_supertypes_iff, h.object,
    ρ.type_injective.eq_iff]

theorem isCheckedException (id : ClassId) :
    t'.isCheckedException (ρ.type id) = t.isCheckedException id := by
  unfold TypeTable.isCheckedException
  rw [h.wellKnown]
  simp only [WellKnown.rename, h.isSubclass]

theorem isCovered (exception : ClassId) (throws : List ClassId) :
    t'.isCovered (ρ.type exception) (throws.map ρ.type) = t.isCovered exception throws := by
  unfold TypeTable.isCovered
  simp only [List.any_map, Function.comp_def, h.isSubclass]

/-- The first exception that a throws clause does not cover is the same one. -/
theorem find?_uncovered (thrown throws : List ClassId) :
    (thrown.map ρ.type).find? (fun e =>
      t'.isCheckedException e && !t'.isCovered e (throws.map ρ.type)) =
    (thrown.find? (fun e => t.isCheckedException e && !t.isCovered e throws)).map ρ.type := by
  rw [List.find?_map]
  simp only [Function.comp_def, h.isCheckedException, h.isCovered]

theorem isAssignable (source target : Ty) :
    t'.isAssignable (source.rename ρ.type) (target.rename ρ.type) =
      t.isAssignable source target := by
  have hsame (a b : Ty) : (a.rename ρ.type == b.rename ρ.type) = (a == b) := by
    rw [Bool.eq_iff_iff, beq_iff_eq, beq_iff_eq, (Ty.rename_injective ρ.type_injective).eq_iff]
  induction source generalizing target with
  | array element ih =>
    cases target with
    | declared id =>
      unfold TypeTable.isAssignable
      rw [hsame, h.wellKnown]
      simp [Ty.rename, WellKnown.rename, ρ.type_injective.eq_iff, Bool.beq_eq_decide_eq]
    | array other =>
      have helement := ih other
      unfold TypeTable.isAssignable
      rw [hsame]
      cases element <;> cases other <;> simp_all [Ty.rename, Ty.isReference]
    | _ =>
      unfold TypeTable.isAssignable
      rw [hsame]
      rfl
  | declared id =>
    cases target <;> unfold TypeTable.isAssignable <;> rw [hsame] <;>
      simp [Ty.rename, h.isSubclass]
  | _ => cases target <;> unfold TypeTable.isAssignable <;> rw [hsame] <;> rfl

theorem isCastable (source target : Ty) :
    t'.isCastable (source.rename ρ.type) (target.rename ρ.type) = t.isCastable source target := by
  induction source generalizing target with
  | array element ih =>
    cases target with
    | array other =>
      have harray := h.isAssignable (.array element) (.array other)
      have hback := h.isAssignable (.array other) (.array element)
      simp only [Ty.rename] at harray hback
      simp [TypeTable.isCastable, Ty.rename, harray, hback, ih]
    | declared id =>
      have hto := h.isAssignable (.array element) (.declared id)
      have hback := h.isAssignable (.declared id) (.array element)
      simp only [Ty.rename] at hto hback
      simp [TypeTable.isCastable, Ty.rename, hto, hback]
    | _ => simp [TypeTable.isCastable, Ty.rename]
  | declared id =>
    cases target with
    | declared other =>
      have hto := h.isAssignable (.declared id) (.declared other)
      have hback := h.isAssignable (.declared other) (.declared id)
      simp only [Ty.rename] at hto hback
      simp [TypeTable.isCastable, Ty.rename, hto, hback, h.isInterface, h.isFinal]
    | array other =>
      have hto := h.isAssignable (.declared id) (.array other)
      have hback := h.isAssignable (.array other) (.declared id)
      simp only [Ty.rename] at hto hback
      simp [TypeTable.isCastable, Ty.rename, hto, hback]
    | _ => simp [TypeTable.isCastable, Ty.rename]
  | _ => cases target <;> simp [TypeTable.isCastable, Ty.rename, Ty.isReference]

/-! ## §4 Selection among overloads -/

theorem areAssignable (sources targets : List Ty) :
    t'.areAssignable (sources.map (Ty.rename ρ.type)) (targets.map (Ty.rename ρ.type)) =
      t.areAssignable sources targets := by
  unfold TypeTable.areAssignable
  simp only [List.zip_map, List.all_map, Function.comp_def, Prod.map, h.isAssignable]

theorem isApplicable (params args : List Ty) :
    t'.isApplicable (params.map (Ty.rename ρ.type)) (args.map (Ty.rename ρ.type)) =
      t.isApplicable params args := by
  unfold TypeTable.isApplicable
  rw [h.areAssignable, List.length_map, List.length_map]

end Renames

end TypeTable

/-- Two selections have the same outcome; candidates that are no choice do not
count. -/
inductive Selection.Renames {α α' : Type} (g : α → α') : Selection α → Selection α' → Prop where
  | found (choice : α) : Renames g (.found choice) (.found (g choice))
  | notFound : Renames g .notFound .notFound
  | ambiguous (candidates : List α) (candidates' : List α') :
    Renames g (.ambiguous candidates) (.ambiguous candidates')

/-- A test that does not tell renamed items apart keeps the same ones, in whatever
order they come. -/
theorem perm_filter_of_perm_map {α α' : Type} {f : α → α'} {items : List α} {items' : List α'}
    (h : items'.Perm (items.map f)) (p : α → Bool) (p' : α' → Bool)
    (hp : ∀ a ∈ items, p' (f a) = p a) : (items'.filter p').Perm ((items.filter p).map f) := by
  have hfilter := h.filter p'
  have hsame : items.filter (p' ∘ f) = items.filter p := List.filter_congr hp
  rwa [List.filter_map, hsame] at hfilter

namespace TypeTable.Renames

variable {t t' : TypeTable} {α α' : Type} {g : α → α'}

/-- The selection does not depend on the order of the candidates. -/
theorem selectOverload (h : t.Renames ρ t') {candidates : List (α × List Ty)}
    {candidates' : List (α' × List Ty)}
    (hcandidates : candidates'.Perm
      (candidates.map (fun c => (g c.1, c.2.map (Ty.rename ρ.type))))) (args : List Ty) :
    Selection.Renames g (t.selectOverload candidates args)
      (t'.selectOverload candidates' (args.map (Ty.rename ρ.type))) := by
  have happlicable := perm_filter_of_perm_map hcandidates
    (fun c => t.isApplicable c.2 args)
    (fun c => t'.isApplicable c.2 (args.map (Ty.rename ρ.type)))
    (fun c _ => h.isApplicable c.2 args)
  unfold TypeTable.selectOverload
  simp only
  generalize candidates.filter (fun c => t.isApplicable c.2 args) = applicable at happlicable ⊢
  generalize candidates'.filter (fun c => t'.isApplicable c.2 (args.map (Ty.rename ρ.type))) =
    applicable' at happlicable ⊢
  have hbest := perm_filter_of_perm_map happlicable
    (fun c => applicable.all (fun other => t.areAssignable c.2 other.2))
    (fun c => applicable'.all (fun other => t'.areAssignable c.2 other.2)) (fun c hc => by
      rw [happlicable.all_eq, List.all_map]
      exact congrArg _ (funext (fun other => h.areAssignable c.2 other.2)))
  generalize applicable.filter (fun c =>
    applicable.all (fun other => t.areAssignable c.2 other.2)) = best at hbest ⊢
  generalize applicable'.filter (fun c =>
    applicable'.all (fun other => t'.areAssignable c.2 other.2)) = best' at hbest ⊢
  rw [happlicable.isEmpty_eq, List.isEmpty_map]
  split
  · exact .notFound
  match best, best', hbest with
  | [], best', hbest =>
    obtain rfl := hbest.eq_nil
    exact .ambiguous _ _
  | [(choice, params)], best', hbest =>
    obtain rfl := List.perm_singleton.mp hbest
    exact .found choice
  | _ :: _ :: _, best', hbest =>
    match best', hbest.length_eq with
    | _ :: _ :: _, _ => exact .ambiguous _ _

end TypeTable.Renames

end JoosStatics
