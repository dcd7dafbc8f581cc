/-
JoosStatics.Proofs.Places.Tables — tables of types with other spans.

`TypeTable.mapSpans f` puts `f span` in the place of every span of a table,
where `f` keeps the missing place. It is a renaming that numbers everything
as before (`renames_mapSpans`), so names, messages and the relations of
types stay the same.
-/
import JoosStatics.Proofs.Places.Syntax
import JoosStatics.Proofs.Renaming.Basic

namespace JoosStatics

variable (f : Span → Span)

/-- Places are renamed and nothing else; the missing place stays missing. -/
def Renaming.places (hf : f {} = {}) : Renaming where
  type := id
  field := id
  method := id
  constructor := id
  sameLocal := Eq
  span := f
  type_injective := Function.injective_id
  span_default := hf

@[simp] theorem Renaming.type_places (hf : f {} = {}) : (places f hf).type = id := rfl

@[simp] theorem Renaming.constructor_places (hf : f {} = {}) :
    (places f hf).constructor = id := rfl

@[simp] theorem Renaming.span_places (hf : f {} = {}) : (places f hf).span = f := rfl

/-! ## §1 Signatures -/

/-- The same field at another place. -/
def FieldDef.mapSpan (d : FieldDef) : FieldDef := { d with span := f d.span }

/-- The same method at another place. -/
def MethodDef.mapSpan (d : MethodDef) : MethodDef := { d with span := f d.span }

section Methods

variable (d : MethodDef)

@[simp] theorem MethodDef.returnType_mapSpan : (d.mapSpan f).returnType = d.returnType := rfl

@[simp] theorem MethodDef.throws_mapSpan : (d.mapSpan f).throws = d.throws := rfl

@[simp] theorem MethodDef.modifiers_mapSpan : (d.mapSpan f).modifiers = d.modifiers := rfl

@[simp] theorem MethodDef.isStatic_mapSpan : (d.mapSpan f).isStatic = d.isStatic := rfl

end Methods

/-- The same constructor at another place. -/
def ConstructorDef.mapSpan (d : ConstructorDef) : ConstructorDef := { d with span := f d.span }

/-- The same signature with other spans. -/
def ClassDef.mapSpans (d : ClassDef) : ClassDef :=
  { d with
    fields := d.fields.map (FieldDef.mapSpan f)
    constructors := d.constructors.map (ConstructorDef.mapSpan f)
    methods := d.methods.map (MethodDef.mapSpan f)
    span := f d.span }

theorem ClassDef.mapSpans_id (d : ClassDef) : d.mapSpans id = d := by
  have hfields : d.fields.map (FieldDef.mapSpan id) = d.fields := List.map_id _
  have hconstructors : d.constructors.map (ConstructorDef.mapSpan id) = d.constructors :=
    List.map_id _
  have hmethods : d.methods.map (MethodDef.mapSpan id) = d.methods := List.map_id _
  rw [mapSpans, hfields, hconstructors, hmethods]
  rfl

/-- A map that keeps the default may come before or after the choice of an item. -/
theorem getD_map_of_fixed {α : Type} {g : α → α} {fixed : α} (hfixed : g fixed = fixed)
    (items : List α) (index : Nat) :
    (items.map g).getD index fixed = g (items.getD index fixed) := by
  rw [List.getD_eq_getElem?_getD, List.getD_eq_getElem?_getD, List.getElem?_map]
  cases items[index]? with
  | some item => rfl
  | none => exact hfixed.symm

section Missing

variable {f} (hf : f {} = {})
include hf

theorem FieldDef.mapSpan_default : (default : FieldDef).mapSpan f = default := by
  rw [FieldDef.mapSpan, show (default : FieldDef).span = {} from rfl, hf]
  rfl

theorem MethodDef.mapSpan_default : (default : MethodDef).mapSpan f = default := by
  rw [MethodDef.mapSpan, show (default : MethodDef).span = {} from rfl, hf]
  rfl

theorem ConstructorDef.mapSpan_default : (default : ConstructorDef).mapSpan f = default := by
  rw [ConstructorDef.mapSpan, show (default : ConstructorDef).span = {} from rfl, hf]
  rfl

end Missing

namespace TypeTable

/-- The same table with other spans. -/
def mapSpans (t : TypeTable) : TypeTable := { t with classes := t.classes.map (ClassDef.mapSpans f) }

theorem mapSpans_id (t : TypeTable) : t.mapSpans id = t := by
  rw [mapSpans, funext ClassDef.mapSpans_id, Array.map_id']

@[simp] theorem size_mapSpans (t : TypeTable) : (t.mapSpans f).size = t.size := by
  simp [size, mapSpans]

@[simp] theorem ids_mapSpans (t : TypeTable) : (t.mapSpans f).ids = t.ids := by
  simp [ids]

@[simp] theorem wellKnown_mapSpans (t : TypeTable) :
    (t.mapSpans f).wellKnown = t.wellKnown := rfl

/-- A table is made of signatures whatever their spans are. -/
theorem ofClasses_mapSpans (classes : List ClassDef) :
    ofClasses (classes.map (ClassDef.mapSpans f)).toArray =
      (ofClasses classes.toArray).map (mapSpans f) := by
  have hrequire (name : String) :
      require (classes.map (ClassDef.mapSpans f)).toArray name = require classes.toArray name := by
    unfold require indexIn
    simp only [List.findIdx?_toArray, List.findIdx?_map]
    rfl
  unfold ofClasses
  simp only [hrequire, bind, Except.bind]
  repeat (split; · rfl)
  simp [Except.map, pure, Except.pure, mapSpans]

variable {f} {t : TypeTable} (hf : f {} = {})
include hf

theorem classAt_mapSpans (id : ClassId) :
    (t.mapSpans f).classAt id = (t.classAt id).mapSpans f := by
  unfold classAt mapSpans
  rw [Array.getD_eq_getD_getElem?, Array.getD_eq_getD_getElem?, Array.getElem?_map]
  cases t.classes[id]? with
  | some d => rfl
  | none =>
    show (default : ClassDef) = ClassDef.mapSpans f default
    simp [ClassDef.mapSpans, default, hf]

theorem fieldAt_mapSpans (ref : FieldRef) :
    (t.mapSpans f).fieldAt ref = (t.fieldAt ref).mapSpan f := by
  unfold fieldAt
  rw [classAt_mapSpans hf]
  exact getD_map_of_fixed (FieldDef.mapSpan_default hf) _ _

theorem methodAt_mapSpans (ref : MethodRef) :
    (t.mapSpans f).methodAt ref = (t.methodAt ref).mapSpan f := by
  unfold methodAt
  rw [classAt_mapSpans hf]
  exact getD_map_of_fixed (MethodDef.mapSpan_default hf) _ _

theorem constructorAt_mapSpans (ref : ConstructorRef) :
    (t.mapSpans f).constructorAt ref = (t.constructorAt ref).mapSpan f := by
  unfold constructorAt
  rw [classAt_mapSpans hf]
  exact getD_map_of_fixed (ConstructorDef.mapSpan_default hf) _ _

/-- The table gives the same account with other spans. -/
theorem renames_mapSpans (t : TypeTable) : t.Renames (.places f hf) (t.mapSpans f) where
  wellKnown := rfl
  name id := (congrArg ClassDef.name (classAt_mapSpans hf id)).trans rfl
  kind id := (congrArg ClassDef.kind (classAt_mapSpans hf id)).trans rfl
  modifiers id := (congrArg ClassDef.modifiers (classAt_mapSpans hf id)).trans rfl
  superclass id :=
    (congrArg ClassDef.superclass (classAt_mapSpans hf id)).trans Option.map_id_apply.symm
  interfaces id :=
    (congrArg ClassDef.interfaces (classAt_mapSpans hf id)).trans (List.map_id _).symm
  fieldAt ref := by
    rw [show (Renaming.places f hf).field ref = ref from rfl, fieldAt_mapSpans hf]
    simp [FieldDef.mapSpan, FieldDef.rename, Renaming.places]
  methodAt ref := by
    rw [show (Renaming.places f hf).method ref = ref from rfl, methodAt_mapSpans hf]
    simp [MethodDef.mapSpan, MethodDef.rename, Renaming.places, map_rename_id]
  constructorAt ref := by
    rw [show (Renaming.places f hf).constructor ref = ref from rfl, constructorAt_mapSpans hf]
    simp [ConstructorDef.mapSpan, ConstructorDef.rename, Renaming.places, map_rename_id]
  constructorsOf id := by
    rw [Renaming.type_places, Renaming.constructor_places, List.map_id]
    show ((t.mapSpans f).constructorsOf id).Perm (t.constructorsOf id)
    unfold constructorsOf
    rw [classAt_mapSpans hf, ClassDef.mapSpans, List.length_map]

/-! ## §2 Names, messages and relations of types -/

theorem nameOf_mapSpans (id : ClassId) : (t.mapSpans f).nameOf id = t.nameOf id :=
  (t.renames_mapSpans hf).nameOf id

theorem locationOf_mapSpans (id : ClassId) :
    (t.mapSpans f).locationOf id = (t.locationOf id).mapSpan f := by
  unfold locationOf
  rw [nameOf_mapSpans hf, classAt_mapSpans hf]
  rfl

theorem displayList_mapSpans (types : List Ty) :
    (t.mapSpans f).displayList types = t.displayList types := by
  have hsame := (t.renames_mapSpans hf).displayList types
  rwa [Renaming.type_places, map_rename_id] at hsame

theorem signature_mapSpans (name : Name) (params : List Ty) :
    (t.mapSpans f).signature name params = t.signature name params := by
  unfold signature
  rw [displayList_mapSpans hf]

theorem methodSignature_mapSpans (m : MethodDef) :
    (t.mapSpans f).methodSignature (m.mapSpan f) = t.methodSignature m :=
  signature_mapSpans hf m.name m.params

theorem isCheckedException_mapSpans (id : ClassId) :
    (t.mapSpans f).isCheckedException id = t.isCheckedException id :=
  (t.renames_mapSpans hf).isCheckedException id

theorem isCovered_mapSpans (exception : ClassId) (throws : List ClassId) :
    (t.mapSpans f).isCovered exception throws = t.isCovered exception throws := by
  have hsame := (t.renames_mapSpans hf).isCovered exception throws
  rwa [Renaming.type_places, List.map_id] at hsame

end TypeTable

end JoosStatics
