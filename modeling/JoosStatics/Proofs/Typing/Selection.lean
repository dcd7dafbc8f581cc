/-
JoosStatics.Proofs.Typing.Selection — what a selection refers to.

A field or method is selected from a type or from a value. The rules make
sure that it is static in the one case and not static in the other, the
length of an array apart (`selectField_eq_ok`, `calledMethod_selects`). What
is selected is declared by some type of the table (`Hierarchy.AreDeclared`),
so a reference always leads to a declaration.
-/
import JoosStatics.Proofs.Bodies.Rules
import JoosStatics.Proofs.Hierarchy.Inheritance
import JoosStatics.Proofs.Syntax.Reading
import JoosStatics.Proofs.Types.Assignability
import JoosStatics.Proofs.Typing.Judgement

namespace JoosStatics

/-! ## §1 Declarations behind references -/

/-- The members of all types are declared under their names. -/
structure Hierarchy.AreDeclared (t : TypeTable) (h : Hierarchy) : Prop where
  field : ∀ {id name ref}, (h.members id).field? name = some ref →
    ∃ f, (t.classAt ref.owner).fields[ref.index]? = some f ∧ f.name = name
  method : ∀ {id name ref}, ref ∈ h.methodsNamed id name →
    ∃ m, (t.classAt ref.owner).methods[ref.index]? = some m ∧ m.name = name

theorem MemberSet.mem_methodsNamed {set : MemberSet} {name : Name} {ref : MethodRef} :
    ref ∈ set.methodsNamed name ↔
      ∃ key member, (key, member) ∈ set.methods.entries ∧ key.name = name ∧ member.method = ref := by
  simp [methodsNamed, and_assoc]

/-- An accepted hierarchy lists declared members. -/
theorem HasHierarchy.areDeclared {program library : List CompilationUnit} {l : Linked}
    {h : Hierarchy} (hh : HasHierarchy program library l h) :
    Hierarchy.AreDeclared l.table h := by
  have hl := hh.wellLinked
  have ha := hh.accepted
  have hempty {id : ClassId} (hid : ¬ id < l.table.size) : h.members id = {} :=
    hh.checked.outside (Nat.le_of_not_lt hid)
  constructor
  · intro id name ref hfield
    by_cases hid : id < l.table.size
    · exact (ha.declares_name hl hid hfield).1
    · rw [hempty hid] at hfield
      cases hfield
  · intro id name ref hmethod
    obtain ⟨key, member, hentry, rfl, rfl⟩ := MemberSet.mem_methodsNamed.mp hmethod
    by_cases hid : id < l.table.size
    · have hsorted := (ha.assembles hid).sorted_methods
      obtain ⟨⟨m, hm, hkey⟩, -⟩ :=
        ha.declares_key hl hid (OrderedMap.find?_of_mem_entries hsorted hentry)
      exact ⟨m, hm, congrArg MethodKey.name hkey⟩
    · rw [hempty hid] at hentry
      cases hentry

namespace TypeTable

variable {t : TypeTable}

/-- An overload that is found is one of the candidates, and accepts the arguments. -/
theorem accepts_of_selectOverload {α : Type} {candidates : List (α × List Ty)} {args : List Ty}
    {choice : α} (h : t.selectOverload candidates args = .found choice) :
    ∃ params, (choice, params) ∈ candidates ∧ t.isApplicable params args = true := by
  unfold selectOverload at h
  simp only at h
  split at h
  · cases h
  · split at h
    · rename_i first params hmost
      cases h
      have hmem : (choice, params) ∈ [(choice, params)] := List.mem_singleton_self _
      rw [← hmost] at hmem
      exact ⟨params, List.mem_filter.mp (List.mem_of_mem_filter hmem)⟩
    · cases h

/-- Arguments that are accepted can be assigned to parameters. -/
theorem isApplicable_assignable {params args : List Ty} (h : t.isApplicable params args = true)
    {arg : Ty} (harg : arg ∈ args) : ∃ param ∈ params, t.isAssignable arg param = true :=
  exists_of_mem_forall₂ (isApplicable_iff.mp h) harg

end TypeTable

namespace BodyContext

variable {ctx : BodyContext} {range : Span}

theorem selected_eq_ok {α : Type} {selection : Selection α} {name : Name} {args : List Ty}
    {choice : α} : ctx.selected selection name args range = .ok choice ↔
      selection = .found choice := by
  cases selection <;> simp [selected, broken]

/-- A constructor that is selected belongs to the class, and accepts the arguments. -/
theorem selectConstructor_accepts {id : ClassId} {args : List Ty} {ref : ConstructorRef}
    (h : ctx.selectConstructor id args range = .ok ref) :
    ref.owner = id ∧ ∃ c, (ctx.table.classAt id).constructors[ref.index]? = some c ∧
      ctx.table.isApplicable c.params args = true := by
  obtain ⟨params, hmem, haccepts⟩ := TypeTable.accepts_of_selectOverload (selected_eq_ok.mp h)
  obtain ⟨⟨c, index⟩, hc, heq⟩ := List.mem_map.mp hmem
  cases heq
  exact ⟨rfl, c, List.mem_zipIdx_iff_getElem?.mp hc, haccepts⟩

theorem selectConstructor_mem {id : ClassId} {args : List Ty} {ref : ConstructorRef}
    (h : ctx.selectConstructor id args range = .ok ref) :
    ref.owner = id ∧ ∃ c, (ctx.table.classAt id).constructors[ref.index]? = some c := by
  obtain ⟨howner, c, hc, -⟩ := selectConstructor_accepts h
  exact ⟨howner, c, hc⟩

/-- A method that is selected belongs to the type, under its name, and accepts the
arguments. -/
theorem selectMethod_accepts {id : ClassId} {name : Name} {args : List Ty} {ref : MethodRef}
    (h : ctx.selectMethod id name args range = .ok ref) :
    ref ∈ ctx.hierarchy.methodsNamed id name ∧
      ctx.table.isApplicable (ctx.table.methodAt ref).params args = true := by
  obtain ⟨params, hmem, haccepts⟩ := TypeTable.accepts_of_selectOverload (selected_eq_ok.mp h)
  obtain ⟨found, hfound, heq⟩ := List.mem_map.mp hmem
  cases heq
  exact ⟨hfound, haccepts⟩

/-! ## §2 Static and instance members -/

/-- A variable is selected from what stands to the left of a dot: a static field from a
type, any other field or the length of an array from a value. -/
inductive SelectsField (ctx : BodyContext) : Receiver → Name → Ty → ValueKind → Prop
  | length {element : Ty} : SelectsField ctx (.value (.array element)) "length" .int .arrayLength
  | ofValue {id : ClassId} {name : Name} {ref : FieldRef}
      (hfield : (ctx.hierarchy.members id).field? name = some ref)
      (hinstance : (ctx.table.fieldAt ref).modifiers.isStatic = false) :
      SelectsField ctx (.value (.declared id)) name (ctx.table.fieldAt ref).type (.field ref)
  | ofType {id : ClassId} {name : Name} {ref : FieldRef}
      (hfield : (ctx.hierarchy.members id).field? name = some ref)
      (hstatic : (ctx.table.fieldAt ref).modifiers.isStatic = true) :
      SelectsField ctx (.type id) name (ctx.table.fieldAt ref).type (.field ref)

theorem fieldOf_eq_ok {id : ClassId} {name : Name} {ref : FieldRef} :
    ctx.fieldOf id name range = .ok ref ↔
      (ctx.hierarchy.members id).field? name = some ref := by
  unfold fieldOf
  split <;> simp_all [broken]

theorem staticField_eq_ok {id : ClassId} {name : Name} {type : Ty} {kind : ValueKind}
    (h : ctx.staticField id name range = .ok (type, kind)) :
    ctx.SelectsField (.type id) name type kind := by
  obtain ⟨ref, href, h⟩ := bind_eq_ok.mp h
  simp only at h
  split at h
  · rename_i hstatic
    cases h
    exact .ofType (fieldOf_eq_ok.mp href) hstatic
  · cases h

theorem instanceField_eq_ok {left : Ty} {name : Name} {type : Ty} {kind : ValueKind}
    (h : ctx.instanceField left name range = .ok (type, kind)) :
    ctx.SelectsField (.value left) name type kind := by
  cases left with
  | array element =>
    simp only [instanceField] at h
    split at h
    · rename_i hlength
      cases h
      subst hlength
      exact .length
    · cases h
  | declared id =>
    obtain ⟨ref, href, h⟩ := bind_eq_ok.mp h
    simp only at h
    split at h
    · cases h
    · rename_i hinstance
      cases h
      exact .ofValue (fieldOf_eq_ok.mp href) (Bool.eq_false_iff.mpr hinstance)
  | _ => cases h

theorem selectField_eq_ok {left : Receiver} {name : Name} {type : Ty} {kind : ValueKind}
    (h : ctx.selectField left name range = .ok (type, kind)) :
    ctx.SelectsField left name type kind := by
  cases left with
  | type id => exact staticField_eq_ok h
  | value type => exact instanceField_eq_ok h

/-- A name is extended by a selection, or inside a package. -/
inductive Extends (ctx : BodyContext) : NameMeaning → Name → NameMeaning → Prop
  | value {before type : Ty} {source kind : ValueKind} {name : Name}
      (hselect : ctx.SelectsField (.value before) name type kind) :
      Extends ctx (.value before source) name (.value type kind)
  | type {id : ClassId} {type : Ty} {kind : ValueKind} {name : Name}
      (hselect : ctx.SelectsField (.type id) name type kind) :
      Extends ctx (.type id) name (.value type kind)
  | typeIn {package : PackageName} {name : Name} {id : ClassId}
      (hfound : ctx.symbols.lookup (package.child name) = some id) :
      Extends ctx (.package package) name (.type id)
  | packageIn {package : PackageName} {name : Name}
      (hfound : ctx.symbols.lookup (package.child name) = none) :
      Extends ctx (.package package) name (.package (package.child name))

theorem extend_eq_ok {before meaning : NameMeaning} {name : Name}
    (h : ctx.extend range before name = .ok meaning) : ctx.Extends before name meaning := by
  have hmap {found : Except Violation (Ty × ValueKind)}
      (h : found.map (fun value => NameMeaning.value value.1 value.2) = .ok meaning) :
      ∃ type kind, found = .ok (type, kind) ∧ meaning = .value type kind := by
    cases found with
    | error v => cases h
    | ok found =>
      cases h
      exact ⟨_, _, rfl, rfl⟩
  cases before with
  | value type kind =>
    obtain ⟨found, kind, hfound, rfl⟩ := hmap h
    exact .value (instanceField_eq_ok hfound)
  | type id =>
    obtain ⟨found, kind, hfound, rfl⟩ := hmap h
    exact .type (staticField_eq_ok hfound)
  | package package =>
    simp only [extend] at h
    split at h
    · rename_i id hfound
      cases h
      exact .typeIn hfound
    · rename_i hfound
      cases h
      exact .packageIn hfound

/-- A method may be called: a static one through a type, any other one through a value;
without either, a method that is not static needs `this`. -/
def MayCall (ctx : BodyContext) (method : MethodDef) : CallKind → Prop
  | .unqualified => method.isStatic = false → ctx.HasThis
  | .viaType => method.isStatic = true
  | .viaValue => method.isStatic = false

theorem checkCallKind_eq_ok {kind : CallKind} {method : MethodDef} :
    ctx.checkCallKind kind method range = .ok () ↔ ctx.MayCall method kind := by
  unfold checkCallKind MayCall
  cases kind <;> cases method.isStatic <;> simp [broken, requireThis_eq_ok]

/-- A method that is called is selected, may be called as it is, and accepts the
arguments. -/
theorem calledMethod_accepts {id : ClassId} {kind : CallKind} {name : Name} {args : List Ty}
    {ref : MethodRef} (h : ctx.calledMethod id kind name args range = .ok ref) :
    ref ∈ ctx.hierarchy.methodsNamed id name ∧ ctx.MayCall (ctx.table.methodAt ref) kind ∧
      ctx.table.isApplicable (ctx.table.methodAt ref).params args = true := by
  obtain ⟨found, hfound, h⟩ := bind_eq_ok.mp h
  obtain ⟨_, hkind, h⟩ := bind_eq_ok.mp h
  obtain ⟨_, -, h⟩ := bind_eq_ok.mp h
  cases h
  obtain ⟨hmem, haccepts⟩ := selectMethod_accepts hfound
  exact ⟨hmem, checkCallKind_eq_ok.mp hkind, haccepts⟩

theorem calledMethod_selects {id : ClassId} {kind : CallKind} {name : Name} {args : List Ty}
    {ref : MethodRef} (h : ctx.calledMethod id kind name args range = .ok ref) :
    ref ∈ ctx.hierarchy.methodsNamed id name ∧ ctx.MayCall (ctx.table.methodAt ref) kind := by
  obtain ⟨hmem, hmay, -⟩ := calledMethod_accepts h
  exact ⟨hmem, hmay⟩

end BodyContext

end JoosStatics
