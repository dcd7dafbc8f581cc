/-
JoosStatics.Proofs.Linking.Lockstep — two linkers side by side.

Linking is compared for units with other spans, for units with other arenas, and
for one table from two states. The two runs take the same steps each time; they
differ in how the states that remember answers are related, and in how violations
are.

* `SymbolTable.PairedLookups` — simple names are looked up alike; so written types
  are resolved alike.
* `SymbolTable.PairedLinkers` — in addition the same signatures are written, imports
  are judged alike and bodies are linked alike; so the tables of signatures are the
  same up to spans (`PairedLinkers.lowerAll`).

Bodies are a demand and not a consequence, because the two arenas need not hold the
same nodes.
-/
import JoosStatics.Proofs.Linking.Memo
import JoosStatics.Proofs.Places.Tables

namespace JoosStatics

/-- The same signature is written in two units, up to spans. -/
structure CompilationUnit.SameSignature (f : Span → Span) (u u' : CompilationUnit) : Prop where
  typeName : u'.typeName = u.typeName
  kind : u'.decl.kind = u.decl.kind
  modifiers : u'.decl.modifiers = u.decl.modifiers
  superclass : u'.decl.superclass = u.decl.superclass.map (TypeRef.mapSpan f)
  interfaces : u'.decl.interfaces = u.decl.interfaces.map (TypeRef.mapSpan f)
  fields : u'.decl.fields = u.decl.fields.map (FieldDecl.mapSpans f)
  methods : u'.decl.methods = u.decl.methods.map (MethodDecl.mapSpans f)
  constructors : u'.decl.constructors = u.decl.constructors.map (ConstructorDecl.mapSpans f)
  range : u'.decl.range = f u.decl.range

theorem CompilationUnit.SameSignature.isInterface {f : Span → Span} {u u' : CompilationUnit}
    (h : u.SameSignature f u') : u'.decl.isInterface = u.decl.isInterface := by
  unfold TypeDecl.isInterface
  rw [h.kind]

namespace SymbolTable

/-- Two linkers give the same account of full names, and look simple names up alike at
places that stand for each other. -/
structure PairedLookups (f : Span → Span) (I : LookupState → LookupState → Prop)
    (E : Violation → Violation → Prop) (s s' : SymbolTable) : Prop where
  lookup : s'.lookup = s.lookup
  broken : ∀ ctx range cause, E { cause, location := s.locate ctx range }
    { cause, location := s'.locate ctx (f range) }
  lookupSimple : ∀ ctx name range,
    Simulates I E Eq (s.lookupSimple ctx name range) (s'.lookupSimple ctx name (f range))

/-- Two linkers are paired for units with the same signatures, whose imports are judged
alike and whose bodies are linked alike. -/
structure PairedLinkers (f : Span → Span) (I : LookupState → LookupState → Prop)
    (E : Violation → Violation → Prop) (s s' : SymbolTable) : Prop
    extends PairedLookups f I E s s' where
  ids : s'.ids = s.ids
  missing : ∀ cause, E { cause } { cause }
  checkImports : ∀ id, Alike E (fun _ _ => True) (s.checkImports id) (s'.checkImports id)
  signature : ∀ id, (s.unitAt id).SameSignature f (s'.unitAt id)
  linkBodies : ∀ id, Simulates I E (fun _ _ => True) (s.linkBodies id (s.unitAt id).decl)
    (s'.linkBodies id (s'.unitAt id).decl)

variable {f : Span → Span} {I : LookupState → LookupState → Prop}
  {E : Violation → Violation → Prop} {s s' : SymbolTable}

/-! ## §1 Resolution -/

namespace PairedLookups

variable (h : PairedLookups f I E s s')
include h

theorem resolveSimple (ctx : ClassId) (name : Name) (range : Span) :
    Simulates I E Eq (s.resolveSimple ctx name range) (s'.resolveSimple ctx name (f range)) := by
  refine .bind (h.lookupSimple ctx name range) ?_
  rintro found _ rfl
  cases found with
  | none => exact .throw (h.broken ctx range _)
  | some id => exact .pure rfl

theorem denotesType (ctx : ClassId) (name : Name) (range : Span) :
    Simulates I E Eq (s.denotesType ctx name range) (s'.denotesType ctx name (f range)) := by
  intro st st' hst
  obtain ⟨hstates, halike⟩ := h.lookupSimple ctx name range st st' hst
  rw [denotesType_run, denotesType_run]
  refine ⟨hstates, .ok ?_⟩
  rcases halike.outcomes with ⟨v, v', hv, hv', -⟩ | ⟨found, _, hfound, hfound', rfl⟩
  · rw [hv, hv']
  · rw [hfound, hfound']

theorem resolveTypeName (ctx : ClassId) (name : QualifiedName) (range : Span) :
    Simulates I E Eq (s.resolveTypeName ctx name range)
      (s'.resolveTypeName ctx name (f range)) := by
  have hlength : s'.leadingTypeLength? name = s.leadingTypeLength? name := by
    unfold leadingTypeLength?
    rw [h.lookup]
  unfold SymbolTable.resolveTypeName
  rw [hlength, h.lookup]
  split
  · exact .throw (h.broken ctx range _)
  · exact h.resolveSimple ctx _ range
  · refine .bind (h.denotesType ctx _ range) ?_
    rintro isType _ rfl
    split
    · exact .throw (h.broken ctx range _)
    · split
      · exact .throw (h.broken ctx range _)
      · split
        · exact .pure rfl
        · exact .throw (h.broken ctx range _)

theorem resolveRef (ctx : ClassId) (ref : TypeRef) :
    Simulates I E Eq (s.resolveRef ctx ref) (s'.resolveRef ctx (ref.mapSpan f)) :=
  h.resolveTypeName ctx ref.name ref.range

/-- Written types are resolved alike. -/
theorem resolveType (ctx : ClassId) (type : TypeSyntax) :
    Simulates I E Eq (s.resolveType ctx type) (s'.resolveType ctx (type.mapSpans f)) := by
  induction type with
  | primitive type => exact .pure rfl
  | named ref => exact .bind (h.resolveRef ctx ref) (fun _ _ hid => .pure (congrArg _ hid))
  | array element ih => exact .bind ih (fun _ _ htype => .pure (congrArg _ htype))

/-! ## §2 Signatures -/

theorem lowerField (id : ClassId) (d : FieldDecl) :
    Simulates I E (fun m m' => m' = m.mapSpan f) (s.lowerField id d)
      (s'.lowerField id (d.mapSpans f)) := by
  refine .bind (h.resolveType id d.type) ?_
  rintro type _ rfl
  exact .pure rfl

theorem lowerParams (id : ClassId) (params : List Param) :
    Simulates I E Eq (s.lowerParams id params)
      (s'.lowerParams id (params.map (Param.mapSpans f))) :=
  .mapM_eq (fun param _ => h.resolveType id param.type)

theorem lowerThrows (id : ClassId) (throws : List TypeRef) :
    Simulates I E Eq (s.lowerThrows id throws)
      (s'.lowerThrows id (throws.map (TypeRef.mapSpan f))) :=
  .mapM_eq (fun ref _ => h.resolveRef id ref)

theorem lowerResult (id : ClassId) (result : Option TypeSyntax) :
    Simulates I E Eq (s.lowerResult id result)
      (s'.lowerResult id (result.map (TypeSyntax.mapSpans f))) := by
  cases result with
  | none => exact .pure rfl
  | some type => exact h.resolveType id type

theorem lowerMethod (id : ClassId) (isInterface : Bool) (d : MethodDecl) :
    Simulates I E (fun m m' => m' = m.mapSpan f) (s.lowerMethod id isInterface d)
      (s'.lowerMethod id isInterface (d.mapSpans f)) := by
  refine .bind (h.lowerParams id d.params) (fun params params' hparams => ?_)
  refine .bind (h.lowerResult id d.returnType) (fun type type' htype => ?_)
  refine .bind (h.lowerThrows id d.throws) (fun throws throws' hthrows => .pure ?_)
  subst hparams htype hthrows
  rfl

theorem lowerConstructor (id : ClassId) (d : ConstructorDecl) :
    Simulates I E (fun m m' => m' = m.mapSpan f) (s.lowerConstructor id d)
      (s'.lowerConstructor id (d.mapSpans f)) := by
  refine .bind (h.lowerParams id d.params) (fun params params' hparams => ?_)
  refine .bind (h.lowerThrows id d.throws) (fun throws throws' hthrows => .pure ?_)
  subst hparams hthrows
  rfl

end PairedLookups

namespace PairedLinkers

variable (h : PairedLinkers f I E s s')
include h

theorem lowerSuperclass (id : ClassId) :
    Simulates I E Eq (s.lowerSuperclass id) (s'.lowerSuperclass id) := by
  have hsame := h.signature id
  unfold SymbolTable.lowerSuperclass
  simp only [hsame.kind, hsame.superclass, hsame.typeName, hsame.range, h.lookup]
  cases (s.unitAt id).decl.kind with
  | interfaceType => exact .pure rfl
  | classType =>
    cases (s.unitAt id).decl.superclass with
    | some ref => exact .bind (h.resolveRef id ref) (fun _ _ hid => .pure (congrArg some hid))
    | none =>
      simp only [Option.map_none]
      split
      · exact .pure rfl
      · cases s.lookup objectName with
        | some object => exact .pure rfl
        | none => exact .throw (h.broken id _ _)

theorem lowerConstructors (id : ClassId) :
    Simulates I E (fun ms ms' => ms' = ms.map (ConstructorDef.mapSpan f))
      (s.lowerConstructors id (s.unitAt id).decl) (s'.lowerConstructors id (s'.unitAt id).decl) := by
  have hsame := h.signature id
  unfold SymbolTable.lowerConstructors
  rw [hsame.isInterface, hsame.constructors, List.isEmpty_map]
  split
  · exact .pure rfl
  · split
    · refine .pure ?_
      unfold defaultConstructor
      rw [hsame.range]
      rfl
    · exact Simulates.mapM (fun c _ => h.lowerConstructor id c)

/-- Units have the same signature, up to spans. -/
theorem lowerUnit (id : ClassId) :
    Simulates I E (fun d d' => d' = d.mapSpans f) (s.lowerUnit id) (s'.lowerUnit id) := by
  have hsame := h.signature id
  unfold SymbolTable.lowerUnit
  simp only [hsame.typeName, hsame.kind, hsame.modifiers, hsame.isInterface, hsame.interfaces,
    hsame.fields, hsame.methods, hsame.range]
  refine .bind (h.lowerSuperclass id) (fun superclass superclass' hsuperclass => ?_)
  refine .bind (h.lowerThrows id (s.unitAt id).decl.interfaces)
    (fun interfaces interfaces' hinterfaces => ?_)
  refine .bind (Simulates.mapM (fun d _ => h.lowerField id d)) (fun fields fields' hfields => ?_)
  refine .bind (Simulates.mapM (fun d _ => h.lowerMethod id _ d))
    (fun methods methods' hmethods => ?_)
  refine .bind (h.lowerConstructors id) (fun constructors constructors' hconstructors => ?_)
  refine .bind (h.linkBodies id) (fun _ _ _ => .pure ?_)
  subst hsuperclass hinterfaces hfields hmethods hconstructors
  rfl

/-- Paired linkers come to the same table, up to spans. -/
theorem lowerAll : Simulates I E (fun t t' => t' = t.mapSpans f) s.lowerAll s'.lowerAll := by
  rw [lowerAll_eq, lowerAll_eq, h.ids]
  -- neither imports nor the table look anything up
  refine .bind (Simulates.forM_same (fun id _ st st' hst => ⟨hst, h.checkImports id⟩))
    (fun _ _ _ => .bind (Simulates.mapM_same (fun id _ => h.lowerUnit id)) ?_)
  rintro classes _ rfl
  rw [TypeTable.ofClasses_mapSpans]
  intro st st' hst
  refine ⟨hst, ?_⟩
  show Alike E _ _ _
  cases TypeTable.ofClasses classes.toArray with
  | error missing => exact .error (h.missing _)
  | ok t => exact .ok rfl

end PairedLinkers

end SymbolTable

end JoosStatics
