/-
JoosStatics.Proofs.Linking.Signatures — linking without memory.

Lookups are remembered, but what they answer does not depend on it. §1 says
what names denote and §2 what signature a unit has when its names denote
given types, both without any state. `SymbolTable.Denotes` compares a
computation with such an account: which names it looks up, when it succeeds
and what it then returns.

* `lowerUnit_denotes`, `lowerAll_denotes` — the account of one unit and of
  all units.
* `link_lowers`, `link_classAt` — what a linked program consists of.
-/
import JoosStatics.Proofs.Linking.Memo
import JoosStatics.Proofs.SortedMaps

namespace JoosStatics

/-! ## §1 Names -/

namespace SymbolTable

/-- The type that a simple name denotes in a unit; none when there is none or when
there are several. -/
def simpleType? (s : SymbolTable) (ctx : ClassId) (name : Name) : Option ClassId :=
  match (s.findSimple ctx name {}).1 with
  | .ok found => found
  | .error _ => none

/-- The type that a name denotes in a unit. -/
def namedType? (s : SymbolTable) (ctx : ClassId) (name : QualifiedName) : Option ClassId :=
  match name.segments with
  | [] => none
  | [simple] => s.simpleType? ctx simple
  | first :: _ =>
    if (s.simpleType? ctx first).isSome ∨ (s.leadingTypeLength? name).isSome then none
    else s.lookup name

/-- The type that a name denotes in a unit, where it denotes one. -/
def denotation (s : SymbolTable) (ctx : ClassId) (name : QualifiedName) : ClassId :=
  (s.namedType? ctx name).getD default

/-- The lookups that names give rise to in a unit: each is looked up by its first
identifier. -/
def lookupKeys (ctx : ClassId) (names : List QualifiedName) : List (ClassId × Name) :=
  names.filterMap (fun name => name.first?.map (Prod.mk ctx))

end SymbolTable

/-! ## §2 Signatures -/

/-- The names in a written type. -/
def TypeSyntax.names : TypeSyntax → List QualifiedName
  | .primitive _ => []
  | .named ref => [ref.name]
  | .array element => element.names

/-- The type that is written when names denote given types. -/
def TypeSyntax.typeIn (denote : QualifiedName → ClassId) : TypeSyntax → Ty
  | .primitive type => .primitive type
  | .named ref => .declared (denote ref.name)
  | .array element => .array (element.typeIn denote)

/-- The names in a signature that is written as parameters, a result and a throws
clause. -/
def signatureNames (params : List Param) (result : Option TypeSyntax) (throws : List TypeRef) :
    List QualifiedName :=
  params.flatMap (fun param => param.type.names) ++
    (result.elim [] TypeSyntax.names ++ throws.map TypeRef.name)

/-- The signature of a field when names denote given types. -/
def FieldDecl.signature (denote : QualifiedName → ClassId) (f : FieldDecl) : FieldDef where
  name := f.name
  type := f.type.typeIn denote
  modifiers := f.modifiers
  span := f.range

/-- The signature of a method when names denote given types. -/
def MethodDecl.signature (denote : QualifiedName → ClassId) (isInterface : Bool) (m : MethodDecl) :
    MethodDef where
  name := m.name
  params := m.params.map (fun param => param.type.typeIn denote)
  returnType := m.returnType.elim .void (TypeSyntax.typeIn denote)
  throws := m.throws.map (fun ref => denote ref.name)
  modifiers := if isInterface then m.modifiers ||| (.public ||| .abstract) else m.modifiers
  span := m.range

/-- The signature of a constructor when names denote given types. -/
def ConstructorDecl.signature (denote : QualifiedName → ClassId) (c : ConstructorDecl) :
    ConstructorDef where
  params := c.params.map (fun param => param.type.typeIn denote)
  throws := c.throws.map (fun ref => denote ref.name)
  modifiers := c.modifiers
  span := c.range

namespace TypeDecl

/-- The constructors that count: those of a class. -/
def classConstructors (d : TypeDecl) : List ConstructorDecl :=
  if d.isInterface then [] else d.constructors

/-- The superclass that counts: that of a class. -/
def classSuperclass (d : TypeDecl) : Option TypeRef :=
  if d.isInterface then none else d.superclass

/-- The names in the signatures of a declaration. -/
def signatureNames (d : TypeDecl) : List QualifiedName :=
  d.classSuperclass.toList.map TypeRef.name ++ (d.interfaces.map TypeRef.name ++
    (d.fields.flatMap (fun f => f.type.names) ++
      (d.methods.flatMap (fun m => JoosStatics.signatureNames m.params m.returnType m.throws) ++
        d.classConstructors.flatMap
          (fun c => JoosStatics.signatureNames c.params none c.throws))))

/-- The constructors of a declaration when names denote given types. -/
def constructorSignatures (denote : QualifiedName → ClassId) (d : TypeDecl) :
    List ConstructorDef :=
  if d.isInterface then []
  else if d.constructors.isEmpty then [SymbolTable.defaultConstructor d]
  else d.constructors.map (ConstructorDecl.signature denote)

end TypeDecl

namespace CompilationUnit

/-- Whether the type of a unit gets its superclass without naming one. -/
def hasImplicitSuperclass (u : CompilationUnit) : Bool :=
  !u.decl.isInterface && u.decl.superclass.isNone && u.typeName != SymbolTable.objectName

/-- The superclass of a unit's type when names denote given types and the class above
all others is given. -/
def superclassIn (denote : QualifiedName → ClassId) (object : Option ClassId)
    (u : CompilationUnit) : Option ClassId :=
  if u.hasImplicitSuperclass then object
  else u.decl.classSuperclass.map (fun ref => denote ref.name)

/-- The signature of a unit's type when names denote given types and the class above
all others is given. -/
def signature (denote : QualifiedName → ClassId) (object : Option ClassId)
    (u : CompilationUnit) : ClassDef where
  name := u.typeName
  kind := u.decl.kind
  modifiers := u.decl.modifiers
  superclass := u.superclassIn denote object
  interfaces := u.decl.interfaces.map (fun ref => denote ref.name)
  fields := u.decl.fields.map (FieldDecl.signature denote)
  constructors := u.decl.constructorSignatures denote
  methods := u.decl.methods.map (MethodDecl.signature denote u.decl.isInterface)
  span := u.decl.range

end CompilationUnit

namespace SymbolTable

/-- The names whose types linking finds in a unit: those in its signatures, and those
in the bodies of a program unit. -/
def linkedNames (s : SymbolTable) (id : ClassId) : List QualifiedName :=
  (s.unitAt id).decl.signatureNames ++
    if s.isLibrary id then []
    else (s.unitAt id).decl.bodies.writtenTypes.flatMap TypeSyntax.names

/-- The signature of the unit with a number. -/
def signatureOf (s : SymbolTable) (id : ClassId) : ClassDef :=
  (s.unitAt id).signature (s.denotation id) (s.lookup objectName)

/-- Every name that linking finds the type of in a unit has one. -/
structure Resolvable (s : SymbolTable) (id : ClassId) : Prop where
  names : ∀ name ∈ s.linkedNames id, (s.namedType? id name).isSome
  object : (s.unitAt id).hasImplicitSuperclass = true → (s.lookup objectName).isSome

end SymbolTable

/-! ## §3 Computations and their account -/

/-- Whether a name has been looked up in a unit. -/
def LookupState.Knows (st : LookupState) (key : ClassId × Name) : Prop :=
  (st.answers.lookup key).isSome

namespace SymbolTable

variable {s : SymbolTable} {α β : Type}

/-- What is remembered is what a search finds, and the packages in use are those that
supplied a name. -/
structure Recorded (s : SymbolTable) (st : LookupState) : Prop where
  found : s.AnswersFound st
  used : ∀ package, package ∈ st.usedPackages.keys ↔
    ∃ key, st.Knows key ∧ package ∈ (s.findSimple key.1 key.2 {}).2

/-- A computation looks certain names up, and succeeds under a certain condition with
a certain value. -/
def Denotes (s : SymbolTable) (x : LookupM α) (keys : List (ClassId × Name)) (valid : Prop)
    (value : α) : Prop :=
  ∀ st, s.Recorded st → s.Recorded (x st).2 ∧
    ((valid ∧ (x st).1 = .ok value ∧ ∀ key, (x st).2.Knows key ↔ st.Knows key ∨ key ∈ keys) ∨
      ¬ valid ∧ ∃ v, (x st).1 = .error v)

namespace Denotes

variable {x : LookupM α} {f : α → LookupM β} {keys keys' : List (ClassId × Name)}
  {valid valid' : Prop} {value : α} {value' : β}

theorem pure (a : α) : s.Denotes (Pure.pure a) [] True a :=
  fun _ hst => ⟨hst, .inl ⟨trivial, rfl, fun _ => (or_iff_left List.not_mem_nil).symm⟩⟩

theorem throw {e : Violation} (h : ¬ valid) : s.Denotes (MonadExcept.throw e) keys valid value :=
  fun _ hst => ⟨hst, .inr ⟨h, e, rfl⟩⟩

/-- The account may be given in other words. -/
theorem congr {value' : α} (hx : s.Denotes x keys valid value) (hvalid : valid' ↔ valid)
    (hvalue : valid → value' = value) (hkeys : valid → ∀ key, key ∈ keys' ↔ key ∈ keys) :
    s.Denotes x keys' valid' value' := by
  intro st hst
  obtain ⟨hst', ⟨h, hok, hknows⟩ | ⟨h, herror⟩⟩ := hx st hst
  · refine ⟨hst', .inl ⟨hvalid.mpr h, hvalue h ▸ hok, fun key => ?_⟩⟩
    rw [hkeys h]
    exact hknows key
  · exact ⟨hst', .inr ⟨fun h' => h (hvalid.mp h'), herror⟩⟩

theorem bind (hx : s.Denotes x keys valid value) (hf : s.Denotes (f value) keys' valid' value') :
    s.Denotes (x >>= f) (keys ++ keys') (valid ∧ valid') value' := by
  intro st hst
  have hfirst := hx st hst
  rw [run_bind]
  revert hfirst
  rcases x st with ⟨result, st₁⟩
  rintro ⟨hst₁, ⟨h, hok, hknows⟩ | ⟨h, v, herror⟩⟩
  · cases hok
    obtain ⟨hst₂, ⟨h', hok', hknows'⟩ | ⟨h', herror'⟩⟩ := hf st₁ hst₁
    · refine ⟨hst₂, .inl ⟨⟨h, h'⟩, hok', fun key => ?_⟩⟩
      rw [hknows', hknows, List.mem_append, or_assoc]
    · exact ⟨hst₂, .inr ⟨fun hboth => h' hboth.2, herror'⟩⟩
  · cases herror
    exact ⟨hst₁, .inr ⟨fun hboth => h hboth.1, v, rfl⟩⟩

/-- The last step adds nothing to the account but the result. -/
theorem map (hx : s.Denotes x keys valid value) (g : α → β) :
    s.Denotes (x >>= fun a => Pure.pure (g a)) keys valid (g value) := by
  have hboth := hx.bind (f := fun a => Pure.pure (g a)) (.pure (g value))
  rwa [List.append_nil, and_true] at hboth

theorem mapM {f : α → LookupM β} {N : α → List (ClassId × Name)} {V : α → Prop} {g : α → β}
    {xs : List α} (hf : ∀ a ∈ xs, s.Denotes (f a) (N a) (V a) (g a)) :
    s.Denotes (xs.mapM f) (xs.flatMap N) (∀ a ∈ xs, V a) (xs.map g) := by
  induction xs with
  | nil =>
    rw [List.mapM_nil]
    exact (pure []).congr (by simp) (fun _ => rfl) (fun _ _ => by simp)
  | cons x xs ih =>
    obtain ⟨hfirst, hothers⟩ := List.forall_mem_cons.mp hf
    rw [List.mapM_cons]
    refine (hfirst.bind ((ih hothers).map (g x :: ·))).congr ?_ (fun _ => rfl) (fun _ _ => ?_)
    · exact List.forall_mem_cons
    · rw [List.flatMap_cons]

theorem forM {f : α → LookupM PUnit} {N : α → List (ClassId × Name)} {V : α → Prop} {xs : List α}
    (hf : ∀ a ∈ xs, s.Denotes (f a) (N a) (V a) ⟨⟩) :
    s.Denotes (xs.forM f) (xs.flatMap N) (∀ a ∈ xs, V a) ⟨⟩ := by
  induction xs with
  | nil => exact (pure PUnit.unit).congr (by simp) (fun _ => rfl) (fun _ _ => by simp)
  | cons x xs ih =>
    obtain ⟨hfirst, hothers⟩ := List.forall_mem_cons.mp hf
    refine (hfirst.bind (f := fun _ => xs.forM f) (ih hothers)).congr ?_ (fun _ => rfl)
      (fun _ _ => ?_)
    · exact List.forall_mem_cons
    · rw [List.flatMap_cons]

/-- A check that makes no lookup. -/
theorem lift (result : Except Violation α) {value : α} (h : ∀ a, result = .ok a → a = value) :
    s.Denotes (ExceptT.mk (Pure.pure result)) [] (result.isOk = true) value := by
  intro st hst
  refine ⟨hst, ?_⟩
  cases result with
  | error e => exact .inr ⟨Bool.false_ne_true, e, rfl⟩
  | ok a =>
    obtain rfl := h a rfl
    exact .inl ⟨rfl, rfl, fun _ => (or_iff_left List.not_mem_nil).symm⟩

end Denotes

/-! ## §4 Lookups -/

/-- What a search finds does not depend on the place where the name stands. -/
theorem findSimple_packages (s : SymbolTable) (ctx : ClassId) (name : Name) (range : Span) :
    (s.findSimple ctx name range).2 = (s.findSimple ctx name {}).2 := by
  unfold findSimple
  simp only
  split
  · rfl
  · split
    · rfl
    · split
      · rfl
      · split <;> rfl

/-- The places aside, a search has one result. -/
theorem findSimple_value (s : SymbolTable) (ctx : ClassId) (name : Name) (range : Span) :
    (s.findSimple ctx name range).1 = .ok (s.simpleType? ctx name) ∨
      (∃ v, (s.findSimple ctx name range).1 = .error v) ∧
      ∃ v, (s.findSimple ctx name {}).1 = .error v := by
  cases hfound : (s.findSimple ctx name range).1 with
  | ok found =>
    left
    unfold simpleType?
    rw [findSimple_eq_ok hfound {}]
  | error v =>
    refine .inr ⟨⟨v, rfl⟩, ?_⟩
    cases hother : (s.findSimple ctx name {}).1 with
    | ok found =>
      rw [findSimple_eq_ok hother range] at hfound
      cases hfound
    | error v' => exact ⟨v', rfl⟩

theorem simpleType?_of_error {ctx : ClassId} {name : Name} {v : Violation}
    (h : (s.findSimple ctx name {}).1 = .error v) : s.simpleType? ctx name = none := by
  unfold simpleType?
  rw [h]

theorem lookupSimple_recorded (ctx : ClassId) (name : Name) (range : Span) {st : LookupState}
    (hst : s.Recorded st) :
    s.Recorded (s.lookupSimple ctx name range st).2 ∧
    ∀ key, (s.lookupSimple ctx name range st).2.Knows key ↔
      st.Knows key ∨ key ∈ [(ctx, name)] := by
  have hfound := lookupSimple_finds ctx name range hst.found
  have hknows (key : ClassId × Name) : (s.lookupSimple ctx name range st).2.Knows key ↔
      st.Knows key ∨ key ∈ [(ctx, name)] := by
    unfold LookupState.Knows
    rw [List.mem_singleton]
    by_cases hkey : key = (ctx, name)
    · subst hkey
      rw [lookupSimple_answer]
      simp
    · rw [lookupSimple_other hkey]
      simp [hkey]
  refine ⟨⟨hfound, fun package => ?_⟩, hknows⟩
  simp only [hknows, List.mem_singleton]
  cases hremembered : st.answers.lookup (ctx, name) with
  | some answer =>
    have hold (key : ClassId × Name) : st.Knows key ∨ key = (ctx, name) ↔ st.Knows key := by
      refine or_iff_left_of_imp ?_
      rintro rfl
      unfold LookupState.Knows
      rw [hremembered]
      rfl
    simp only [lookupSimple_of_answer hremembered, hst.used, hold]
  | none =>
    rw [lookupSimple_of_none hremembered]
    show package ∈ ((s.findSimple ctx name range).2.foldl OrderedSet.add st.usedPackages).keys ↔ _
    rw [OrderedMap.mem_keys_foldl_add, findSimple_packages, hst.used]
    constructor
    · rintro (hnew | ⟨key, hkey, hpackage⟩)
      · exact ⟨(ctx, name), .inr rfl, hnew⟩
      · exact ⟨key, .inl hkey, hpackage⟩
    · rintro ⟨key, hkey | rfl, hpackage⟩
      · exact .inr ⟨key, hkey, hpackage⟩
      · exact .inl hpackage

/-- A lookup answers what a search finds, now or earlier. -/
theorem lookupSimple_value (ctx : ClassId) (name : Name) (range : Span) {st : LookupState}
    (hst : s.AnswersFound st) :
    (s.lookupSimple ctx name range st).1 = .ok (s.simpleType? ctx name) ∨
      s.simpleType? ctx name = none ∧ ∃ v, (s.lookupSimple ctx name range st).1 = .error v := by
  have hanswer := s.lookupSimple_answer ctx name range st
  obtain ⟨place, hplace⟩ := lookupSimple_finds ctx name range hst ctx name _ hanswer
  rw [hplace]
  rcases s.findSimple_value ctx name place with hvalue | ⟨herror, v, hnone⟩
  · exact .inl hvalue
  · exact .inr ⟨simpleType?_of_error hnone, herror⟩

/-- A lookup that does not fail finds what the name denotes, whatever is remembered. -/
theorem simpleType?_of_lookupSimple {ctx : ClassId} {name : Name} {range : Span} {st : LookupState}
    (hst : s.AnswersFound st) {answer : Option ClassId}
    (h : (s.lookupSimple ctx name range st).1 = .ok answer) : s.simpleType? ctx name = answer := by
  rcases lookupSimple_value ctx name range hst with hvalue | ⟨-, v, herror⟩
  · exact Except.ok.inj (hvalue.symm.trans h)
  · rw [herror] at h
    cases h

theorem resolveSimple_denotes (ctx : ClassId) (name : Name) (range : Span) :
    s.Denotes (s.resolveSimple ctx name range) [(ctx, name)]
      ((s.simpleType? ctx name).isSome = true) ((s.simpleType? ctx name).getD default) := by
  intro st hst
  have hrecorded := lookupSimple_recorded ctx name range hst
  have hvalue := lookupSimple_value ctx name range hst.found
  unfold resolveSimple
  rw [run_bind]
  revert hrecorded hvalue
  rcases s.lookupSimple ctx name range st with ⟨result, st₁⟩
  rintro ⟨hst₁, hknows⟩ hvalue
  rcases hvalue with hvalue | ⟨hnone, v, hvalue⟩
  · cases hvalue
    cases s.simpleType? ctx name with
    | none => exact ⟨hst₁, .inr ⟨Bool.false_ne_true, _, rfl⟩⟩
    | some found => exact ⟨hst₁, .inl ⟨rfl, rfl, hknows⟩⟩
  · cases hvalue
    exact ⟨hst₁, .inr ⟨by simp [hnone], v, rfl⟩⟩

theorem denotesType_denotes (ctx : ClassId) (name : Name) (range : Span) :
    s.Denotes (s.denotesType ctx name range) [(ctx, name)] True
      (s.simpleType? ctx name).isSome := by
  intro st hst
  obtain ⟨hst₁, hknows⟩ := lookupSimple_recorded ctx name range hst
  have hvalue := lookupSimple_value ctx name range hst.found
  rw [denotesType_run]
  refine ⟨hst₁, .inl ⟨trivial, ?_, hknows⟩⟩
  rcases hvalue with hvalue | ⟨hnone, v, hvalue⟩
  · rw [hvalue]
    cases s.simpleType? ctx name <;> rfl
  · rw [hvalue, hnone]
    rfl

theorem resolveTypeName_denotes (ctx : ClassId) (name : QualifiedName) (range : Span) :
    s.Denotes (s.resolveTypeName ctx name range) (lookupKeys ctx [name])
      ((s.namedType? ctx name).isSome = true) (s.denotation ctx name) := by
  unfold denotation
  obtain ⟨segments⟩ := name
  match segments with
  | [] => exact .throw Bool.false_ne_true
  | [simple] => exact resolveSimple_denotes ctx simple range
  | first :: second :: others =>
    have hmeaning : s.namedType? ctx ⟨first :: second :: others⟩ =
        if (s.simpleType? ctx first).isSome ∨
          (s.leadingTypeLength? ⟨first :: second :: others⟩).isSome then none
        else s.lookup ⟨first :: second :: others⟩ := rfl
    have hkeys : lookupKeys ctx [⟨first :: second :: others⟩] = [(ctx, first)] ++ [] := rfl
    rw [hkeys, ← true_and (_ = true), hmeaning]
    refine (denotesType_denotes ctx first range).bind ?_
    beta_reduce
    generalize (⟨first :: second :: others⟩ : QualifiedName) = name
    cases (s.simpleType? ctx first).isSome with
    | true => exact .throw Bool.false_ne_true
    | false =>
      cases s.leadingTypeLength? name with
      | some count => exact .throw Bool.false_ne_true
      | none =>
        cases s.lookup name with
        | some id => exact (Denotes.pure id).congr (by simp) (fun _ => rfl) (fun _ _ => Iff.rfl)
        | none => exact .throw Bool.false_ne_true

/-! ## §5 Units -/

/-- A computation looks up the types of certain names in a unit, all of which it needs. -/
def DenotesIn (s : SymbolTable) (id : ClassId) (x : LookupM α) (names : List QualifiedName)
    (value : α) : Prop :=
  s.Denotes x (lookupKeys id names) (∀ name ∈ names, (s.namedType? id name).isSome = true) value

namespace DenotesIn

variable {id : ClassId} {x : LookupM α} {names names' : List QualifiedName} {value : α}

theorem pure (id : ClassId) (a : α) : s.DenotesIn id (Pure.pure a) [] a :=
  (Denotes.pure a).congr (by simp) (fun _ => rfl) (fun _ _ => Iff.rfl)

theorem bind {f : α → LookupM β} {value' : β} (hx : s.DenotesIn id x names value)
    (hf : s.DenotesIn id (f value) names' value') :
    s.DenotesIn id (x >>= f) (names ++ names') value' := by
  refine (Denotes.bind hx hf).congr ?_ (fun _ => rfl) (fun _ _ => ?_)
  · exact List.forall_mem_append
  · unfold lookupKeys
    rw [List.filterMap_append]

theorem map (hx : s.DenotesIn id x names value) (g : α → β) :
    s.DenotesIn id (x >>= fun a => Pure.pure (g a)) names (g value) :=
  Denotes.map hx g

theorem mapM {f : α → LookupM β} {N : α → List QualifiedName} {g : α → β} {xs : List α}
    (hf : ∀ a ∈ xs, s.DenotesIn id (f a) (N a) (g a)) :
    s.DenotesIn id (xs.mapM f) (xs.flatMap N) (xs.map g) := by
  refine (Denotes.mapM hf).congr ?_ (fun _ => rfl) (fun _ _ => ?_)
  · exact List.forall_mem_flatMap
  · unfold lookupKeys
    rw [List.filterMap_flatMap]

end DenotesIn

section Lowering

variable (id : ClassId)

theorem resolveRef_denotes (ref : TypeRef) :
    s.DenotesIn id (s.resolveRef id ref) [ref.name] (s.denotation id ref.name) :=
  (resolveTypeName_denotes id ref.name ref.range).congr (by simp) (fun _ => rfl)
    (fun _ _ => Iff.rfl)

theorem resolveType_denotes (type : TypeSyntax) :
    s.DenotesIn id (s.resolveType id type) type.names (type.typeIn (s.denotation id)) := by
  induction type with
  | primitive type => exact .pure id _
  | named ref => exact (resolveRef_denotes id ref).map Ty.declared
  | array element ih => exact ih.map Ty.array

theorem resolveRefs_denotes (refs : List TypeRef) :
    s.DenotesIn id (refs.mapM (s.resolveRef id)) (refs.map TypeRef.name)
      (refs.map (fun ref => s.denotation id ref.name)) := by
  rw [List.map_eq_flatMap]
  exact .mapM (fun ref _ => resolveRef_denotes id ref)

theorem lowerField_denotes (f : FieldDecl) :
    s.DenotesIn id (s.lowerField id f) f.type.names (f.signature (s.denotation id)) :=
  .map (resolveType_denotes id f.type) _

theorem lowerParams_denotes (params : List Param) :
    s.DenotesIn id (s.lowerParams id params) (params.flatMap (fun param => param.type.names))
      (params.map (fun param => param.type.typeIn (s.denotation id))) :=
  .mapM (fun param _ => resolveType_denotes id param.type)

theorem lowerResult_denotes (result : Option TypeSyntax) :
    s.DenotesIn id (s.lowerResult id result) (result.elim [] TypeSyntax.names)
      (result.elim .void (TypeSyntax.typeIn (s.denotation id))) := by
  cases result with
  | none => exact .pure id _
  | some type => exact resolveType_denotes id type

theorem lowerMethod_denotes (isInterface : Bool) (m : MethodDecl) :
    s.DenotesIn id (s.lowerMethod id isInterface m)
      (signatureNames m.params m.returnType m.throws)
      (m.signature (s.denotation id) isInterface) :=
  .bind (lowerParams_denotes id m.params) (.bind (lowerResult_denotes id m.returnType)
    (.map (resolveRefs_denotes id m.throws) _))

theorem lowerConstructor_denotes (c : ConstructorDecl) :
    s.DenotesIn id (s.lowerConstructor id c) (signatureNames c.params none c.throws)
      (c.signature (s.denotation id)) :=
  .bind (lowerParams_denotes id c.params) (.map (resolveRefs_denotes id c.throws) _)

theorem lowerConstructors_denotes (d : TypeDecl) :
    s.DenotesIn id (s.lowerConstructors id d)
      (d.classConstructors.flatMap (fun c => signatureNames c.params none c.throws))
      (d.constructorSignatures (s.denotation id)) := by
  unfold lowerConstructors TypeDecl.constructorSignatures TypeDecl.classConstructors
  cases d.isInterface with
  | true => exact .pure id _
  | false =>
    simp only [Bool.false_eq_true, if_false]
    cases hempty : d.constructors.isEmpty with
    | true =>
      rw [List.isEmpty_iff.mp hempty]
      exact .pure id _
    | false => exact .mapM (fun c _ => lowerConstructor_denotes id c)

/-- The superclass of a unit needs its own name, or else the class above all others. -/
theorem lowerSuperclass_denotes :
    s.Denotes (s.lowerSuperclass id)
      (lookupKeys id ((s.unitAt id).decl.classSuperclass.toList.map TypeRef.name))
      ((∀ name ∈ (s.unitAt id).decl.classSuperclass.toList.map TypeRef.name,
          (s.namedType? id name).isSome = true) ∧
        ((s.unitAt id).hasImplicitSuperclass = true → (s.lookup objectName).isSome = true))
      ((s.unitAt id).superclassIn (s.denotation id) (s.lookup objectName)) := by
  unfold lowerSuperclass CompilationUnit.superclassIn CompilationUnit.hasImplicitSuperclass
    TypeDecl.classSuperclass TypeDecl.isInterface
  simp only
  cases (s.unitAt id).decl.kind with
  | interfaceType =>
    exact (Denotes.pure none).congr (by simp) (fun _ => rfl) (fun _ _ => by simp [lookupKeys])
  | classType =>
    cases (s.unitAt id).decl.superclass with
    | some ref =>
      exact ((resolveRef_denotes id ref).map some).congr (by simp) (fun _ => rfl)
        (fun _ _ => Iff.rfl)
    | none =>
      by_cases hname : (s.unitAt id).typeName = objectName
      · simp only [hname]
        exact (Denotes.pure none).congr (by simp) (fun _ => rfl) (fun _ _ => by simp [lookupKeys])
      · simp only [hname]
        cases hobject : s.lookup objectName with
        | some object =>
          exact (Denotes.pure (some object)).congr (by simp) (fun _ => by simp [hname])
            (fun _ _ => by simp [lookupKeys])
        | none => exact .throw (by simp [hname])

theorem linkBodies_denotes (d : TypeDecl) :
    s.DenotesIn id (s.linkBodies id d)
      (if s.isLibrary id then [] else d.bodies.writtenTypes.flatMap TypeSyntax.names) () := by
  unfold linkBodies
  cases s.isLibrary id with
  | true => exact .pure id _
  | false =>
    refine (Denotes.forM (fun type _ =>
      (resolveType_denotes id type).map (fun _ => PUnit.unit))).congr ?_ (fun _ => rfl)
      (fun _ _ => ?_)
    · exact List.forall_mem_flatMap
    · exact Iff.of_eq (congrArg _ List.filterMap_flatMap)

/-- A unit is lowered to its signature when its names have types. -/
theorem lowerUnit_denotes :
    s.Denotes (s.lowerUnit id) (lookupKeys id (s.linkedNames id)) (s.Resolvable id)
      (s.signatureOf id) := by
  have hnames : s.linkedNames id =
      (s.unitAt id).decl.classSuperclass.toList.map TypeRef.name ++
        ((s.unitAt id).decl.interfaces.map TypeRef.name ++ ((s.unitAt id).decl.fields.flatMap
          (fun f => f.type.names) ++ ((s.unitAt id).decl.methods.flatMap
            (fun m => signatureNames m.params m.returnType m.throws) ++
          ((s.unitAt id).decl.classConstructors.flatMap
            (fun c => signatureNames c.params none c.throws) ++
          if s.isLibrary id then []
          else (s.unitAt id).decl.bodies.writtenTypes.flatMap TypeSyntax.names)))) := by
    simp only [linkedNames, TypeDecl.signatureNames, List.append_assoc]
  refine Denotes.congr (Denotes.bind (lowerSuperclass_denotes id)
    (DenotesIn.bind (resolveRefs_denotes id _)
      (.bind (.mapM (fun f _ => lowerField_denotes id f))
        (.bind (.mapM (fun m _ => lowerMethod_denotes id _ m))
          (.bind (lowerConstructors_denotes id _) (.map (linkBodies_denotes id _) _)))))) ?_
    (fun _ => rfl) (fun _ _ => ?_)
  · constructor
    · intro h
      obtain ⟨hsuperclass, hothers⟩ := List.forall_mem_append.mp (hnames ▸ h.names)
      exact ⟨⟨hsuperclass, h.object⟩, hothers⟩
    · rintro ⟨⟨hsuperclass, hobject⟩, hothers⟩
      exact ⟨hnames ▸ List.forall_mem_append.mpr ⟨hsuperclass, hothers⟩, hobject⟩
  · rw [hnames]
    exact Iff.of_eq (congrArg _ List.filterMap_append)

end Lowering

/-! ## §6 Linking -/

/-- The signatures of all units. -/
def signatures (s : SymbolTable) : List ClassDef := s.ids.map s.signatureOf

/-- The signatures are found by the names of the types. -/
theorem indexIn_signatures (hs : s.Indexed) (name : QualifiedName) :
    TypeTable.indexIn s.signatures.toArray name = s.lookup name := by
  have hname (id : ClassId) : (s.signatureOf id).name = (s.unitAt id).typeName := rfl
  refine Option.ext (fun id => ?_)
  unfold TypeTable.indexIn
  rw [hs.lookup_iff, Array.findIdx?_eq_some_iff_getElem]
  simp only [signatures, ids, List.size_toArray, List.length_map, List.length_range,
    List.getElem_toArray, List.getElem_map, List.getElem_range, hname, beq_iff_eq]
  constructor
  · rintro ⟨hid, hfound, -⟩
    exact ⟨hid, hfound⟩
  · rintro ⟨hid, hfound⟩
    refine ⟨hid, hfound, fun other hother heq => ?_⟩
    have hsame := hs.eq_of_typeName_eq (Nat.lt_trans hother hid) hid (heq.trans hfound.symm)
    exact Nat.ne_of_lt hother hsame

theorem recorded_empty (s : SymbolTable) : s.Recorded {} where
  found := s.answersFound_empty
  used package := by
    constructor
    · intro h
      cases h
    · rintro ⟨key, hkey, -⟩
      cases hkey

/-- A program is lowered to a table: all imports are valid, all names have types, and
the table holds the signatures of all units. -/
structure Lowers (s : SymbolTable) (t : TypeTable) : Prop where
  imports : ∀ id ∈ s.ids, s.checkImports id = .ok ()
  resolvable : ∀ id ∈ s.ids, s.Resolvable id
  table : TypeTable.ofClasses s.signatures.toArray = .ok t

/-- The lookups that linking makes. -/
def linkedKeys (s : SymbolTable) : List (ClassId × Name) :=
  s.ids.flatMap (fun id => lookupKeys id (s.linkedNames id))

theorem lowerAll_denotes (s : SymbolTable) :
    s.Denotes s.lowerAll s.linkedKeys (∃ t, s.Lowers t)
      ((TypeTable.ofClasses s.signatures.toArray).toOption.getD default) := by
  rw [lowerAll_eq]
  have hresult : s.Denotes (ExceptT.mk (pure ((TypeTable.ofClasses s.signatures.toArray).mapError
      fun missing => ({ cause := .typeNotFound missing.toDotted } : Violation))) : LookupM TypeTable)
      [] (∃ t, TypeTable.ofClasses s.signatures.toArray = .ok t)
      ((TypeTable.ofClasses s.signatures.toArray).toOption.getD default) := by
    cases TypeTable.ofClasses s.signatures.toArray with
    | error missing =>
      exact .throw (fun ⟨_, h⟩ => by cases h)
    | ok t => exact (Denotes.pure t).congr (by simp) (fun _ => rfl) (fun _ _ => Iff.rfl)
  refine Denotes.congr (Denotes.bind (Denotes.forM (fun id _ => .lift (s.checkImports id)
    (fun _ _ => rfl))) (Denotes.bind (Denotes.mapM (fun id _ => lowerUnit_denotes id)) hresult))
    ?_ (fun _ => rfl) (fun _ _ => ?_)
  · have hok (id : ClassId) : (s.checkImports id).isOk = true ↔ s.checkImports id = .ok () := by
      cases s.checkImports id with
      | error e => exact ⟨fun h => absurd h Bool.false_ne_true, fun h => by cases h⟩
      | ok _ => exact ⟨fun _ => rfl, fun _ => rfl⟩
    simp only [hok]
    constructor
    · rintro ⟨t, h⟩
      exact ⟨h.imports, h.resolvable, t, h.table⟩
    · rintro ⟨himports, hresolvable, t, ht⟩
      exact ⟨t, himports, hresolvable, ht⟩
  · simp [linkedKeys]

section Linked

variable {l : Linked}

/-- What a linked program consists of. -/
theorem link_lowers (h : s.link = .ok l) :
    s.Lowers l.table ∧ s.Recorded l.lookups ∧
      ∀ key, l.lookups.Knows key ↔ key ∈ s.linkedKeys := by
  have hdenotes := s.lowerAll_denotes {} s.recorded_empty
  rw [(link_run h).2.1] at hdenotes
  obtain ⟨hrecorded, ⟨⟨t, hlowers⟩, hok, hknows⟩ | ⟨-, v, herror⟩⟩ := hdenotes
  · rw [hlowers.table] at hok
    cases hok
    refine ⟨hlowers, hrecorded, fun key => ?_⟩
    rw [hknows]
    exact or_iff_right (fun h => by cases h)
  · cases herror

/-- Linking gives a unit its signature. -/
theorem link_classAt (h : s.link = .ok l) {id : ClassId} (hid : id < s.size) :
    l.table.classAt id = s.signatureOf id := by
  obtain ⟨hlowers, -, -⟩ := link_lowers h
  unfold TypeTable.classAt
  rw [(TypeTable.ofClasses_eq_ok hlowers.table).1, Array.getD_eq_getD_getElem?,
    List.getElem?_toArray, signatures, ids, List.getElem?_map, List.getElem?_range hid]
  rfl

/-- The class above all others is found by its name. -/
theorem link_lookup_object (hs : s.Indexed) (h : s.link = .ok l) :
    s.lookup objectName = some l.table.wellKnown.object := by
  obtain ⟨-, hsize, -⟩ := link_eq_ok hs h
  obtain ⟨-, ⟨hobject, hname⟩, -⟩ := TypeTable.ofClasses_eq_ok (link_lowers h).1.table
  rw [hsize] at hobject
  rw [link_classAt h hobject] at hname
  exact hs.lookup_iff.mpr ⟨hobject, hname⟩

end Linked

end SymbolTable

end JoosStatics
