/-
JoosStatics.Proofs.Renaming.Rules — the rules of a body check in two
accounts of a program.

`BodyContext.Renames` says that two contexts give the same account of the
member under check and of everything it may refer to. Then every rule has
the same outcome in both, up to the renaming: the same choice, or the same
violation at the place that stands for its place.
-/
import JoosStatics.Proofs.Renaming.Basic
import JoosStatics.Proofs.Renaming.Spans
import JoosStatics.Bodies.Statements

namespace JoosStatics

variable {ρ : Renaming}

/-! ## §1 What names and receivers stand for -/

/-- The same variable in two accounts. -/
inductive ValueKind.Renames (ρ : Renaming) : ValueKind → ValueKind → Prop where
  | localVar {id id' : LocalId} (h : ρ.sameLocal id id') : Renames ρ (.localVar id) (.localVar id')
  | field (ref : FieldRef) : Renames ρ (.field ref) (.field (ρ.field ref))
  | arrayLength : Renames ρ .arrayLength .arrayLength

/-- The same resolution in two accounts. -/
inductive Resolution.Renames (ρ : Renaming) : Resolution → Resolution → Prop where
  | localVar {id id' : LocalId} (h : ρ.sameLocal id id') : Renames ρ (.localVar id) (.localVar id')
  | field (ref : FieldRef) : Renames ρ (.field ref) (.field (ρ.field ref))
  | arrayLength : Renames ρ .arrayLength .arrayLength
  | type (id : ClassId) : Renames ρ (.type id) (.type (ρ.type id))
  | method (ref : MethodRef) : Renames ρ (.method ref) (.method (ρ.method ref))
  | constructor (ref : ConstructorRef) :
    Renames ρ (.constructor ref) (.constructor (ρ.constructor ref))

theorem ValueKind.Renames.resolution {kind kind' : ValueKind} (h : kind.Renames ρ kind') :
    kind.resolution.Renames ρ kind'.resolution := by
  cases h with
  | localVar h => exact .localVar h
  | field ref => exact .field ref
  | arrayLength => exact .arrayLength

/-- The same value in two accounts, by its type and the variable that holds it. -/
def SameValue (ρ : Renaming) (found found' : Ty × ValueKind) : Prop :=
  found'.1 = found.1.rename ρ.type ∧ found.2.Renames ρ found'.2

/-- The same meaning of a name in two accounts. -/
inductive NameMeaning.Renames (ρ : Renaming) : NameMeaning → NameMeaning → Prop where
  | value (type : Ty) {kind kind' : ValueKind} (h : kind.Renames ρ kind') :
    Renames ρ (.value type kind) (.value (type.rename ρ.type) kind')
  | type (id : ClassId) : Renames ρ (.type id) (.type (ρ.type id))
  | package (name : PackageName) : Renames ρ (.package name) (.package name)

/-- The same receiver under other numbers. -/
def Receiver.rename (σ : ClassId → ClassId) : Receiver → Receiver
  | .type id => .type (σ id)
  | .value held => .value (held.rename σ)

/-- The same scope in two accounts. -/
def Scope.Renames (ρ : Renaming) (scope scope' : Scope) : Prop :=
  List.Forall₂ (fun entry entry' =>
    ρ.sameLocal entry.1 entry'.1 ∧ entry'.2 = entry.2.rename ρ) scope scope'

/-- A name finds the same variable in both scopes. -/
theorem Scope.Renames.find? {scope scope' : Scope} (h : scope.Renames ρ scope') (name : Name) :
    (scope.find? name = none ∧ scope'.find? name = none) ∨
    ∃ id id' var, scope.find? name = some (id, var) ∧ scope'.find? name = some (id', var.rename ρ) ∧
      ρ.sameLocal id id' := by
  unfold Scope.find?
  induction h with
  | nil => exact .inl ⟨rfl, rfl⟩
  | @cons entry entry' rest rest' hentry _ ih =>
    obtain ⟨id, var⟩ := entry
    obtain ⟨id', var'⟩ := entry'
    obtain ⟨hid, hvar⟩ := hentry
    obtain rfl : var' = var.rename ρ := hvar
    by_cases hname : var.name = name
    · exact .inr ⟨id, id', var, by simp [hname], by simp [LocalVar.rename, hname], hid⟩
    · simpa [LocalVar.rename, hname] using ih

/-! ## §2 Contexts -/

/-- Two contexts give the same account of a member and of what it may refer to. -/
structure BodyContext.Renames (ρ : Renaming) (ctx ctx' : BodyContext) : Prop where
  table : ctx.table.Renames ρ ctx'.table
  lookup : ∀ name, ctx'.symbols.lookup name = (ctx.symbols.lookup name).map ρ.type
  field? : ∀ id name, (ctx'.hierarchy.members (ρ.type id)).field? name =
    ((ctx.hierarchy.members id).field? name).map ρ.field
  methodsNamed : ∀ id name, (ctx'.hierarchy.methodsNamed (ρ.type id) name).Perm
    ((ctx.hierarchy.methodsNamed id name).map ρ.method)
  classId : ctx'.classId = ρ.type ctx.classId
  member : ctx'.member = ctx.member
  isStatic : ctx'.isStatic = ctx.isStatic
  thisForbidden : ctx'.thisForbidden = ctx.thisForbidden
  expectedReturn : ctx'.expectedReturn = ctx.expectedReturn.rename ρ.type
  throws : ctx'.throws = ctx.throws.map ρ.type

/-- Two outcomes of a rule in two accounts: related values, or the same violation. -/
abbrev Renaming.Matches (ρ : Renaming) {α α' : Type} (R : α → α' → Prop)
    (x : Except Violation α) (x' : Except Violation α') : Prop :=
  Alike (fun v v' => v' = v.mapSpan ρ.span) R x x'

/-- Two outcomes of a rule that only passes or fails. -/
abbrev Renaming.Agrees (ρ : Renaming) (x x' : Except Violation Unit) : Prop :=
  ρ.Matches (fun _ _ => True) x x'

namespace BodyContext

variable {ctx ctx' : BodyContext}

/-- A context gives the same account as itself. -/
theorem renames_refl (ctx : BodyContext) (sameLocal : LocalId → LocalId → Prop) :
    ctx.Renames (.identity sameLocal) ctx where
  table := ctx.table.renames_refl sameLocal
  lookup _ := Option.map_id_apply.symm
  field? _ _ := Option.map_id_apply.symm
  methodsNamed _ _ := (List.map_id _) ▸ .refl _
  classId := rfl
  member := rfl
  isStatic := rfl
  thisForbidden := rfl
  expectedReturn := (Ty.rename_id _).symm
  throws := (List.map_id _).symm

namespace Renames

/-- So do the contexts of the arguments of an invocation. -/
theorem forbidThis (h : ctx.Renames ρ ctx') :
    Renames ρ { ctx with thisForbidden := true } { ctx' with thisForbidden := true } where
  table := h.table
  lookup := h.lookup
  field? := h.field?
  methodsNamed := h.methodsNamed
  classId := h.classId
  member := h.member
  isStatic := h.isStatic
  thisForbidden := rfl
  expectedReturn := h.expectedReturn
  throws := h.throws

variable (h : ctx.Renames ρ ctx') (range : Span)
include h

theorem locate : ctx'.locate (ρ.span range) = (ctx.locate range).mapSpan ρ.span := by
  unfold BodyContext.locate
  rw [h.classId, h.member, h.table.nameOf]
  rfl

theorem broken {α α' : Type} {R : α → α' → Prop} (cause : Cause) :
    ρ.Matches R (ctx.broken cause range) (ctx'.broken cause (ρ.span range)) := by
  refine .error ?_
  rw [h.locate]
  rfl

/-! ## §3 Rules on values and members -/

theorem requireThis : ρ.Agrees (ctx.requireThis range) (ctx'.requireThis (ρ.span range)) := by
  unfold BodyContext.requireThis
  rw [h.isStatic, h.thisForbidden]
  split
  · exact h.broken range _
  · exact .ok trivial

theorem requireAssignable (found expected : Ty) :
    ρ.Agrees (ctx.requireAssignable found expected range)
      (ctx'.requireAssignable (found.rename ρ.type) (expected.rename ρ.type) (ρ.span range)) := by
  unfold BodyContext.requireAssignable
  rw [h.table.isAssignable, h.table.display, h.table.display]
  split
  · exact .ok trivial
  · exact h.broken range _

theorem requireNumeric (found : Ty) :
    ρ.Agrees (ctx.requireNumeric found range)
      (ctx'.requireNumeric (found.rename ρ.type) (ρ.span range)) := by
  unfold BodyContext.requireNumeric
  rw [Ty.isNumeric_rename, h.table.display]
  split
  · exact .ok trivial
  · exact h.broken range _

theorem checkThrows (thrown : List ClassId) :
    ρ.Agrees (ctx.checkThrows thrown range)
      (ctx'.checkThrows (thrown.map ρ.type) (ρ.span range)) := by
  unfold BodyContext.checkThrows
  rw [h.throws, h.table.find?_uncovered]
  cases thrown.find? (fun e =>
      ctx.table.isCheckedException e && !ctx.table.isCovered e ctx.throws) with
  | none => exact .ok trivial
  | some exception =>
    simp only [Option.map_some, h.table.nameOf]
    exact h.broken range _

theorem fieldOf (id : ClassId) (name : Name) :
    ρ.Matches (fun ref ref' => ref' = ρ.field ref) (ctx.fieldOf id name range)
      (ctx'.fieldOf (ρ.type id) name (ρ.span range)) := by
  unfold BodyContext.fieldOf
  rw [h.field?, h.table.nameOf]
  cases (ctx.hierarchy.members id).field? name with
  | none => exact h.broken range _
  | some ref => exact .ok rfl

theorem instanceField (type : Ty) (name : Name) :
    ρ.Matches (SameValue ρ) (ctx.instanceField type name range)
      (ctx'.instanceField (type.rename ρ.type) name (ρ.span range)) := by
  have hdisplay := h.table.display type
  cases type with
  | array element =>
    simp only [Ty.rename] at hdisplay
    simp only [BodyContext.instanceField, Ty.rename, hdisplay]
    split
    · exact .ok ⟨rfl, .arrayLength⟩
    · exact h.broken range _
  | declared id =>
    refine Alike.bind (h.fieldOf range id name) (fun ref ref' href => ?_)
    subst href
    simp only [h.table.fieldAt, FieldDef.rename]
    split
    · exact h.broken range _
    · exact .ok ⟨rfl, .field ref⟩
  | primitive p => exact h.broken range _
  | null => exact h.broken range _
  | void => exact h.broken range _

theorem staticField (id : ClassId) (name : Name) :
    ρ.Matches (SameValue ρ) (ctx.staticField id name range)
      (ctx'.staticField (ρ.type id) name (ρ.span range)) := by
  refine Alike.bind (h.fieldOf range id name) (fun ref ref' href => ?_)
  subst href
  simp only [h.table.fieldAt, FieldDef.rename]
  split
  · exact .ok ⟨rfl, .field ref⟩
  · exact h.broken range _

theorem selectField (receiver : Receiver) (name : Name) :
    ρ.Matches (SameValue ρ) (ctx.selectField receiver name range)
      (ctx'.selectField (receiver.rename ρ.type) name (ρ.span range)) := by
  cases receiver with
  | type id => exact h.staticField range id name
  | value type => exact h.instanceField range type name

theorem extend {meaning meaning' : NameMeaning} (hmeaning : meaning.Renames ρ meaning')
    (name : Name) :
    ρ.Matches (NameMeaning.Renames ρ) (ctx.extend range meaning name)
      (ctx'.extend (ρ.span range) meaning' name) := by
  have hvalue {found found' : Ty × ValueKind} (hfound : SameValue ρ found found') :
      NameMeaning.Renames ρ (.value found.1 found.2) (.value found'.1 found'.2) := by
    obtain ⟨htype, hkind⟩ := hfound
    rw [htype]
    exact .value _ hkind
  cases hmeaning with
  | value type _ => exact (h.instanceField range type name).map (fun _ _ => hvalue)
  | type id => exact (h.staticField range id name).map (fun _ _ => hvalue)
  | package package =>
    simp only [BodyContext.extend, h.lookup]
    cases ctx.symbols.lookup (package.child name) with
    | none => exact .ok (.package _)
    | some id => exact .ok (.type id)

theorem extendAll {meaning meaning' : NameMeaning} (hmeaning : meaning.Renames ρ meaning')
    (names : List Name) :
    ρ.Matches (NameMeaning.Renames ρ) (ctx.extendAll range meaning names)
      (ctx'.extendAll (ρ.span range) meaning' names) := by
  induction names generalizing meaning meaning' with
  | nil => exact .ok hmeaning
  | cons name names ih => exact Alike.bind (h.extend range hmeaning name) (fun _ _ => ih)

theorem requireWritable {kind kind' : ValueKind} (hkind : kind.Renames ρ kind') :
    ρ.Agrees (ctx.requireWritable kind range) (ctx'.requireWritable kind' (ρ.span range)) := by
  cases hkind with
  | localVar _ => exact .ok trivial
  | arrayLength => exact h.broken range _
  | field ref =>
    simp only [BodyContext.requireWritable, h.table.fieldAt, FieldDef.rename]
    split
    · exact h.broken range _
    · exact .ok trivial

/-! ## §4 Rules on invocations -/

theorem selected {α α' : Type} {g : α → α'} {selection : Selection α} {selection' : Selection α'}
    (hselection : Selection.Renames g selection selection') (name : Name) (args : List Ty) :
    ρ.Matches (fun choice choice' => choice' = g choice) (ctx.selected selection name args range)
      (ctx'.selected selection' name (args.map (Ty.rename ρ.type)) (ρ.span range)) := by
  cases hselection with
  | found choice => exact .ok rfl
  | notFound =>
    simp only [BodyContext.selected, h.table.displayList]
    exact h.broken range _
  | ambiguous _ _ =>
    simp only [BodyContext.selected, h.table.displayList]
    exact h.broken range _

theorem selectMethod (id : ClassId) (name : Name) (args : List Ty) :
    ρ.Matches (fun ref ref' => ref' = ρ.method ref) (ctx.selectMethod id name args range)
      (ctx'.selectMethod (ρ.type id) name (args.map (Ty.rename ρ.type)) (ρ.span range)) := by
  refine h.selected range (h.table.selectOverload ?_ args) name args
  have hcandidates := (h.methodsNamed id name).map (fun ref =>
    (ref, (ctx'.table.methodAt ref).params))
  rw [List.map_map] at hcandidates ⊢
  simpa only [Function.comp_def, h.table.methodAt, MethodDef.rename] using hcandidates

theorem selectConstructor (id : ClassId) (args : List Ty) :
    ρ.Matches (fun ref ref' => ref' = ρ.constructor ref) (ctx.selectConstructor id args range)
      (ctx'.selectConstructor (ρ.type id) (args.map (Ty.rename ρ.type)) (ρ.span range)) := by
  unfold BodyContext.selectConstructor
  simp only [h.table.simpleName]
  refine h.selected range (h.table.selectOverload ?_ args) _ args
  have hcandidates := (h.table.constructorsOf id).map (fun ref =>
    (ref, (ctx'.table.constructorAt ref).params))
  rw [List.map_map] at hcandidates
  simp only [Function.comp_def, h.table.constructorAt, ConstructorDef.rename] at hcandidates
  rw [TypeTable.constructors_zipIdx _ _ (fun ref c => (ref, c.params)),
    TypeTable.constructors_zipIdx _ _ (fun ref c => (ref, c.params)), List.map_map]
  exact hcandidates

theorem callee (receiver : Receiver) :
    ρ.Matches (fun target target' => target' = (ρ.type target.1, target.2))
      (ctx.callee receiver range) (ctx'.callee (receiver.rename ρ.type) (ρ.span range)) := by
  have hvalue (type : Ty) := h.table.display type
  cases receiver with
  | type id => exact .ok rfl
  | value type =>
    cases type with
    | declared id => exact .ok rfl
    | array element => exact .ok (congrArg (·, CallKind.viaValue) h.table.object)
    | _ => exact h.broken range _

theorem checkCallKind (kind : CallKind) (method : MethodDef) :
    ρ.Agrees (ctx.checkCallKind kind method range)
      (ctx'.checkCallKind kind (method.rename ρ) (ρ.span range)) := by
  have hstatic : (method.rename ρ).isStatic = method.isStatic := rfl
  unfold BodyContext.checkCallKind
  rw [hstatic, h.table.methodSignature]
  split
  · exact h.requireThis range
  · exact h.broken range _
  · exact h.broken range _
  · exact .ok trivial

theorem calledMethod (id : ClassId) (kind : CallKind) (name : Name) (args : List Ty) :
    ρ.Matches (fun ref ref' => ref' = ρ.method ref) (ctx.calledMethod id kind name args range)
      (ctx'.calledMethod (ρ.type id) kind name (args.map (Ty.rename ρ.type)) (ρ.span range)) := by
  refine Alike.bind (h.selectMethod range id name args) (fun ref ref' href => ?_)
  subst href
  simp only [h.table.methodAt]
  refine Alike.bind (h.checkCallKind range kind _) (fun _ _ _ => ?_)
  exact Alike.bind (h.checkThrows range _) (fun _ _ _ => .ok rfl)

theorem invokedConstructor (id : ClassId) (args : List Ty) :
    ρ.Matches (fun ref ref' => ref' = ρ.constructor ref) (ctx.invokedConstructor id args range)
      (ctx'.invokedConstructor (ρ.type id) (args.map (Ty.rename ρ.type)) (ρ.span range)) := by
  refine Alike.bind (h.selectConstructor range id args) (fun ref ref' href => ?_)
  subst href
  simp only [h.table.constructorAt]
  exact Alike.bind (h.checkThrows range _) (fun _ _ _ => .ok rfl)

/-! ## §5 Rules on operators -/

theorem literalType (value : Literal) :
    ctx'.literalType value = (ctx.literalType value).rename ρ.type := by
  cases value with
  | string text =>
    simp only [BodyContext.literalType, h.table.wellKnown]
    rfl
  | _ => rfl

theorem elementType (array index : Ty) (indexRange : Span) :
    ρ.Matches (fun type type' => type' = type.rename ρ.type)
      (ctx.elementType array index range indexRange)
      (ctx'.elementType (array.rename ρ.type) (index.rename ρ.type) (ρ.span range)
        (ρ.span indexRange)) := by
  unfold BodyContext.elementType
  rw [Ty.element?_rename, h.table.display]
  cases array.element? with
  | none => exact h.broken range _
  | some element =>
    exact Alike.bind (h.requireNumeric indexRange index) (fun _ _ _ => .ok rfl)

theorem checkCast (source target : Ty) :
    ρ.Agrees (ctx.checkCast source target range)
      (ctx'.checkCast (source.rename ρ.type) (target.rename ρ.type) (ρ.span range)) := by
  unfold BodyContext.checkCast
  rw [h.table.isCastable, h.table.display, h.table.display]
  split
  · exact .ok trivial
  · exact h.broken range _

theorem checkInstanceOf (source target : Ty) :
    ρ.Agrees (ctx.checkInstanceOf source target range)
      (ctx'.checkInstanceOf (source.rename ρ.type) (target.rename ρ.type) (ρ.span range)) := by
  unfold BodyContext.checkInstanceOf
  rw [Ty.isReference_rename, Ty.isReference_rename, h.table.display, h.table.display]
  split
  · exact h.checkCast range source target
  · exact h.broken range _

omit range in
theorem areComparable (lhs rhs : Ty) :
    ctx'.areComparable (lhs.rename ρ.type) (rhs.rename ρ.type) = ctx.areComparable lhs rhs := by
  unfold BodyContext.areComparable
  simp only [Ty.isNumeric_rename, Ty.isBoolean_rename, Ty.isReference_rename, h.table.isCastable]

omit range in
theorem binaryResult? (op : BinaryOp) (lhs rhs : Ty) :
    ctx'.binaryResult? op (lhs.rename ρ.type) (rhs.rename ρ.type) =
      (ctx.binaryResult? op lhs rhs).map (Ty.rename ρ.type) := by
  have hstring : Ty.declared ctx'.table.wellKnown.string =
      (Ty.declared ctx.table.wellKnown.string).rename ρ.type := by
    rw [h.table.wellKnown]
    rfl
  unfold BodyContext.binaryResult?
  simp only [hstring, (Ty.rename_injective ρ.type_injective).eq_iff, Ty.isNumeric_rename,
    Ty.isBoolean_rename, h.areComparable, ne_eq, Ty.rename_eq_void]
  cases op <;> simp only <;> split <;> first | rfl | (split <;> rfl)

theorem binaryType (op : BinaryOp) (lhs rhs : Ty) :
    ρ.Matches (fun type type' => type' = type.rename ρ.type) (ctx.binaryType op lhs rhs range)
      (ctx'.binaryType op (lhs.rename ρ.type) (rhs.rename ρ.type) (ρ.span range)) := by
  unfold BodyContext.binaryType
  rw [h.binaryResult?, h.table.display, h.table.display]
  cases ctx.binaryResult? op lhs rhs with
  | none => exact h.broken range _
  | some type => exact .ok rfl

theorem unaryType (op : UnaryOp) (operand : Ty) :
    ρ.Matches (fun type type' => type' = type.rename ρ.type) (ctx.unaryType op operand range)
      (ctx'.unaryType op (operand.rename ρ.type) (ρ.span range)) := by
  cases op with
  | neg => exact Alike.bind (h.requireNumeric range operand) (fun _ _ _ => .ok rfl)
  | not => exact Alike.bind (h.requireAssignable range operand .boolean) (fun _ _ _ => .ok rfl)

theorem checkIncDec (operand : Ty) :
    ρ.Agrees (ctx.checkIncDec operand range)
      (ctx'.checkIncDec (operand.rename ρ.type) (ρ.span range)) := by
  unfold BodyContext.checkIncDec
  rw [Ty.isNumeric_rename, h.table.display]
  split
  · exact .ok trivial
  · exact h.broken range _

theorem checkThrown (found : Ty) :
    ρ.Agrees (JoosStatics.checkThrown ctx found range)
      (JoosStatics.checkThrown ctx' (found.rename ρ.type) (ρ.span range)) := by
  have hdisplay := h.table.display found
  cases found with
  | declared id =>
    simp only [Ty.rename] at hdisplay
    simp only [JoosStatics.checkThrown, Ty.rename, hdisplay, h.table.wellKnown, WellKnown.rename,
      h.table.isSubclass]
    split
    · exact h.checkThrows range [id]
    · exact h.broken range _
  | null => exact .ok trivial
  | array element =>
    simp only [Ty.rename] at hdisplay
    simp only [JoosStatics.checkThrown, Ty.rename, hdisplay]
    exact h.broken range _
  | primitive p => exact h.broken range _
  | void => exact h.broken range _

end Renames

end BodyContext

end JoosStatics
