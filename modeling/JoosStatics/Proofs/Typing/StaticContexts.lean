/-
JoosStatics.Proofs.Typing.StaticContexts — static and instance members in
accepted programs.

`ClassContext.referent?` reads a qualified name from left to right by the
declarations in reach, whether or not they may be used where the name stands.
With it `static_discipline` says of every expression in a checked body:

* a field or method is static when it is selected from a type, and not when it
  is selected from a value, inside a qualified name as well as by an access or
  a call;
* where there is no `this`, in static members and among the arguments of
  `this(...)` and `super(...)`, nothing stands that needs one.

The bodies in question are those that are type-checked. An interface may be given
constructors, whose bodies are not (`interface_constructor_uses_this`).
-/
import JoosStatics.Proofs.Typing.Results

namespace JoosStatics

/-! ## §1 What a name refers to -/

/-- What a qualified name refers to. -/
inductive Referent where
  | variable (type : Ty)
  | field (ref : FieldRef)
  | arrayLength
  | type (id : ClassId)
  | package (name : PackageName)
  deriving DecidableEq

/-- What a name stands for to the left of a dot; that of a package is no receiver. -/
def Referent.receiver? (t : TypeTable) : Referent → Option Receiver
  | .variable declared => some (.value declared)
  | .field ref => some (.value (t.fieldAt ref).type)
  | .arrayLength => some (.value .int)
  | .type id => some (.type id)
  | .package _ => none

namespace ClassContext

variable (cls : ClassContext)

/-- What a single identifier refers to: a visible variable, else a field of the enclosing
type, else a type, else a package. -/
def firstReferent (visible : List LocalVar) (name : Name) : Referent :=
  match visible.find? (fun var => var.name == name) with
  | some var => .variable var.type
  | none =>
    match (cls.hierarchy.members cls.classId).field? name with
    | some ref => .field ref
    | none =>
      match cls.symbols.simpleType? cls.classId name with
      | some id => .type id
      | none => .package (.single name)

/-- What an identifier refers to after a dot: a field of the type or value in front of it,
the length of an array, or a type or package inside a package. -/
def nextReferent? (before : Referent) (name : Name) : Option Referent :=
  match before with
  | .package package =>
    match cls.symbols.lookup (package.child name) with
    | some id => some (.type id)
    | none => some (.package (package.child name))
  | left =>
    match left.receiver? cls.table with
    | some (.type id) | some (.value (.declared id)) =>
      ((cls.hierarchy.members id).field? name).map .field
    | some (.value (.array _)) => if name = "length" then some .arrayLength else none
    | _ => none

/-- What a qualified name refers to. -/
def referent? (visible : List LocalVar) : List Name → Option Referent
  | [] => none
  | first :: rest => rest.foldlM cls.nextReferent? (cls.firstReferent visible first)

/-- A longer name is read after the shorter one. -/
theorem referent?_concat {visible : List LocalVar} {names : List Name} (hnames : names ≠ [])
    (name : Name) :
    cls.referent? visible (names ++ [name]) =
      (cls.referent? visible names).bind (fun before => cls.nextReferent? before name) := by
  cases names with
  | nil => exact absurd rfl hnames
  | cons first rest =>
    rw [List.cons_append, referent?, referent?, List.foldlM_append]
    cases rest.foldlM cls.nextReferent? (cls.firstReferent visible first) with
    | none => rfl
    | some before => simp

end ClassContext

/-- A name refers to what the checker classifies it as. -/
inductive NameMeaning.RefersTo (t : TypeTable) : NameMeaning → Referent → Prop
  | variable {type : Ty} {id : LocalId} : RefersTo t (.value type (.localVar id)) (.variable type)
  | field {ref : FieldRef} : RefersTo t (.value (t.fieldAt ref).type (.field ref)) (.field ref)
  | arrayLength : RefersTo t (.value .int .arrayLength) .arrayLength
  | type {id : ClassId} : RefersTo t (.type id) (.type id)
  | package {name : PackageName} : RefersTo t (.package name) (.package name)

namespace BodyContext

variable {ctx : BodyContext} {scope : Scope}

theorem find?_vars (scope : Scope) (name : Name) :
    scope.vars.find? (fun var => var.name == name) = (scope.find? name).map Prod.snd := by
  rw [Scope.vars, List.find?_map]
  rfl

theorem DenotesFirst.referent {name : Name} {meaning : NameMeaning}
    (h : ctx.DenotesFirst scope name meaning) :
    meaning.RefersTo ctx.table (ctx.firstReferent scope.vars name) := by
  unfold ClassContext.firstReferent
  rw [find?_vars]
  cases h with
  | localVar hvar =>
    rw [hvar]
    exact .variable
  | field hvar hfield _ =>
    rw [hvar, Option.map_none, hfield]
    exact .field
  | type hvar hfield htype =>
    rw [hvar, Option.map_none, hfield, htype]
    exact .type
  | package hvar hfield htype =>
    rw [hvar, Option.map_none, hfield, htype]
    exact .package

/-- What is selected from a type or value is what the name refers to. -/
theorem SelectsField.nextReferent {left : Receiver} {name : Name} {type : Ty} {kind : ValueKind}
    (h : ctx.SelectsField left name type kind) {before : Referent}
    (hbefore : before.receiver? ctx.table = some left) :
    ∃ next, ctx.nextReferent? before name = some next ∧
      (NameMeaning.value type kind).RefersTo ctx.table next := by
  have hnext : ctx.nextReferent? before name = match some left with
      | some (.type id) | some (.value (.declared id)) =>
        ((ctx.hierarchy.members id).field? name).map .field
      | some (.value (.array _)) => if name = "length" then some .arrayLength else none
      | _ => none := by
    rw [← hbefore]
    cases before with
    | package _ => cases hbefore
    | _ => rfl
  rw [hnext]
  cases h with
  | length => exact ⟨.arrayLength, rfl, .arrayLength⟩
  | ofValue hfield _ | ofType hfield _ => exact ⟨_, congrArg (Option.map Referent.field) hfield, .field⟩

theorem Extends.referent {before meaning : NameMeaning} {name : Name}
    (h : ctx.Extends before name meaning) {referent : Referent}
    (hbefore : before.RefersTo ctx.table referent) :
    ∃ next, ctx.nextReferent? referent name = some next ∧ meaning.RefersTo ctx.table next := by
  cases h with
  | value hselect =>
    refine hselect.nextReferent ?_
    cases hbefore <;> rfl
  | type hselect =>
    refine hselect.nextReferent ?_
    cases hbefore
    rfl
  | typeIn hfound =>
    cases hbefore
    exact ⟨_, by rw [ClassContext.nextReferent?, hfound], .type⟩
  | packageIn hfound =>
    cases hbefore
    exact ⟨_, by rw [ClassContext.nextReferent?, hfound], .package⟩

theorem Denotes.ne_nil {names : List Name} {meaning : NameMeaning}
    (h : ctx.Denotes scope names meaning) : names ≠ [] := by
  cases h <;> simp

/-- Names that the checker classifies refer to what they are classified as. -/
theorem Denotes.referent {names : List Name} {meaning : NameMeaning}
    (h : ctx.Denotes scope names meaning) :
    ∃ referent, ctx.referent? scope.vars names = some referent ∧
      meaning.RefersTo ctx.table referent := by
  induction h with
  | first hfirst => exact ⟨_, rfl, hfirst.referent⟩
  | @select names name range before meaning hnames hselect ih =>
    obtain ⟨referent, hreferent, hbefore⟩ := ih
    obtain ⟨next, hnext, hmeaning⟩ := (extend_eq_ok hselect).referent hbefore
    refine ⟨next, ?_, hmeaning⟩
    rw [ClassContext.referent?_concat _ hnames.ne_nil, hreferent]
    exact hnext

/-- With a name its beginnings are classified. -/
theorem Denotes.of_prefix {names start : List Name} {meaning : NameMeaning}
    (h : ctx.Denotes scope names meaning) (hstart : start <+: names) (hne : start ≠ []) :
    ∃ meaning, ctx.Denotes scope start meaning := by
  induction h with
  | @first name meaning hfirst =>
    rcases List.prefix_cons_iff.mp hstart with rfl | ⟨rest, rfl, hrest⟩
    · exact absurd rfl hne
    · obtain rfl := List.prefix_nil.mp hrest
      exact ⟨meaning, .first hfirst⟩
  | @select names name range before meaning hnames hselect ih =>
    rcases List.prefix_concat_iff.mp hstart with rfl | hstart
    · exact ⟨meaning, .select hnames hselect⟩
    · exact ih hstart

/-- The last step of a name. -/
theorem Denotes.concat {names : List Name} {name : Name} {meaning : NameMeaning}
    (h : ctx.Denotes scope (names ++ [name]) meaning) (hne : names ≠ []) :
    ∃ before, ctx.Denotes scope names before ∧ ctx.Extends before name meaning := by
  generalize hall : names ++ [name] = all at h
  cases h with
  | first _ =>
    obtain ⟨hnil, -⟩ := List.append_eq_singleton_iff.mp hall |>.resolve_right (by simp)
    exact absurd hnil hne
  | @select others last range before meaning hbefore hselect =>
    obtain ⟨rfl, hlast⟩ := List.append_inj' hall rfl
    cases hlast
    exact ⟨before, hbefore, extend_eq_ok hselect⟩

/-- A field inside a name is static when it is selected from a type, and only then. -/
theorem Denotes.isStatic_iff {names start : List Name} {name : Name} {meaning : NameMeaning}
    {ref : FieldRef} (h : ctx.Denotes scope names meaning) (hstart : start ++ [name] <+: names)
    (hne : start ≠ []) (href : ctx.referent? scope.vars (start ++ [name]) = some (.field ref)) :
    (ctx.table.fieldAt ref).modifiers.isStatic = true ↔
      ∃ id, ctx.referent? scope.vars start = some (.type id) := by
  obtain ⟨found, hfound⟩ := h.of_prefix hstart (by simp)
  obtain ⟨referent, hreferent, hrefers⟩ := hfound.referent
  cases href.symm.trans hreferent
  obtain ⟨type, rfl⟩ : ∃ type, found = .value type (.field ref) := by
    cases hrefers
    exact ⟨_, rfl⟩
  obtain ⟨before, hbefore, hextends⟩ := hfound.concat hne
  obtain ⟨left, hleft, hbeforeRefers⟩ := hbefore.referent
  rw [hleft]
  cases hextends with
  | value hselect =>
    have hvalue : ∀ id, left ≠ .type id := by cases hbeforeRefers <;> simp
    cases hselect with
    | ofValue _ hinstance => simp [hinstance, hvalue]
  | type hselect =>
    cases hselect with
    | ofType _ hstatic =>
      cases hbeforeRefers
      simp [hstatic]

/-- The first identifier of a name is that of a field that is not static only where there
is `this`. -/
theorem Denotes.hasThis {name : Name} {rest : List Name} {meaning : NameMeaning}
    {ref : FieldRef} (h : ctx.Denotes scope (name :: rest) meaning)
    (href : ctx.firstReferent scope.vars name = .field ref)
    (hinstance : (ctx.table.fieldAt ref).modifiers.isStatic = false) : ctx.HasThis := by
  have hstart : [name] <+: name :: rest := List.prefix_append [name] rest
  obtain ⟨found, hfound⟩ := h.of_prefix hstart (by simp)
  generalize hall : [name] = all at hfound
  cases hfound with
  | first hfirst =>
    cases hall
    cases hfirst with
    | field hvar hfield hthis =>
      unfold ClassContext.firstReferent at href
      rw [find?_vars, hvar, Option.map_none, hfield] at href
      cases href
      exact hthis hinstance
    | localVar hvar =>
      unfold ClassContext.firstReferent at href
      rw [find?_vars, hvar] at href
      cases href
    | type hvar hfield htype | package hvar hfield htype =>
      unfold ClassContext.firstReferent at href
      rw [find?_vars, hvar, Option.map_none, hfield, htype] at href
      cases href
  | select hnames _ =>
    obtain ⟨hnil, -⟩ := List.append_eq_singleton_iff.mp hall.symm |>.resolve_right (by simp)
    exact absurd hnil hnames.ne_nil

end BodyContext

/-! ## §2 The expressions of a body -/

/-- What a name refers to is recorded as it should be. -/
def Referent.IsRecordedAs : Referent → Resolution → Prop
  | .variable _, .localVar _ => True
  | .field ref, r => r = .field ref
  | .arrayLength, r => r = .arrayLength
  | .type id, r => r = .type id
  | _, _ => False

namespace BodyContext

variable {ctx : BodyContext} {facts : ClassFacts} {scope : Scope} {mark : Mark}

theorem Explains.denotes {path : QualifiedName}
    (h : ctx.Explains facts scope (.named mark path)) :
    ∃ meaning, ctx.Denotes scope path.segments meaning ∧ ∃ r,
      facts.resolutions.find? mark.id = some r ∧
      ∀ referent, meaning.RefersTo ctx.table referent → referent.IsRecordedAs r := by
  cases h with
  | valueName hname h =>
    refine ⟨_, hname, _, h.resolution, fun referent hrefers => ?_⟩
    cases hrefers <;> trivial
  | typeName hname h =>
    refine ⟨_, hname, _, h.resolution, fun referent hrefers => ?_⟩
    cases hrefers
    rfl

/-- A field is static when it is accessed through a type, and only then. -/
theorem Explains.access_isStatic_iff {receiver : Expr Mark} {name : Name} {ref : FieldRef}
    (h : ctx.Explains facts scope (.fieldAccess mark receiver name))
    (hreceiver : ctx.Explains facts scope receiver)
    (href : facts.resolutions.find? mark.id = some (.field ref)) :
    (ctx.table.fieldAt ref).modifiers.isStatic = true ↔
      ∃ id, facts.resolutionOf? receiver = some (.type id) := by
  cases h with
  | @fieldAccess _ _ _ left type kind hleft hselect h =>
    have hkind : kind.resolution = .field ref := Option.some.inj (h.resolution.symm.trans href)
    cases selectField_eq_ok hselect with
    | length => cases hkind
    | ofValue _ hinstance =>
      cases hkind
      refine iff_of_false (by simp [hinstance]) ?_
      rintro ⟨id, hid⟩
      cases (hreceiver.typeOf?_eq_none hid).symm.trans hleft
    | ofType _ hstatic =>
      cases hkind
      exact iff_of_true hstatic ⟨_, hleft.resolution⟩

/-- A method is static when it is called through a type, and only then. -/
theorem Explains.call_isStatic_iff {receiver : Expr Mark} {name : Name} {args : List (Expr Mark)}
    {ref : MethodRef} (h : ctx.Explains facts scope (.callOn mark receiver name args))
    (hreceiver : ctx.Explains facts scope receiver)
    (href : facts.resolutions.find? mark.id = some (.method ref)) :
    (ctx.table.methodAt ref).isStatic = true ↔
      ∃ id, facts.resolutionOf? receiver = some (.type id) := by
  cases h with
  | @callOn _ _ _ _ left _ _ _ found hleft hcallee _ hcall h =>
    cases h.resolution.symm.trans href
    have hmay := (calledMethod_selects hcall).2
    cases left with
    | type id =>
      cases hcallee
      exact iff_of_true hmay ⟨_, hleft.resolution⟩
    | value type =>
      have hkind : ctx.MayCall (ctx.table.methodAt ref) .viaValue := by
        cases type <;> cases hcallee <;> exact hmay
      refine iff_of_false (by simp [hkind.symm ▸ Bool.false_ne_true]) ?_
      rintro ⟨id, hid⟩
      cases (hreceiver.typeOf?_eq_none hid).symm.trans hleft

/-- An unqualified call of a method that is not static needs `this`. -/
theorem Explains.hasThis_of_call {name : Name} {args : List (Expr Mark)} {ref : MethodRef}
    (h : ctx.Explains facts scope (.call mark name args))
    (href : facts.resolutions.find? mark.id = some (.method ref))
    (hinstance : (ctx.table.methodAt ref).isStatic = false) : ctx.HasThis := by
  cases h with
  | call _ hcall h =>
    cases h.resolution.symm.trans href
    exact (calledMethod_selects hcall).2 hinstance

end BodyContext

/-! ## §3 The discipline -/

namespace ClassContext

/-- There is no `this` at a place in the body of a member: the member is static, or the
place is among the arguments of `this(...)` or `super(...)`. -/
def IsStaticAt (cls : ClassContext) (owner : BodyOwner) (place : Place) : Prop :=
  place.inInvocation = true ∨
    match owner with
    | .field index => (cls.table.fieldAt ⟨cls.classId, index⟩).modifiers.isStatic = true
    | .method index => (cls.table.methodAt ⟨cls.classId, index⟩).isStatic = true
    | .constructor _ => False

theorem IsStaticAt.not_hasThis {cls : ClassContext} {owner : BodyOwner} {place : Place}
    (h : cls.IsStaticAt owner place) : ¬ ((cls.bodyContext owner).inPlace place).HasThis := by
  rintro ⟨hinstance, hallowed⟩
  cases place with
  | mk visible inInvocation =>
    cases inInvocation with
    | true => cases hallowed
    | false =>
      rcases h with h | h
      · cases h
      · cases owner with
        | field index => exact Bool.false_ne_true (hinstance.symm.trans h)
        | method index => exact Bool.false_ne_true (hinstance.symm.trans h)
        | constructor index => exact h

/-- An expression uses static and instance members as they are declared, given what is
recorded and the place where the expression stands. -/
structure KeepsStatic (cls : ClassContext) (facts : ClassFacts) (owner : BodyOwner) (place : Place)
    (e : Expr Mark) : Prop where
  /-- What a name refers to is recorded. -/
  name : ∀ mark path, e = .named mark path → ∃ referent r,
    cls.referent? place.visible path.segments = some referent ∧
      facts.resolutionOf? e = some r ∧ referent.IsRecordedAs r
  /-- A field is static when a name selects it from a type, not when from a value. -/
  nameField : ∀ mark path, e = .named mark path → ∀ start name ref, start ≠ [] →
    start ++ [name] <+: path.segments →
    cls.referent? place.visible (start ++ [name]) = some (.field ref) →
    ((cls.table.fieldAt ref).modifiers.isStatic = true ↔
      ∃ type, cls.referent? place.visible start = some (.type type))
  /-- So it is when an access selects it. -/
  accessField : ∀ mark receiver name ref, e = .fieldAccess mark receiver name →
    facts.resolutionOf? e = some (.field ref) →
    ((cls.table.fieldAt ref).modifiers.isStatic = true ↔
      ∃ type, facts.resolutionOf? receiver = some (.type type))
  /-- And so it is with a method that is called through a type or a value. -/
  callMethod : ∀ mark receiver name args ref, e = .callOn mark receiver name args →
    facts.resolutionOf? e = some (.method ref) →
    ((cls.table.methodAt ref).isStatic = true ↔
      ∃ type, facts.resolutionOf? receiver = some (.type type))
  /-- Without `this` nothing needs one. -/
  staticContext : cls.IsStaticAt owner place →
    (∀ mark, e ≠ .this mark) ∧
    (∀ mark path first rest ref, e = .named mark path → path.segments = first :: rest →
      cls.firstReferent place.visible first = .field ref →
      (cls.table.fieldAt ref).modifiers.isStatic = true) ∧
    ∀ mark name args ref, e = .call mark name args → facts.resolutionOf? e = some (.method ref) →
      (cls.table.methodAt ref).isStatic = true

end ClassContext

/-- An expression that is explained with what stands inside it keeps the discipline. -/
theorem BodyContext.ExplainsIn.keepsStatic {ctx : BodyContext} {facts : ClassFacts} {scope : Scope}
    {owner : BodyOwner} {place : Place} {root e : Expr Mark} (h : ctx.ExplainsIn facts scope root)
    (he : e ∈ root.parts) (hvars : scope.vars = place.visible)
    (hstatic : ctx.IsStaticAt owner place → ¬ ctx.HasThis) :
    ctx.KeepsStatic facts owner place e := by
  have hexplains := h e he
  have hreceiver {receiver : Expr Mark} (hchild : receiver ∈ e.children) :=
    h receiver (Expr.mem_parts_of_children he hchild)
  constructor
  · rintro mark path rfl
    obtain ⟨meaning, hname, r, hr, hrecorded⟩ := hexplains.denotes
    obtain ⟨referent, hreferent, hrefers⟩ := hname.referent
    exact ⟨referent, r, hvars ▸ hreferent, hr, hrecorded referent hrefers⟩
  · rintro mark path rfl start name ref hne hstart href
    obtain ⟨meaning, hname, -⟩ := hexplains.denotes
    rw [← hvars] at href ⊢
    exact hname.isStatic_iff hstart hne href
  · rintro mark receiver name ref rfl href
    exact hexplains.access_isStatic_iff (hreceiver (List.mem_singleton_self _)) href
  · rintro mark receiver name args ref rfl href
    exact hexplains.call_isStatic_iff (hreceiver (List.mem_cons_self ..)) href
  · intro hplace
    have hnone := hstatic hplace
    refine ⟨?_, ?_, ?_⟩
    · rintro mark rfl
      cases hexplains with
      | this hthis _ => exact hnone hthis
    · rintro mark path first rest ref rfl hsegments href
      obtain ⟨meaning, hname, -⟩ := hexplains.denotes
      rw [hsegments] at hname
      rw [← hvars] at href
      exact Bool.not_eq_false _ ▸ fun hinstance => hnone (hname.hasThis href hinstance)
    · rintro mark name args ref rfl href
      exact Bool.not_eq_false _ ▸ fun hinstance => hnone (hexplains.hasThis_of_call href hinstance)

/-- Every expression of a body that is described keeps the discipline. -/
theorem ClassContext.BodyTyped.keepsStatic {cls : ClassContext} {facts : ClassFacts}
    {owner : BodyOwner} (h : cls.BodyTyped facts owner) {place : Place} {e : Expr Mark}
    (he : cls.StandsAt owner place e) : cls.KeepsStatic facts owner place e := by
  obtain ⟨root, scope, hpart, hvars, -, hin⟩ := h.explains he
  have hstatic : ((cls.bodyContext owner).inPlace place).IsStaticAt owner place →
      ¬ ((cls.bodyContext owner).inPlace place).HasThis := by
    rw [cls.inPlace_bodyContext]
    exact IsStaticAt.not_hasThis
  have hkeeps := hin.keepsStatic hpart hvars hstatic
  rwa [cls.inPlace_bodyContext] at hkeeps

/-! ## §4 Accepted programs -/

variable {program : Program} {config : Configuration} {a : Analysis} {id : ClassId}
  {owner : BodyOwner}

/-- In an accepted program every expression in the bodies of the program's members stands
somewhere, and where it stands it uses static and instance members as they are declared. -/
theorem static_discipline (h : analyze program config = .accepted a)
    (hmember : a.HasMember id owner) :
    ∀ e ∈ (a.classContext id).decl.exprsOf owner,
      (∃ place, (a.classContext id).StandsAt owner place e) ∧
      ∀ place, (a.classContext id).StandsAt owner place e →
        (a.classContext id).KeepsStatic (a.facts.classFacts id) owner place e := by
  have hbody := ((analyze_eq_accepted_iff.mp h).typed hmember.1).bodies owner hmember.2
  exact fun e he => ⟨ClassContext.mem_exprsOf_iff.mp he, fun place hplace =>
    hbody.keepsStatic hplace⟩

/-- The static method of a class that is accepted does not mention `this`. -/
theorem tally_without_this : ∃ a, analyze tally { includeStdlib := false } = .accepted a ∧
    a.HasMember 0 (.method 0) ∧
    ∀ e ∈ (a.classContext 0).decl.exprsOf (.method 0), ∀ mark, e ≠ .this mark := by
  obtain ⟨a, haccepted, htest⟩ := exists_accepted tally { includeStdlib := false }
    (fun a => decide (a.HasMember 0 (.method 0) ∧ (a.linked.table.methodAt ⟨0, 0⟩).isStatic = true))
    (by decide +kernel)
  obtain ⟨hmember, hstatic⟩ := of_decide_eq_true htest
  refine ⟨a, haccepted, hmember, fun e he => ?_⟩
  obtain ⟨⟨place, hplace⟩, hkeeps⟩ := static_discipline haccepted hmember e he
  exact ((hkeeps place hplace).staticContext (.inr hstatic)).1

/-- An interface with a constructor, whose body is `this(this)`. -/
def shapeWithConstructor : Program :=
  { units := unitsOf [{ Library.interfaceNamed "Shape" with
      constructors := [{ body := [.constructorCall () .this [.this ()]] }] }] ++ coreUnits }

/-- The constructors that an interface is given are not type-checked: there is a `this` among
the arguments of `this(...)` in an accepted program. -/
theorem interface_constructor_uses_this :
    ∃ a, analyze shapeWithConstructor { includeStdlib := false } = .accepted a ∧
      0 < a.linked.symbols.programSize ∧ ∃ place mark,
        (a.classContext 0).StandsAt (.constructor 0) place (.this mark) ∧
        place.inInvocation = true := by
  obtain ⟨a, haccepted, htest⟩ := exists_accepted shapeWithConstructor { includeStdlib := false }
    (fun a => decide (0 < a.linked.symbols.programSize) &&
      ((a.classContext 0).placedExprs (.constructor 0)).any (fun (place, e) =>
        place.inInvocation && match e with
          | .this _ => true
          | _ => false))
    (by decide +kernel)
  obtain ⟨hsize, hany⟩ := Bool.and_eq_true .. ▸ htest
  obtain ⟨⟨place, e⟩, hentry, hthis⟩ := List.any_eq_true.mp hany
  obtain ⟨hplace, hthis⟩ := Bool.and_eq_true .. ▸ hthis
  cases e with
  | this mark =>
    exact ⟨a, haccepted, of_decide_eq_true hsize, place, mark,
      ⟨.this mark, hentry, Expr.self_mem_parts _⟩, hplace⟩
  | _ => cases hthis

end JoosStatics
