/-
JoosStatics.Proofs.Typing.Results — the results of checking an accepted
program are complete.

Whoever reads the facts of a type later on finds a type at every expression
in its bodies, except at the names of types to the left of a selection, and
what every name, access, call and creation refers to. The type of such an
expression is that of the declaration behind it. At other positions there is
nothing to find (`recorded_exactly`).

That no expression is left out follows from the operands: the rule of each
form reads the types of its operands, so they have one, and the outermost
expressions have one because their statements read it.
-/
import JoosStatics.Proofs.Bodies.Escapes
import JoosStatics.Proofs.Typing.Bodies
import JoosStatics.Proofs.Typing.Selection

namespace JoosStatics

/-! ## §1 What an expression refers to -/

/-- Whether an expression refers to a declaration: a name, an access, a call or a creation
does. -/
def Expr.refers {α : Type} : Expr α → Bool
  | .named .. | .fieldAccess .. | .call .. | .callOn .. | .create .. => true
  | _ => false

/-- Whether an expression is a name. -/
def Expr.isName {α : Type} : Expr α → Bool
  | .named .. => true
  | _ => false

/-- The identifiers of a name. -/
def Expr.path? {α : Type} : Expr α → Option QualifiedName
  | .named _ path => some path
  | _ => none

/-- What stands to the left of the dot in a selection. -/
def Expr.receiver? {α : Type} : Expr α → Option (Expr α)
  | .fieldAccess _ receiver _ | .callOn _ receiver _ _ => some receiver
  | _ => none

/-- The type that is declared for what an expression refers to: that of a variable or
field, the result of a method, or the class of a constructor. The name of a type has
none. -/
def ClassFacts.declaredType? (facts : ClassFacts) (t : TypeTable) : Resolution → Option Ty
  | .localVar id => (facts.locals[id]?).map LocalVar.type
  | .field ref => ((t.classAt ref.owner).fields[ref.index]?).map FieldDef.type
  | .arrayLength => some .int
  | .type _ => none
  | .method ref => ((t.classAt ref.owner).methods[ref.index]?).map MethodDef.returnType
  | .constructor ref =>
    ((t.classAt ref.owner).constructors[ref.index]?).map (fun _ => .declared ref.owner)

variable {ctx : BodyContext} {facts : ClassFacts} {scope : Scope} {e : Expr Mark}

namespace BodyContext

theorem SelectsField.declaredType (hd : Hierarchy.AreDeclared ctx.table ctx.hierarchy)
    {left : Receiver} {name : Name} {type : Ty} {kind : ValueKind}
    (h : ctx.SelectsField left name type kind) :
    facts.declaredType? ctx.table kind.resolution = some type := by
  cases h with
  | length => rfl
  | ofValue hfield _ | ofType hfield _ =>
    obtain ⟨f, hf, -⟩ := hd.field hfield
    rw [TypeTable.fieldAt_of_getElem? hf, ValueKind.resolution, ClassFacts.declaredType?, hf]
    rfl

/-- The type of a name that denotes a variable is declared. -/
theorem Denotes.declaredType (hd : Hierarchy.AreDeclared ctx.table ctx.hierarchy)
    (hscope : scope.Within facts) {names : List Name} {type : Ty} {kind : ValueKind}
    (h : ctx.Denotes scope names (.value type kind)) :
    facts.declaredType? ctx.table kind.resolution = some type := by
  cases h with
  | first hfirst =>
    cases hfirst with
    | localVar hvar =>
      have hlocal := hscope _ (Scope.find?_mem hvar)
      rw [ValueKind.resolution, ClassFacts.declaredType?, hlocal]
      rfl
    | field _ hfield _ =>
      obtain ⟨f, hf, -⟩ := hd.field hfield
      rw [TypeTable.fieldAt_of_getElem? hf, ValueKind.resolution, ClassFacts.declaredType?, hf]
      rfl
  | select _ hselect =>
    cases extend_eq_ok hselect with
    | value hselect | type hselect => exact hselect.declaredType hd

/-- Where a declaration is referred to, it is recorded, and declares the type that is
recorded. -/
theorem Explains.refers (hd : Hierarchy.AreDeclared ctx.table ctx.hierarchy)
    (hscope : scope.Within facts) (h : ctx.Explains facts scope e) (hrefers : e.refers = true) :
    ∃ r, facts.resolutionOf? e = some r ∧
      ∀ type, facts.typeOf? e = some type → facts.declaredType? ctx.table r = some type := by
  have hrefersTo {type : Ty} {r : Resolution} (htold : facts.Says e.note (some type) (some r))
      (hdeclared : facts.declaredType? ctx.table r = some type) :
      ∃ r, facts.resolutionOf? e = some r ∧
        ∀ type, facts.typeOf? e = some type → facts.declaredType? ctx.table r = some type := by
    refine ⟨r, htold.resolution, fun found hfound => ?_⟩
    rw [hdeclared, ← hfound]
    exact htold.type.symm
  have hmethod {id : ClassId} {kind : CallKind} {name : Name} {types : List Ty} {range : Span}
      {ref : MethodRef} (hcall : ctx.calledMethod id kind name types range = .ok ref) :
      facts.declaredType? ctx.table (.method ref) =
        some (ctx.table.methodAt ref).returnType := by
    obtain ⟨m, hm, -⟩ := hd.method (calledMethod_selects hcall).1
    rw [TypeTable.methodAt_of_getElem? hm, ClassFacts.declaredType?, hm]
    rfl
  cases h with
  | valueName hname h => exact hrefersTo h (hname.declaredType hd hscope)
  | typeName _ h =>
    refine ⟨_, h.resolution, fun type htype => ?_⟩
    cases h.type.symm.trans htype
  | fieldAccess _ hselect h => exact hrefersTo h ((selectField_eq_ok hselect).declaredType hd)
  | call _ hcall h => exact hrefersTo h (hmethod hcall)
  | callOn _ _ _ hcall h => exact hrefersTo h (hmethod hcall)
  | create _ _ _ hcreate h =>
    obtain ⟨rfl, c, hc⟩ := selectConstructor_mem (invokedConstructor_eq_ok hcreate).1
    refine hrefersTo h ?_
    rw [ClassFacts.declaredType?, hc]
    rfl
  | _ => cases hrefers

/-- Other expressions refer to nothing. -/
theorem Explains.resolutionOf?_eq_none (h : ctx.Explains facts scope e)
    (hrefers : e.refers = false) : facts.resolutionOf? e = none := by
  cases h with
  | literal h | this _ h | createArray _ _ h | arrayAccess _ _ _ h | cast _ _ _ h
  | instanceOf _ _ _ h | binary _ _ _ h | unary _ _ h | incDec _ _ _ h | assign _ _ _ _ h =>
    exact h.resolution
  | _ => cases hrefers

/-- An expression without a type is the name of a type. -/
theorem Explains.isName_of_typeOf? (h : ctx.Explains facts scope e)
    (hnone : facts.typeOf? e = none) :
    e.isName = true ∧ ∃ id, facts.resolutionOf? e = some (.type id) := by
  have hsome {type : Ty} {r : Option Resolution} (h : facts.Says e.note (some type) r) : False := by
    cases h.type.symm.trans hnone
  cases h with
  | typeName _ h => exact ⟨rfl, _, h.resolution⟩
  | literal h | valueName _ h | this _ h | fieldAccess _ _ h | call _ _ h | callOn _ _ _ _ h
  | create _ _ _ _ h | createArray _ _ h | arrayAccess _ _ _ h | cast _ _ _ h
  | instanceOf _ _ _ h | binary _ _ _ h | unary _ _ h | incDec _ _ _ h | assign _ _ _ _ h =>
    exact (hsome h).elim

/-- An expression that refers to a type has no type. -/
theorem Explains.typeOf?_eq_none (h : ctx.Explains facts scope e) {id : ClassId}
    (htype : facts.resolutionOf? e = some (.type id)) : facts.typeOf? e = none := by
  have hother {type : Option Ty} {r : Option Resolution} (h : facts.Says e.note type r)
      (hne : r ≠ some (.type id)) : False := hne (h.resolution.symm.trans htype)
  cases h with
  | typeName _ h => exact h.type
  | valueName _ h | fieldAccess _ _ h =>
    exact (hother h (by cases ‹ValueKind› <;> exact nofun)).elim
  | literal h | this _ h | call _ _ h | callOn _ _ _ _ h | create _ _ _ _ h | createArray _ _ h
  | arrayAccess _ _ _ h | cast _ _ _ h | instanceOf _ _ _ h | binary _ _ _ h | unary _ _ h
  | incDec _ _ _ h | assign _ _ _ _ h => exact (hother h nofun).elim

/-- An operand has a type, unless it stands to the left of a selection. -/
theorem Explains.operand (h : ctx.Explains facts scope e) {child : Expr Mark}
    (hchild : child ∈ e.children) :
    (∃ type, facts.typeOf? child = some type) ∨ e.receiver? = some child := by
  have hargs {args : List (Expr Mark)} {types : List Ty}
      (htypes : args.map facts.typeOf? = types.map some) (harg : child ∈ args) :
      ∃ type, facts.typeOf? child = some type := by
    have hmem : facts.typeOf? child ∈ types.map some := htypes ▸ List.mem_map_of_mem harg
    obtain ⟨type, -, htype⟩ := List.mem_map.mp hmem
    exact ⟨type, htype.symm⟩
  cases h with
  | literal _ | valueName _ _ | typeName _ _ | this _ _ => cases hchild
  | fieldAccess _ _ _ => exact .inr (congrArg some (List.mem_singleton.mp hchild).symm)
  | call htypes _ _ | create _ _ htypes _ _ => exact .inl (hargs htypes hchild)
  | callOn _ _ htypes _ _ =>
    rcases List.mem_cons.mp hchild with rfl | harg
    · exact .inr rfl
    · exact .inl (hargs htypes harg)
  | createArray _ hdims _ =>
    obtain ⟨type, htype, -⟩ := hdims child hchild
    exact .inl ⟨type, htype⟩
  | cast _ htype _ _ | instanceOf htype _ _ _ | unary htype _ _ | incDec htype _ _ _ =>
    obtain rfl := List.mem_singleton.mp hchild
    exact .inl ⟨_, htype⟩
  | arrayAccess hfirst hsecond _ _ | binary hfirst hsecond _ _ | assign hfirst _ hsecond _ _ =>
    rcases List.mem_pair.mp hchild with rfl | rfl
    · exact .inl ⟨_, hfirst⟩
    · exact .inl ⟨_, hsecond⟩

end BodyContext

/-! ## §2 The expressions of a body -/

namespace ClassContext

variable {cls : ClassContext} {owner : BodyOwner}

/-- All checks in the bodies of a type have the type in common. -/
theorem inPlace_bodyContext (cls : ClassContext) (owner : BodyOwner) (place : Place) :
    ((cls.bodyContext owner).inPlace place).toClassContext = cls := by
  unfold BodyContext.inPlace
  split
  · exact toClassContext_bodyContext cls owner
  · exact toClassContext_bodyContext cls owner

/-- Every expression of a body stands inside one that is explained. -/
theorem BodyTyped.explains (h : cls.BodyTyped facts owner) {place : Place}
    (he : cls.StandsAt owner place e) :
    ∃ (root : Expr Mark) (scope : Scope), e ∈ root.parts ∧ scope.vars = place.visible ∧
      scope.Within facts ∧ ((cls.bodyContext owner).inPlace place).ExplainsIn facts scope root := by
  obtain ⟨root, hroot, he⟩ := he
  obtain ⟨-, scope, hvars, hscope, hin⟩ := h.exprs _ hroot
  exact ⟨root, scope, he, hvars, hscope, hin⟩

/-- Every expression of a body has a type, unless it stands to the left of a selection. -/
theorem BodyTyped.exists_type (h : cls.BodyTyped facts owner)
    (he : e ∈ cls.decl.exprsOf owner) :
    (∃ type, facts.typeOf? e = some type) ∨
      ∃ parent ∈ cls.decl.exprsOf owner, parent.receiver? = some e := by
  obtain ⟨place, root, hroot, he⟩ := mem_exprsOf_iff.mp he
  obtain ⟨htype, scope, -, -, hin⟩ := h.exprs _ hroot
  rcases Expr.eq_or_mem_children he with rfl | ⟨parent, hparent, hchild⟩
  · exact .inl htype
  · exact ((hin parent hparent).operand hchild).imp_right (fun hreceiver =>
      ⟨parent, mem_exprsOf_iff.mpr ⟨place, root, hroot, hparent⟩, hreceiver⟩)

end ClassContext

/-! ## §3 Accepted programs -/

/-- A name stands to the left of a selection in a body, and refers to a type. -/
structure Analysis.IsTypeQualifier (a : Analysis) (id : ClassId) (owner : BodyOwner)
    (e : Expr Mark) : Prop where
  isName : e.isName = true
  refersTo : ∃ type, a.resolutionOf? id e = some (.type type)
  isReceiver : ∃ parent ∈ (a.classContext id).decl.exprsOf owner, parent.receiver? = some e

variable {program : Program} {config : Configuration} {a : Analysis} {id : ClassId}

/-- In an accepted program every expression in the bodies of a type either has a recorded
type or is the name of a type to the left of a selection. Every name, access, call and
creation has a resolution, and a type recorded for it is the one that is declared there.
Nothing is recorded at other positions, and no resolution at other expressions. -/
theorem recorded_exactly (h : analyze program config = .accepted a)
    (hid : id < a.linked.symbols.programSize) :
    (∀ owner, a.HasMember id owner → ∀ e ∈ (a.classContext id).decl.exprsOf owner,
      Xor ((a.typeOf? id e).isSome = true) (a.IsTypeQualifier id owner e) ∧
      (e.refers = true → ∃ r, a.resolutionOf? id e = some r ∧ ∀ type, a.typeOf? id e = some type →
        (a.facts.classFacts id).declaredType? a.linked.table r = some type) ∧
      (e.refers = false → a.resolutionOf? id e = none)) ∧
    ∀ n, (∀ owner, a.HasMember id owner → n ∉ (a.classContext id).decl.bodyIds owner) →
      (a.facts.classFacts id).types.find? n = none ∧
      (a.facts.classFacts id).resolutions.find? n = none := by
  have hp := analyze_eq_accepted_iff.mp h
  have htyped := hp.typed hid
  refine ⟨fun owner hmember e he => ?_, fun n hn => htyped.others n (fun owner howner =>
    hn owner ⟨hid, howner⟩)⟩
  have hbody := htyped.bodies owner hmember.2
  obtain ⟨place, hplace⟩ := ClassContext.mem_exprsOf_iff.mp he
  obtain ⟨root, scope, hpart, -, hscope, hin⟩ := hbody.explains hplace
  have hexplains := hin e hpart
  have hcls : (((a.classContext id).bodyContext owner).inPlace place).toClassContext =
      a.classContext id := ClassContext.inPlace_bodyContext ..
  have hdeclared : Hierarchy.AreDeclared
      (((a.classContext id).bodyContext owner).inPlace place).table
      (((a.classContext id).bodyContext owner).inPlace place).hierarchy := by
    rw [hcls]
    exact hp.hierarchy.areDeclared
  refine ⟨?_, fun hrefers => ?_, hexplains.resolutionOf?_eq_none⟩
  · cases htype : a.typeOf? id e with
    | some type =>
      refine .inl ⟨rfl, fun hqualifier => ?_⟩
      obtain ⟨found, hfound⟩ := hqualifier.refersTo
      cases htype.symm.trans (hexplains.typeOf?_eq_none hfound)
    | none =>
      obtain ⟨hname, hrefers⟩ := hexplains.isName_of_typeOf? htype
      refine .inr ⟨⟨hname, hrefers, ?_⟩, Bool.false_ne_true⟩
      rcases hbody.exists_type he with ⟨type, hsome⟩ | hreceiver
      · cases htype.symm.trans hsome
      · exact hreceiver
  · have htable : (((a.classContext id).bodyContext owner).inPlace place).table = a.linked.table :=
      congrArg ClassContext.table hcls
    rw [← htable]
    exact hexplains.refers hdeclared hscope hrefers

/-- A class with a static field and a static method that reads it through the name of the
class. -/
def tally : Program :=
  { units := unitsOf [{ Library.classNamed "Tally" with
      fields := [{ type := Library.int, name := "count", modifiers := .public ||| .static }]
      methods := [{ Library.adding .static (Library.method "read" Library.int) with
        body := some [.returnValue ()
          (some (.fieldAccess () (.named () (.single "Tally")) "count"))] }] }] ++ coreUnits }

/-- In the method the name of the class has no type. It is the name of a type to the left of
a selection. -/
theorem tally_qualifier : ∃ a, analyze tally { includeStdlib := false } = .accepted a ∧
    0 < a.linked.symbols.programSize ∧
    ∃ e ∈ (a.classContext 0).decl.exprsOf (.method 0), a.typeOf? 0 e = none ∧
      a.IsTypeQualifier 0 (.method 0) e := by
  obtain ⟨a, haccepted, htest⟩ := exists_accepted tally { includeStdlib := false }
    (fun a => decide (a.HasMember 0 (.method 0)) &&
      ((a.classContext 0).decl.exprsOf (.method 0)).any (fun e => (a.typeOf? 0 e).isNone))
    (by decide +kernel)
  obtain ⟨hmember, hany⟩ := Bool.and_eq_true .. ▸ htest
  have hmember := of_decide_eq_true hmember
  obtain ⟨e, he, hnone⟩ := List.any_eq_true.mp hany
  have hnone : a.typeOf? 0 e = none := Option.isNone_iff_eq_none.mp hnone
  refine ⟨a, haccepted, hmember.1, e, he, hnone, ?_⟩
  rcases ((recorded_exactly haccepted hmember.1).1 (.method 0) hmember e he).1 with
    ⟨htype, -⟩ | ⟨hqualifier, -⟩
  · rw [hnone] at htype
    cases htype
  · exact hqualifier

end JoosStatics
