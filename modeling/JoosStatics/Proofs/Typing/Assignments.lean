/-
JoosStatics.Proofs.Typing.Assignments — what may be assigned.

The target of an assignment, and the operand of `++` and `--`, is checked by
`inferTarget`. For names and field accesses it goes its own way: it finds the
variable as `inferExpr` does, and then asks whether the variable may be written.
Array elements it leaves to `inferExpr`; nothing else may be assigned.

* `inferTarget_eq_ok` — the two checks succeed together, and end in the same
  state, for the forms that may be assigned when what is recorded for the
  expression may be written.
* `assigned_writable` — so no accepted program assigns a final field or the
  length of an array in a body that is checked.

What a check records for an expression is what is found there afterwards when
nothing was recorded there before (`recordedResolution?`). That the check goes on
in the same way from either state is a property of its steps (`agreesBut_steps`):
none of them reads what has been recorded.
-/
import JoosStatics.Proofs.Syntax.Reaching
import JoosStatics.Proofs.Typing.FieldChains
import JoosStatics.Proofs.Typing.StaticContexts

namespace JoosStatics

/-! ## §1 Checks do not read what is recorded -/

theorem agreesBut_lookup {hidden : List ExprId} {α : Type} (action : LookupM α) :
    Simulates (CheckState.AgreesBut hidden) Eq Eq (CheckM.lookup action)
      (CheckM.lookup action) := by
  intro st st' h
  have hrun : action st.lookups = action st'.lookups := congrArg action h.lookups
  unfold CheckM.lookup
  rw [hrun]
  rcases action st'.lookups with ⟨v | a, lookups⟩
  · exact ⟨⟨rfl, h.targets, h.locals, h.types, h.resolutions⟩, .error rfl⟩
  · exact ⟨⟨rfl, h.targets, h.locals, h.types, h.resolutions⟩, .ok rfl⟩

/-- Where a check of expressions starts does not matter but for what it looks up: from states
that agree but for what is recorded about some expressions, it has the same result. -/
theorem agreesBut_steps (ctx : BodyContext) (hidden : List ExprId) :
    ExprSteps ctx (fun _ => True)
      (fun x => Simulates (CheckState.AgreesBut hidden) Eq Eq x x) where
  pure _ := .pure rfl
  bind hx hf := hx.bind (fun a a' h => h ▸ hf a)
  rule {_ _ result _} _ hf := by
    cases result with
    | error v => exact fun _ _ h => ⟨h, .error rfl⟩
    | ok a => exact hf a rfl
  exprType _ _ := agreesBut_lookup _
  createdType _ := agreesBut_lookup _
  firstName _ _ := agreesBut_lookup _
  recordType _ type _ _ h := ⟨h.recordType _ type, .ok rfl⟩
  recordResolution _ _ _ _ h := ⟨h.recordResolution _ _, .ok rfl⟩

/-- The state once it is forgotten what an expression refers to. -/
def CheckState.forgetting (st : CheckState) (id : ExprId) : CheckState :=
  { st with facts := { st.facts with resolutions := st.facts.resolutions.erase id } }

theorem CheckState.agreesBut_forgetting (st : CheckState) (id : ExprId) :
    st.AgreesBut [id] (st.forgetting id) where
  lookups := rfl
  targets := rfl
  locals := rfl
  types _ _ := rfl
  resolutions _ hid :=
    (OrderedMap.find?_erase_of_ne _ (fun heq => hid (List.mem_singleton.mpr heq))).symm

/-- What the check of an expression records it to refer to, if anything. -/
def BodyContext.recordedResolution? (ctx : BodyContext) (scope : Scope) (e : Expr Mark)
    (st : CheckState) : Option Resolution :=
  (inferExpr ctx scope e (st.forgetting e.note.id)).2.facts.resolutions.find? e.note.id

/-! ## §2 Targets -/

/-- What an expression refers to may be written when it is neither the length of an array nor
a final field. -/
def TypeTable.MayWrite (t : TypeTable) : Resolution → Prop
  | .arrayLength => False
  | .field ref => (t.fieldAt ref).modifiers.isFinal = false
  | _ => True

/-- Whether an expression has a form that may be assigned: a name, a field access or an array
access. -/
def Expr.isTarget {α : Type} : Expr α → Bool
  | .named .. | .fieldAccess .. | .arrayAccess .. => true
  | _ => false

namespace BodyContext

variable {ctx : BodyContext} {scope : Scope} {st st' : CheckState} {type : Ty}

theorem requireWritable_eq_ok {kind : ValueKind} {range : Span} :
    ctx.requireWritable kind range = .ok () ↔ ctx.table.MayWrite kind.resolution := by
  cases kind with
  | localVar id => exact iff_of_true rfl trivial
  | arrayLength => exact iff_of_false nofun id
  | field ref =>
    unfold requireWritable ValueKind.resolution TypeTable.MayWrite
    dsimp only
    split
    · simp_all [broken]
    · simp_all

/-- An expression is checked by finding a variable: the check records what it is, and goes on
with the type of the expression, when the variable is assigned once it may be written. -/
structure FindsVariable (ctx : BodyContext) (scope : Scope) (e : Expr Mark)
    (search : CheckM (Ty × ValueKind)) : Prop where
  value : inferExpr ctx scope e =
    search >>= fun (type, _) => CheckM.recordType e.note type
  target : ∀ {st type st'}, inferTarget ctx scope e st = (.ok type, st') ↔
    ∃ kind st₁, search st = (.ok (type, kind), st₁) ∧
      ctx.requireWritable kind e.note.range = .ok () ∧
      CheckM.recordType e.note type st₁ = (.ok type, st')
  records : ∀ {st type kind st'}, search st = (.ok (type, kind), st') →
    st'.facts.resolutions.find? e.note.id = some kind.resolution
  agrees : ∀ hidden, Simulates (CheckState.AgreesBut hidden) Eq Eq search search

/-- A variable that was found is assigned when it may be written. -/
theorem assigning_eq_ok {search : CheckM (Ty × ValueKind)} {mark : Mark} :
    (search >>= fun found => CheckM.rule (ctx.requireWritable found.2 mark.range) >>= fun _ =>
      CheckM.recordType mark found.1) st = (.ok type, st') ↔
    ∃ kind st₁, search st = (.ok (type, kind), st₁) ∧
      ctx.requireWritable kind mark.range = .ok () ∧
      CheckM.recordType mark type st₁ = (.ok type, st') := by
  rw [run_bind_eq_ok]
  constructor
  · rintro ⟨⟨found, kind⟩, st₁, hfound, hrest⟩
    obtain ⟨_, st₂, hrule, hrecord⟩ := run_bind_eq_ok.mp hrest
    obtain ⟨hwritable, rfl⟩ := Prod.mk.inj hrule
    cases hrecord
    exact ⟨kind, st₁, hfound, hwritable, rfl⟩
  · rintro ⟨kind, st₁, hfound, hwritable, hrecord⟩
    exact ⟨(type, kind), st₁, hfound,
      run_bind_eq_ok.mpr ⟨(), st₁, Prod.ext hwritable rfl, hrecord⟩⟩

/-- The check of a name and that of an assigned name differ in the violations they report. -/
theorem inferAssignedName_eq_ok {mark : Mark} {path : QualifiedName} {found : Ty × ValueKind} :
    ctx.inferAssignedName scope mark path st = (.ok found, st') ↔
      ctx.inferName scope mark path st = (.ok found, st') := by
  unfold inferAssignedName inferName
  rw [run_bind, run_bind]
  rcases ctx.classify scope path mark.range st with ⟨v | meaning, st₁⟩
  · rfl
  · cases meaning with
    | value type kind => rfl
    | type id => exact iff_of_false nofun nofun
    | package name => exact iff_of_false nofun nofun

theorem findsVariable_named (ctx : BodyContext) (scope : Scope) (mark : Mark)
    (path : QualifiedName) :
    ctx.FindsVariable scope (.named mark path) (ctx.inferName scope mark path) where
  value := rfl
  target := by
    intro st type st'
    exact assigning_eq_ok.trans (by simp only [inferAssignedName_eq_ok, Expr.note])
  records := by
    intro st type kind st' hfound
    unfold inferName at hfound
    obtain ⟨meaning, st₁, -, hrest⟩ := run_bind_eq_ok.mp hfound
    cases meaning with
    | value found kind' =>
      cases hrest
      exact OrderedMap.find?_insert_self ..
    | type id => cases hrest
    | package name => cases hrest
  agrees hidden := inferName_has (agreesBut_steps ctx hidden) scope trivial

theorem findsVariable_fieldAccess (ctx : BodyContext) (scope : Scope) (mark : Mark)
    (receiver : Expr Mark) (name : Name) :
    ctx.FindsVariable scope (.fieldAccess mark receiver name)
      (ctx.inferSelection scope mark receiver name) where
  value := inferExpr_fieldAccess ..
  target := by
    intro st type st'
    rw [inferTarget_fieldAccess]
    exact assigning_eq_ok
  records := by
    intro st type kind st' hfound
    obtain ⟨left, st₁, -, hrest⟩ := run_bind_eq_ok.mp hfound
    obtain ⟨found, st₂, -, hrest⟩ := run_bind_eq_ok.mp hrest
    cases hrest
    exact OrderedMap.find?_insert_self ..
  agrees hidden := by
    have hsteps := agreesBut_steps ctx hidden
    refine .bind (inferReceiver_has hsteps scope trivial
      (inferExpr_has hsteps scope receiver (fun _ _ => trivial))) (fun left left' h => ?_)
    subst h
    exact inferAccess_has hsteps (e := .fieldAccess mark receiver name) trivial left name

namespace FindsVariable

variable {e : Expr Mark} {search : CheckM (Ty × ValueKind)}

/-- When a variable is found, it is what the check of the expression records. -/
theorem recordedResolution?_eq (h : ctx.FindsVariable scope e search) {kind : ValueKind}
    (hfound : search st = (.ok (type, kind), st')) :
    ctx.recordedResolution? scope e st = some kind.resolution := by
  obtain ⟨-, hresult⟩ := h.agrees [e.note.id] _ _ (st.agreesBut_forgetting e.note.id)
  rw [hfound] at hresult
  cases hrun : search (st.forgetting e.note.id) with
  | mk result st₁ =>
    rw [hrun] at hresult
    cases hresult with
    | ok heq =>
      subst heq
      have hrecorded := h.records hrun
      unfold recordedResolution?
      rw [h.value, run_bind, hrun]
      exact hrecorded

/-- A variable is assigned when it is found and may be written. -/
theorem inferTarget_eq_ok (h : ctx.FindsVariable scope e search) :
    inferTarget ctx scope e st = (.ok type, st') ↔
      inferExpr ctx scope e st = (.ok type, st') ∧
        ∀ r, ctx.recordedResolution? scope e st = some r → ctx.table.MayWrite r := by
  rw [h.target, h.value, run_bind_eq_ok]
  constructor
  · intro ⟨kind, st₁, hfound, hwritable, hrecord⟩
    refine ⟨⟨(type, kind), st₁, hfound, hrecord⟩, fun r hr => ?_⟩
    rw [h.recordedResolution?_eq hfound] at hr
    cases hr
    exact requireWritable_eq_ok.mp hwritable
  · intro ⟨⟨(found, kind), st₁, hfound, hrecord⟩, hwritable⟩
    have htype : found = type := by
      cases hrecord
      rfl
    subst htype
    exact ⟨kind, st₁, hfound,
      requireWritable_eq_ok.mpr (hwritable _ (h.recordedResolution?_eq hfound)), hrecord⟩

end FindsVariable

/-- The check of an array access leaves alone what the access refers to: its operands stand
elsewhere. -/
theorem arrayAccess_keeps {mark : Mark} {array index : Expr Mark} (harray : mark.id ∉ array.ids)
    (hindex : mark.id ∉ index.ids) :
    Keeps (fun st => st.facts.resolutions.find? mark.id = none)
      (inferExpr ctx scope (.arrayAccess mark array index)) := by
  have hstable {ids : List ExprId} (h : mark.id ∉ ids) :
      Stable ctx ids (fun st => st.facts.resolutions.find? mark.id = none) := by
    refine ⟨fun _ h => h, fun _ h => h, fun _ _ h => h, ?_⟩
    intro st n res hn _ hnone
    have hne : n ≠ mark.id := fun heq => h (heq ▸ hn)
    exact (OrderedMap.find?_insert_of_ne _ hne res).trans hnone
  have hoperand (e : Expr Mark) (h : mark.id ∉ e.ids) :
      Keeps (fun st => st.facts.resolutions.find? mark.id = none) (inferExpr ctx scope e) :=
    inferExpr_has (hstable h).steps.toExprSteps scope e
      (Expr.note_id_mem_of_ids (List.Subset.refl _))
  refine (hoperand array harray).bind (fun arrayType => ?_)
  refine (hoperand index hindex).bind (fun indexType => ?_)
  refine Keeps.bind ((ensures_rule _).mono (fun _ _ => trivial)) (fun element => ?_)
  intro st type st' hnone hrun
  cases hrun
  exact ⟨hnone, trivial⟩

theorem recordedResolution?_arrayAccess {mark : Mark} {array index : Expr Mark}
    (harray : mark.id ∉ array.ids) (hindex : mark.id ∉ index.ids)
    (hrun : inferExpr ctx scope (.arrayAccess mark array index) st = (.ok type, st')) :
    ctx.recordedResolution? scope (.arrayAccess mark array index) st = none := by
  have hsame := inferExpr_has (agreesBut_steps ctx [mark.id]) scope
    (.arrayAccess mark array index) (fun _ _ => trivial)
  obtain ⟨-, hresult⟩ := hsame _ _ (st.agreesBut_forgetting mark.id)
  rw [hrun] at hresult
  unfold recordedResolution?
  show (inferExpr ctx scope (.arrayAccess mark array index)
    (st.forgetting mark.id)).2.facts.resolutions.find? mark.id = none
  cases hforgetting : inferExpr ctx scope (.arrayAccess mark array index)
    (st.forgetting mark.id) with
  | mk result st₁ =>
    rw [hforgetting] at hresult
    cases hresult with
    | ok _ =>
      exact (arrayAccess_keeps harray hindex _ _ _ (OrderedMap.find?_erase_self ..)
        hforgetting).1

/-- An expression is assigned when it has a form that may be assigned, it has a type as a
value, and what is recorded for it may be written. The check of an assigned expression ends as
that of the value does. -/
theorem inferTarget_eq_ok {e : Expr Mark} (h : ∀ child ∈ e.children, e.note.id ∉ child.ids) :
    inferTarget ctx scope e st = (.ok type, st') ↔
      e.isTarget = true ∧ inferExpr ctx scope e st = (.ok type, st') ∧
        ∀ r, ctx.recordedResolution? scope e st = some r → ctx.table.MayWrite r := by
  match e with
  | .named mark path =>
    rw [(ctx.findsVariable_named scope mark path).inferTarget_eq_ok]
    exact (and_iff_right rfl).symm
  | .fieldAccess mark receiver name =>
    rw [(ctx.findsVariable_fieldAccess scope mark receiver name).inferTarget_eq_ok]
    exact (and_iff_right rfl).symm
  | .arrayAccess mark array index =>
    refine Iff.trans ?_ (and_iff_right rfl).symm
    refine (and_iff_left_of_imp (fun hrun r hr => ?_)).symm
    obtain ⟨harray, hothers⟩ := List.forall_mem_cons.mp h
    have hnone := recordedResolution?_arrayAccess harray
      (hothers index (List.mem_singleton_self _)) hrun
    cases hr.symm.trans hnone
  | .literal .. | .this .. | .call .. | .callOn .. | .create .. | .createArray .. | .cast ..
  | .instanceOf .. | .binary .. | .unary .. | .incDec .. | .assign .. =>
    exact iff_of_false nofun (fun h => nomatch h.1)

end BodyContext

/-! ## §3 Accepted programs -/

/-- What an expression assigns, increments or decrements. -/
def Expr.assigned? {α : Type} : Expr α → Option (Expr α)
  | .assign _ target _ => some target
  | .incDec _ _ operand => some operand
  | _ => none

/-- An assigned expression is an array access, or refers to what may be written. -/
theorem BodyContext.Explains.assigned {ctx : BodyContext} {facts : ClassFacts} {scope : Scope}
    {e operand : Expr Mark} (h : ctx.Explains facts scope e) (hoperand : e.assigned? = some operand) :
    operand.isTarget = true ∧ ((∃ mark array index, operand = .arrayAccess mark array index) ∨
      ∃ r, facts.resolutionOf? operand = some r ∧ ctx.table.MayWrite r) := by
  have hassigned : ctx.MayAssign facts operand := by
    cases h with
    | incDec _ htarget _ _ =>
      cases hoperand
      exact htarget
    | assign _ htarget _ _ _ =>
      cases hoperand
      exact htarget
    | _ => cases hoperand
  cases operand with
  | named mark path =>
    obtain ⟨kind, hkind, hwritable⟩ := hassigned
    exact ⟨rfl, .inr ⟨_, hkind, requireWritable_eq_ok.mp hwritable⟩⟩
  | fieldAccess mark receiver name =>
    obtain ⟨kind, hkind, hwritable⟩ := hassigned
    exact ⟨rfl, .inr ⟨_, hkind, requireWritable_eq_ok.mp hwritable⟩⟩
  | arrayAccess mark array index => exact ⟨rfl, .inl ⟨mark, array, index, rfl⟩⟩
  | _ => cases hassigned

variable {program : Program} {config : Configuration} {a : Analysis}

/-- The check of an assigned expression succeeds when the expression has a form that may be
assigned, is checked as a value, and is recorded to refer to what may be written; then both
checks have the same result and leave the same state. So in the bodies of an accepted program
no assignment, increment or decrement has a final field or the length of an array as its
operand. -/
theorem assigned_writable (h : analyze program config = .accepted a) :
    (∀ (ctx : BodyContext) (scope : Scope) (st : CheckState) (n : ExprId) (e : Expr Mark),
      ctx.decl.bodies.expr? n = some e → ∀ type st',
        (inferTarget ctx scope e st = (.ok type, st') ↔
          e.isTarget = true ∧ inferExpr ctx scope e st = (.ok type, st') ∧
            ∀ r, ctx.recordedResolution? scope e st = some r → ctx.table.MayWrite r)) ∧
    ∀ id owner, a.HasMember id owner → ∀ e ∈ (a.classContext id).decl.exprsOf owner,
      ∀ operand, e.assigned? = some operand → operand.isTarget = true ∧
        ((∃ mark array index, operand = .arrayAccess mark array index) ∨
          ∃ r, a.resolutionOf? id operand = some r ∧ a.linked.table.MayWrite r) := by
  constructor
  · intro ctx scope st n e he type st'
    exact BodyContext.inferTarget_eq_ok (BodyArena.note_id_notMem_of_expr? he)
  · intro id owner hmember e he operand hoperand
    have hbody := ((analyze_eq_accepted_iff.mp h).typed hmember.1).bodies owner hmember.2
    obtain ⟨place, hplace⟩ := ClassContext.mem_exprsOf_iff.mp he
    obtain ⟨root, scope, hpart, -, -, hin⟩ := hbody.explains hplace
    have hassigned := (hin e hpart).assigned hoperand
    rwa [ClassContext.inPlace_bodyContext] at hassigned

/-- A class that increments one of its fields. -/
def odometer : Program :=
  { units := unitsOf [{ Library.classNamed "Odometer" with
      fields := [{ type := Library.int, name := "level" }]
      methods := [{ Library.method "step" Library.int with
        body := some [.returnValue ()
          (some (.incDec () .preInc (.fieldAccess () (.this ()) "level")))] }] }] ++ coreUnits }

/-- The field is recorded at the operand, and is not final. -/
theorem odometer_writable : ∃ a, analyze odometer { includeStdlib := false } = .accepted a ∧
    a.HasMember 0 (.method 0) ∧ ∃ e ∈ (a.classContext 0).decl.exprsOf (.method 0), ∃ operand,
      e.assigned? = some operand ∧ a.resolutionOf? 0 operand = some (.field ⟨0, 0⟩) ∧
      (a.linked.table.fieldAt ⟨0, 0⟩).modifiers.isFinal = false := by
  obtain ⟨a, haccepted, htest⟩ := exists_accepted odometer { includeStdlib := false }
    (fun a => decide (a.HasMember 0 (.method 0)) &&
      ((a.classContext 0).decl.exprsOf (.method 0)).any (fun e => e.assigned?.any (fun operand =>
        match operand with
        | .fieldAccess .. => decide (a.resolutionOf? 0 operand = some (.field ⟨0, 0⟩))
        | _ => false)))
    (by decide +kernel)
  obtain ⟨hmember, hany⟩ := Bool.and_eq_true .. ▸ htest
  have hmember := of_decide_eq_true hmember
  obtain ⟨e, he, hassigned⟩ := List.any_eq_true.mp hany
  obtain ⟨operand, hoperand, htest⟩ := (Option.any_eq_true ..).mp hassigned
  refine ⟨a, haccepted, hmember, e, he, operand, hoperand, ?_⟩
  obtain ⟨-, hwritable⟩ := (assigned_writable haccepted).2 0 _ hmember e he operand hoperand
  cases operand with
  | fieldAccess mark receiver name =>
    have hfield := of_decide_eq_true htest
    obtain ⟨_, _, _, heq⟩ | ⟨r, hr, hmay⟩ := hwritable
    · cases heq
    · cases hfield.symm.trans hr
      exact ⟨hfield, hmay⟩
  | _ => cases htest

/-- An interface with a constructor, whose body assigns the length of an array. -/
def shapeAssigningLength : Program :=
  { units := unitsOf [{ Library.interfaceNamed "Shape" with
      constructors := [{ body := [.localVar () (.array Library.int) "sizes" none,
        .expression () (.assign () (.named () ⟨["sizes", "length"]⟩)
          (.literal () (.int 1)))] }] }] ++ coreUnits }

/-- The constructors that an interface is given are not type-checked: the length of an array
is assigned in an accepted program. -/
theorem interface_constructor_assigns_length :
    ∃ a, analyze shapeAssigningLength { includeStdlib := false } = .accepted a ∧
      0 < a.linked.symbols.programSize ∧ ∃ place e operand path,
        (a.classContext 0).StandsAt (.constructor 0) place e ∧
        e.assigned? = some operand ∧ operand.path? = some path ∧
        (a.classContext 0).referent? place.visible path.segments = some .arrayLength := by
  obtain ⟨a, haccepted, htest⟩ := exists_accepted shapeAssigningLength { includeStdlib := false }
    (fun a => decide (0 < a.linked.symbols.programSize) &&
      ((a.classContext 0).placedExprs (.constructor 0)).any (fun entry =>
        entry.2.assigned?.any (fun operand => operand.path?.any (fun path => decide
          ((a.classContext 0).referent? entry.1.visible path.segments = some .arrayLength)))))
    (by decide +kernel)
  obtain ⟨hsize, hany⟩ := Bool.and_eq_true .. ▸ htest
  obtain ⟨⟨place, e⟩, hentry, hassigns⟩ := List.any_eq_true.mp hany
  obtain ⟨operand, hoperand, hname⟩ := (Option.any_eq_true ..).mp hassigns
  obtain ⟨path, hpath, hlength⟩ := (Option.any_eq_true ..).mp hname
  exact ⟨a, haccepted, of_decide_eq_true hsize, place, e, operand, path,
    ⟨e, hentry, Expr.self_mem_parts e⟩, hoperand, hpath, of_decide_eq_true hlength⟩

end JoosStatics
