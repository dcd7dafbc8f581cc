/-
JoosStatics.Proofs.Typing.FieldChains — a qualified name is a selection of fields.

The grammar reads `a.b.c` as one name, and the checker finds out which part of
it is a variable or a type. Once a part is one, the identifiers behind it
select fields, as they do in `a.b` with `.c` selected from it. A `FieldChain`
is a name followed by such selections. It can be written as a tree of accesses
(`toExpr`) and as one name (`toName`), and the checker does the same with both.

* `inferReceiver_select` — what stands to the left of a selection, by induction
  on the selections before it.
* `infers_as_name` — the two spellings have the same type or break the same
  rule, as values, when assigned and to the left of a selection. The facts
  differ at the accesses that the name does not have.
-/
import Mathlib.Data.List.Induction
import JoosStatics.Proofs.Bodies.Escapes

namespace JoosStatics

/-! ## §1 Runs that agree but at some expressions -/

/-- The same state, but for what is recorded about the expressions at certain positions. -/
structure CheckState.AgreesBut (hidden : List ExprId) (st st' : CheckState) : Prop where
  lookups : st.lookups = st'.lookups
  targets : st.targets = st'.targets
  locals : st.facts.locals = st'.facts.locals
  types : ∀ id ∉ hidden, st.facts.types.find? id = st'.facts.types.find? id
  resolutions : ∀ id ∉ hidden, st.facts.resolutions.find? id = st'.facts.resolutions.find? id

namespace CheckState.AgreesBut

variable {hidden more : List ExprId} {st st' : CheckState} {mark : Mark}

theorem refl (hidden : List ExprId) (st : CheckState) : AgreesBut hidden st st :=
  ⟨rfl, rfl, rfl, fun _ _ => rfl, fun _ _ => rfl⟩

theorem mono (h : AgreesBut hidden st st') (hmore : hidden ⊆ more) : AgreesBut more st st' where
  lookups := h.lookups
  targets := h.targets
  locals := h.locals
  types id hid := h.types id (fun hmem => hid (hmore hmem))
  resolutions id hid := h.resolutions id (fun hmem => hid (hmore hmem))

/-- Both record the type of an expression. -/
theorem recordType (h : AgreesBut hidden st st') (mark : Mark) (type : Ty) :
    AgreesBut hidden (CheckM.recordType mark type st).2 (CheckM.recordType mark type st').2 where
  lookups := h.lookups
  targets := h.targets
  locals := h.locals
  types id hid := by
    simp only [CheckM.recordType, OrderedMap.find?_insert, h.types id hid]
  resolutions := h.resolutions

/-- Both record what an expression refers to. -/
theorem recordResolution (h : AgreesBut hidden st st') (mark : Mark) (res : Resolution) :
    AgreesBut hidden (CheckM.recordResolution mark res st).2
      (CheckM.recordResolution mark res st').2 where
  lookups := h.lookups
  targets := h.targets
  locals := h.locals
  types := h.types
  resolutions id hid := by
    simp only [CheckM.recordResolution, OrderedMap.find?_insert, h.resolutions id hid]

theorem trans {st'' : CheckState} (h : AgreesBut hidden st st') (h' : AgreesBut hidden st' st'') :
    AgreesBut hidden st st'' where
  lookups := h.lookups.trans h'.lookups
  targets := h.targets.trans h'.targets
  locals := h.locals.trans h'.locals
  types id hid := (h.types id hid).trans (h'.types id hid)
  resolutions id hid := (h.resolutions id hid).trans (h'.resolutions id hid)

/-- The type of a hidden expression does not matter. -/
theorem recordType_hidden (hmark : mark.id ∈ hidden) (type : Ty) (st : CheckState) :
    AgreesBut hidden st (CheckM.recordType mark type st).2 where
  lookups := rfl
  targets := rfl
  locals := rfl
  types id hid := by
    have hne : mark.id ≠ id := fun heq => hid (heq ▸ hmark)
    exact (OrderedMap.find?_insert_of_ne _ hne type).symm
  resolutions _ _ := rfl

/-- What a hidden expression refers to does not matter. -/
theorem recordResolution_hidden (hmark : mark.id ∈ hidden) (res : Resolution) (st : CheckState) :
    AgreesBut hidden st (CheckM.recordResolution mark res st).2 where
  lookups := rfl
  targets := rfl
  locals := rfl
  types _ _ := rfl
  resolutions id hid := by
    have hne : mark.id ≠ id := fun heq => hid (heq ▸ hmark)
    exact (OrderedMap.find?_insert_of_ne _ hne res).symm

end CheckState.AgreesBut

/-- Two runs have results alike, and end in the same state but for what is recorded about
hidden expressions. -/
structure SameRun {α β : Type} (hidden : List ExprId) (R : α → β → Prop)
    (run : Except Violation α × CheckState) (run' : Except Violation β × CheckState) : Prop where
  result : Alike Eq R run.1 run'.1
  state : run.2.AgreesBut hidden run'.2

namespace SameRun

variable {α β γ : Type} {hidden : List ExprId} {R : α → β → Prop} {st st' : CheckState}

theorem refl (hidden : List ExprId) (run : Except Violation α × CheckState) :
    SameRun hidden Eq run run where
  result := by
    cases run.1 with
    | error v => exact .error rfl
    | ok a => exact .ok rfl
  state := .refl hidden run.2

/-- Runs that agree go on in the same way. -/
theorem bind {x : CheckM α} {y : CheckM β} {f : α → CheckM γ} {g : β → CheckM γ}
    (hxy : SameRun hidden R (x st) (y st'))
    (hfg : ∀ a b, R a b → ∀ st₁ st₁', st₁.AgreesBut hidden st₁' →
      SameRun hidden Eq (f a st₁) (g b st₁')) :
    SameRun hidden Eq ((x >>= f) st) ((y >>= g) st') := by
  obtain ⟨hresult, hstate⟩ := hxy
  rw [run_bind, run_bind]
  revert hresult hstate
  rcases x st with ⟨r, st₁⟩
  rcases y st' with ⟨r', st₁'⟩
  intro hresult hstate
  cases hresult with
  | error h => exact ⟨.error h, hstate⟩
  | ok h => exact hfg _ _ h st₁ st₁' hstate

theorem recordType (h : st.AgreesBut hidden st') (mark : Mark) (type : Ty) :
    SameRun hidden Eq (CheckM.recordType mark type st) (CheckM.recordType mark type st') :=
  ⟨.ok rfl, h.recordType mark type⟩

theorem rule (h : st.AgreesBut hidden st') (result : Except Violation α) :
    SameRun hidden Eq (CheckM.rule result st) (CheckM.rule result st') :=
  ⟨(refl hidden (result, st)).result, h⟩

end SameRun

/-! ## §2 Names and their extensions -/

/-- What stands to the left of a selection, when it has a given meaning. A package has no
fields. -/
def NameMeaning.receiver? : NameMeaning → Option Receiver
  | .value found _ => some (.value found)
  | .type id => some (.type id)
  | .package _ => none

namespace BodyContext

variable (ctx : BodyContext) (scope : Scope) {path : QualifiedName} {range : Span} {mark : Mark}
  {meaning : NameMeaning} {receiver : Receiver} {st st₁ : CheckState}

theorem extendAll_append (meaning : NameMeaning) (names others : List Name) :
    ctx.extendAll range meaning (names ++ others) =
      (do ctx.extendAll range (← ctx.extendAll range meaning names) others) := by
  induction names generalizing meaning with
  | nil => rfl
  | cons name names ih =>
    show (ctx.extend range meaning name >>= fun m => ctx.extendAll range m (names ++ others)) =
      (ctx.extend range meaning name >>= fun m => ctx.extendAll range m names) >>=
        fun m => ctx.extendAll range m others
    rw [bind_assoc]
    exact congrArg _ (funext ih)

theorem extendAll_singleton (meaning : NameMeaning) (name : Name) :
    ctx.extendAll range meaning [name] = ctx.extend range meaning name := by
  show (ctx.extend range meaning name >>= fun m => ctx.extendAll range m []) = _
  cases ctx.extend range meaning name <;> rfl

/-- A longer name is classified by extending what the shorter one denotes. -/
theorem classify_append (hpath : ctx.classify scope path range st = (.ok meaning, st₁))
    (names : List Name) :
    ctx.classify scope ⟨path.segments ++ names⟩ range st =
      (ctx.extendAll range meaning names, st₁) := by
  obtain ⟨segments⟩ := path
  cases segments with
  | nil => cases hpath
  | cons first rest =>
    obtain ⟨m, st₂, hfirst, hrest⟩ := run_bind_eq_ok.mp hpath
    obtain ⟨hextend, rfl⟩ := Prod.mk.inj hrest
    show (ctx.classifySimple scope first range >>= fun m =>
      CheckM.rule (ctx.extendAll range m (rest ++ names))) st = _
    rw [run_bind, hfirst]
    show (ctx.extendAll range m (rest ++ names), _) = _
    rw [extendAll_append, hextend]
    rfl

/-- What is selected is a variable. -/
theorem extend_eq_selectField (hmeaning : meaning.receiver? = some receiver) (name : Name) :
    ctx.extend range meaning name =
      (ctx.selectField receiver name range).map (fun (type, kind) => .value type kind) := by
  cases meaning with
  | value type kind =>
    cases hmeaning
    rfl
  | type id =>
    cases hmeaning
    rfl
  | package name => cases hmeaning

/-- Records which variable an expression refers to, once it is found. -/
def recordVariable (mark : Mark) (found : Except Violation (Ty × ValueKind)) :
    CheckM (Ty × ValueKind) := do
  let (type, kind) ← CheckM.rule found
  CheckM.recordResolution mark kind.resolution
  return (type, kind)

section Variables

variable {found : Except Violation (Ty × ValueKind)}
  (hpath : ctx.classify scope path mark.range st =
    (found.map (fun (type, kind) => .value type kind), st₁))

include hpath

theorem inferName_eq_recordVariable :
    ctx.inferName scope mark path st = recordVariable mark found st₁ := by
  unfold inferName
  rw [run_bind, hpath]
  cases found <;> rfl

theorem inferAssignedName_eq_recordVariable :
    ctx.inferAssignedName scope mark path st = recordVariable mark found st₁ := by
  unfold inferAssignedName
  rw [run_bind, hpath]
  cases found <;> rfl

theorem inferReceiverName_eq_recordVariable :
    ctx.inferReceiverName scope mark path st =
      (recordVariable mark found >>= fun (type, _) => do
        return .value (← CheckM.recordType mark type)) st₁ := by
  unfold inferReceiverName
  rw [run_bind, hpath]
  cases found <;> rfl

end Variables

end BodyContext

/-- Both record which variable an expression refers to. -/
theorem SameRun.recordVariable {hidden : List ExprId} {st st' : CheckState}
    (h : st.AgreesBut hidden st') (mark : Mark) (found : Except Violation (Ty × ValueKind)) :
    SameRun hidden Eq (BodyContext.recordVariable mark found st)
      (BodyContext.recordVariable mark found st') := by
  cases found with
  | error v => exact ⟨.error rfl, h⟩
  | ok result => exact ⟨.ok rfl, h.recordResolution mark _⟩

/-! ## §3 Chains of selections -/

/-- Fields selected from an expression, one from the other. -/
def Expr.select (e : Expr Mark) : List (Mark × Name) → Expr Mark
  | [] => e
  | (mark, name) :: selections => (Expr.fieldAccess mark e name).select selections

/-- The last selection is the outermost access. -/
theorem Expr.select_append_singleton (e : Expr Mark) (selections : List (Mark × Name))
    (mark : Mark) (name : Name) :
    e.select (selections ++ [(mark, name)]) = .fieldAccess mark (e.select selections) name := by
  induction selections generalizing e with
  | nil => rfl
  | cons selection selections ih => exact ih _

theorem Expr.ids_fieldAccess (mark : Mark) (e : Expr Mark) (name : Name) :
    (Expr.fieldAccess mark e name).ids = mark.id :: e.ids := by
  rw [Expr.ids_eq]
  simp [Expr.note, Expr.children]

namespace BodyContext

variable (ctx : BodyContext) (scope : Scope) {path : QualifiedName} {mark outer : Mark}
  {meaning : NameMeaning} {receiver : Receiver} {st st₁ : CheckState} {e : Expr Mark}

/-- A field access up to the record of its type. -/
def inferSelection (mark : Mark) (e : Expr Mark) (name : Name) : CheckM (Ty × ValueKind) := do
  let left ← ctx.inferReceiver scope e (inferExpr ctx scope e)
  ctx.inferAccess mark left name

theorem inferExpr_fieldAccess (mark : Mark) (e : Expr Mark) (name : Name) :
    inferExpr ctx scope (.fieldAccess mark e name) =
      ctx.inferSelection scope mark e name >>= fun (type, _) => CheckM.recordType mark type :=
  (bind_assoc ..).symm

theorem inferTarget_fieldAccess (mark : Mark) (e : Expr Mark) (name : Name) :
    inferTarget ctx scope (.fieldAccess mark e name) =
      ctx.inferSelection scope mark e name >>= (fun (type, kind) => do
        CheckM.rule (ctx.requireWritable kind mark.range)
        CheckM.recordType mark type) :=
  (bind_assoc ..).symm

theorem inferReceiver_fieldAccess (mark : Mark) (e : Expr Mark) (name : Name) :
    ctx.inferReceiver scope (.fieldAccess mark e name)
        (inferExpr ctx scope (.fieldAccess mark e name)) =
      ctx.inferSelection scope mark e name >>= fun (type, _) => do
        return .value (← CheckM.recordType mark type) := by
  rw [inferExpr_fieldAccess]
  exact bind_assoc ..

/-- A name and a field access that find the same variable are checked alike from there on. -/
theorem named_sameRun_fieldAccess {hidden : List ExprId}
    {found : Except Violation (Ty × ValueKind)} {name : Name}
    (hpath : ctx.classify scope path outer.range st =
      (found.map (fun (type, kind) => .value type kind), st₁))
    (hrun : SameRun hidden Eq (recordVariable outer found st₁)
      (ctx.inferSelection scope outer e name st)) :
    SameRun hidden Eq (inferExpr ctx scope (.named outer path) st)
      (inferExpr ctx scope (.fieldAccess outer e name) st) ∧
    SameRun hidden Eq (inferTarget ctx scope (.named outer path) st)
      (inferTarget ctx scope (.fieldAccess outer e name) st) ∧
    SameRun hidden Eq
      (ctx.inferReceiver scope (.named outer path) (inferExpr ctx scope (.named outer path)) st)
      (ctx.inferReceiver scope (.fieldAccess outer e name)
        (inferExpr ctx scope (.fieldAccess outer e name)) st) := by
  rw [inferReceiver_fieldAccess, inferTarget_fieldAccess, inferExpr_fieldAccess]
  refine ⟨?_, ?_, ?_⟩
  · have hname : SameRun hidden Eq (ctx.inferName scope outer path st)
        (ctx.inferSelection scope outer e name st) :=
      (ctx.inferName_eq_recordVariable scope hpath).symm ▸ hrun
    refine hname.bind (fun _ found hfound _ _ hstate => ?_)
    rw [hfound]
    exact .recordType hstate outer found.1
  · have hname : SameRun hidden Eq (ctx.inferAssignedName scope outer path st)
        (ctx.inferSelection scope outer e name st) :=
      (ctx.inferAssignedName_eq_recordVariable scope hpath).symm ▸ hrun
    refine hname.bind (fun _ found hfound _ _ hstate => ?_)
    rw [hfound]
    refine (SameRun.rule hstate _).bind (fun _ _ _ _ _ hstate => ?_)
    exact .recordType hstate outer found.1
  · show SameRun hidden Eq (ctx.inferReceiverName scope outer path st) _
    rw [ctx.inferReceiverName_eq_recordVariable scope hpath]
    refine hrun.bind (fun _ found hfound _ _ hstate => ?_)
    rw [hfound]
    exact (SameRun.recordType hstate outer found.1).bind (fun _ _ htype _ _ hstate =>
      ⟨.ok (congrArg _ htype), hstate⟩)

/-- An expression to the left of a selection denotes what a name with some more identifiers
does. -/
abbrev StandsFor (e : Expr Mark) (range : Span) (meaning : NameMeaning) (names : List Name)
    (st st₁ : CheckState) : Prop :=
  SameRun e.ids (fun m r => m.receiver? = some r) (ctx.extendAll range meaning names, st₁)
    (ctx.inferReceiver scope e (inferExpr ctx scope e) st)

/-- A field selected from an expression is the variable that the longer name denotes. -/
theorem inferSelection_sameRun {names : List Name}
    (h : ctx.StandsFor scope e outer.range meaning names st st₁) (name : Name) :
    ∃ found, ctx.extendAll outer.range meaning (names ++ [name]) =
        found.map (fun (type, kind) => .value type kind) ∧
      SameRun e.ids Eq (recordVariable outer found st₁)
        (ctx.inferSelection scope outer e name st) := by
  obtain ⟨hresult, hstate⟩ := h
  rw [extendAll_append]
  simp only [inferSelection, run_bind]
  revert hresult hstate
  rcases ctx.inferReceiver scope e (inferExpr ctx scope e) st with ⟨result, st'⟩
  intro hresult hstate
  cases hresult.outcomes with
  | inl hfailed =>
    obtain ⟨v, v', hv, hv', rfl⟩ := hfailed
    dsimp only at hv hv'
    subst hv'
    exact ⟨.error v, by rw [hv]; rfl, .error rfl, hstate⟩
  | inr hdenotes =>
    obtain ⟨m, left, hm, hleft, hreceiver⟩ := hdenotes
    dsimp only at hm hleft
    subst hleft
    refine ⟨ctx.selectField left name outer.range, ?_, ?_⟩
    · rw [hm, ← ctx.extend_eq_selectField hreceiver, ← extendAll_singleton]
      rfl
    · exact .recordVariable hstate ..

/-- A chain of selections denotes what its name does. -/
theorem inferReceiver_select
    (hpath : ctx.classify scope path mark.range st = (.ok meaning, st₁))
    (hmeaning : ∀ package, meaning ≠ .package package) (selections : List (Mark × Name))
    (hrange : ∀ selection ∈ selections, selection.1.range = mark.range) :
    ctx.StandsFor scope ((Expr.named mark path).select selections) mark.range meaning
      (selections.map Prod.snd) st st₁ := by
  induction selections using List.reverseRecOn with
  | nil =>
    have hmark : mark.id ∈ (Expr.named mark path).ids := Expr.note_id_mem_ids _
    show SameRun _ _ _ (ctx.inferReceiverName scope mark path st)
    unfold inferReceiverName
    rw [run_bind, hpath]
    cases meaning with
    | value type kind =>
      exact ⟨.ok rfl, .trans (.recordResolution_hidden hmark kind.resolution st₁)
        (.recordType_hidden hmark type _)⟩
    | type id => exact ⟨.ok rfl, .recordResolution_hidden hmark (.type id) st₁⟩
    | package name => exact absurd rfl (hmeaning name)
  | append_singleton selections selection ih =>
    obtain ⟨outer, name⟩ := selection
    have hinner := ih (fun selection hmem => hrange selection (List.mem_append_left _ hmem))
    have houter : outer.range = mark.range :=
      hrange (outer, name) (List.mem_append_right _ (List.mem_singleton_self _))
    rw [← houter] at hinner ⊢
    obtain ⟨found, hfound, hresult, hstate⟩ := ctx.inferSelection_sameRun scope hinner name
    rw [Expr.select_append_singleton, List.map_append, List.map_singleton]
    unfold StandsFor
    rw [inferReceiver_fieldAccess, Expr.ids_fieldAccess, run_bind, hfound]
    revert hresult hstate
    rcases ctx.inferSelection scope outer ((Expr.named mark path).select selections) name st with
      ⟨result, st'⟩
    intro hresult hstate
    have hmark : outer.id ∈ outer.id :: ((Expr.named mark path).select selections).ids :=
      List.mem_cons_self ..
    have hagrees := hstate.mono (List.subset_cons_self outer.id _)
    cases found with
    | error v =>
      cases hresult with
      | error h => exact ⟨.error h, hagrees⟩
    | ok found =>
      cases hresult with
      | ok h =>
        subst h
        -- The name does not record the variable that is selected on the way.
        refine ⟨.ok rfl, .trans (.recordResolution_hidden hmark found.2.resolution st₁) ?_⟩
        exact hagrees.trans (.recordType_hidden hmark found.1 st')

end BodyContext

/-- A name from which fields are selected. -/
structure FieldChain where
  mark : Mark
  path : QualifiedName
  selections : List (Mark × Name)

namespace FieldChain

/-- The chain as accesses, the last one outermost. -/
def toExpr (c : FieldChain) : Expr Mark := (Expr.named c.mark c.path).select c.selections

/-- The chain as one name, in the place of its outermost access. -/
def toName (c : FieldChain) : Expr Mark :=
  .named c.toExpr.note ⟨c.path.segments ++ c.selections.map Prod.snd⟩

/-- The positions of the expressions inside the outermost access. -/
def inner (c : FieldChain) : List ExprId := c.toExpr.children.flatMap Expr.ids

/-- All expressions of the chain have the same place in the source, and different positions. -/
structure IsWellMarked (c : FieldChain) : Prop where
  range : ∀ selection ∈ c.selections, selection.1.range = c.mark.range
  nodup : c.toExpr.ids.Nodup

variable {c : FieldChain} {ctx : BodyContext} {scope : Scope} {meaning : NameMeaning}
  {st st₁ : CheckState}

theorem note_id_notMem_inner (hc : c.IsWellMarked) : c.toName.note.id ∉ c.inner := by
  have hids := hc.nodup
  rw [Expr.ids_eq, List.nodup_cons] at hids
  exact hids.1

/-- A name that denotes a variable or type, followed by selections, and the name that has the
selected identifiers as its own are checked alike: as a value, when it is assigned and to the
left of a selection. Both have the same type or break the same rule, and leave the same state
behind but for what is recorded about the accesses inside the outermost one. -/
theorem infers_as_name (hc : c.IsWellMarked)
    (hpath : (ctx.classify scope c.path c.mark.range st).1 = .ok meaning)
    (hmeaning : ∀ package, meaning ≠ .package package) :
    c.toName.note.id ∉ c.inner ∧
    SameRun c.inner Eq (inferExpr ctx scope c.toName st) (inferExpr ctx scope c.toExpr st) ∧
    SameRun c.inner Eq (inferTarget ctx scope c.toName st) (inferTarget ctx scope c.toExpr st) ∧
    SameRun c.inner Eq (ctx.inferReceiver scope c.toName (inferExpr ctx scope c.toName) st)
      (ctx.inferReceiver scope c.toExpr (inferExpr ctx scope c.toExpr) st) := by
  refine ⟨note_id_notMem_inner hc, ?_⟩
  obtain ⟨mark, path, selections⟩ := c
  obtain ⟨st₁, hrun⟩ : ∃ st₁, ctx.classify scope path mark.range st = (.ok meaning, st₁) :=
    ⟨_, Prod.ext hpath rfl⟩
  obtain rfl | ⟨selections, ⟨outer, name⟩, rfl⟩ := selections.eq_nil_or_concat'
  · have hsame : toName ⟨mark, path, []⟩ = toExpr ⟨mark, path, []⟩ := by
      simp [toName, toExpr, Expr.select, Expr.note]
    rw [hsame]
    exact ⟨.refl _ _, .refl _ _, .refl _ _⟩
  · have houter : outer.range = mark.range :=
      hc.range (outer, name) (List.mem_append_right _ (List.mem_singleton_self _))
    have hreceiver := ctx.inferReceiver_select scope hrun hmeaning selections
      (fun selection hmem => hc.range selection (List.mem_append_left _ hmem))
    rw [← houter] at hrun hreceiver
    obtain ⟨found, hfound, hvariable⟩ := ctx.inferSelection_sameRun scope hreceiver name
    have hwhole := ctx.classify_append scope hrun (selections.map Prod.snd ++ [name])
    rw [hfound] at hwhole
    have hsame := ctx.named_sameRun_fieldAccess scope hwhole hvariable
    simpa [toName, toExpr, inner, Expr.select_append_singleton, Expr.note, Expr.children] using hsame

end FieldChain

/-- A class of objects that lead to the next one, the first of them in a static field. -/
def ring : Program :=
  { units := unitsOf [{ Library.classNamed "Node" with
      fields := [
        { type := Library.named "Node", name := "first", modifiers := .public ||| .static },
        { type := Library.named "Node", name := "next" }] }] ++ coreUnits }

/-- `Node.first.next`, of which `Node` is a type. -/
def secondNode : FieldChain where
  mark := ⟨0, {}⟩
  path := .single "Node"
  selections := [(⟨1, {}⟩, "first"), (⟨2, {}⟩, "next")]

theorem secondNode_infers_as_name :
    secondNode.IsWellMarked ∧ ∃ ctx : BodyContext,
      (ctx.classify [] secondNode.path secondNode.mark.range {}).1 = .ok (.type 0) ∧
      (inferExpr ctx [] secondNode.toName {}).1 = .ok (.declared 0) ∧
      SameRun secondNode.inner Eq (inferExpr ctx [] secondNode.toName {})
        (inferExpr ctx [] secondNode.toExpr {}) := by
  obtain ⟨a, -, htest⟩ := exists_accepted ring { includeStdlib := false }
    (fun a =>
      let ctx : BodyContext := { a.classContext 0 with member := "walk", isStatic := true }
      decide ((ctx.classify [] secondNode.path secondNode.mark.range {}).1 = .ok (.type 0)) &&
        decide ((inferExpr ctx [] secondNode.toName {}).1 = .ok (.declared 0)))
    (by decide +kernel)
  obtain ⟨hpath, htype⟩ := Bool.and_eq_true .. ▸ htest
  have hpath := of_decide_eq_true hpath
  have hc : secondNode.IsWellMarked := ⟨by decide, by decide⟩
  obtain ⟨-, hvalue, -⟩ := FieldChain.infers_as_name hc hpath nofun
  exact ⟨hc, _, hpath, of_decide_eq_true htype, hvalue⟩

end JoosStatics
