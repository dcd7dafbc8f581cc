/-
JoosStatics.Proofs.Bodies.Independence — bodies are judged one by one.

Bodies share the lookups made so far, the variables and the targets of
their class, and what a failed check leaves behind. The check of a body
comes out as if it were the only one, right after linking, with one
exception: the answer that a name is ambiguous between packages imported on
demand is remembered together with the place of its first use, and that
place is reported for every later use in the class.

* `Linked.Abreast`, `checkBody_recalls` — a shared check beside a check alone.
* `Linked.Tracks`, `failedAnswer_checkBody` — which failures are remembered.
* `checkClasses_eq_alone` — the violations of all bodies, from those of each
  body alone.
-/
import JoosStatics.Proofs.Bodies.LateNames
import JoosStatics.Proofs.Renaming.Members

namespace JoosStatics

/-! ## §1 Answers and their places -/

/-- The name that is found to be ambiguous, if that is the violation. -/
def Violation.ambiguousName? (v : Violation) : Option Name :=
  match v.cause with
  | .ambiguousOnDemandImport name _ => some name
  | _ => none

/-- The violation that is remembered of a name in a unit. -/
def LookupState.failedAnswer? (st : LookupState) (id : ClassId) (name : Name) : Option Violation :=
  match st.answers.lookup (id, name) with
  | some (.error v) => some v
  | _ => none

/-- A violation as it is reported: when a failure of its name is remembered, then
in the place of that failure. -/
def LookupState.recall (st : LookupState) (id : ClassId) (v : Violation) : Violation :=
  (v.ambiguousName?.bind (st.failedAnswer? id)).getD v

theorem LookupState.failedAnswer?_eq_some {st : LookupState} {id : ClassId} {name : Name}
    {v : Violation} :
    st.failedAnswer? id name = some v ↔ st.answers.lookup (id, name) = some (.error v) := by
  unfold failedAnswer?
  split
  · rename_i w heq
    rw [heq]
    simp
  · rename_i hnot
    constructor
    · intro h
      cases h
    · exact fun h => absurd h (hnot v)

theorem Violation.ambiguousName?_of_phase {v : Violation} (h : v.phase ≠ .typeLinking) :
    v.ambiguousName? = none := by
  obtain ⟨cause, location⟩ := v
  cases cause <;> first | rfl | exact absurd rfl h

theorem Violation.phase_of_ambiguousName? {v : Violation} {name : Name}
    (h : v.ambiguousName? = some name) : v.phase = .typeLinking := by
  by_contra hphase
  rw [ambiguousName?_of_phase hphase] at h
  cases h

namespace Linked

variable {l : Linked} {h : Hierarchy} {id : ClassId} {owner : BodyOwner}

/-! ## §2 A shared check beside a check alone -/

/-- Two states of checks in one type: one that started with what other bodies left
behind, and one that started right after linking. Names that no other body had looked
up have the same answer in both. -/
structure Abreast (l : Linked) (before : LookupState) (id : ClassId) (st st' : CheckState) :
    Prop where
  grown : st.lookups.Extends before
  shared : st.lookups.Extends l.lookups
  alone : st'.lookups.Extends l.lookups
  found : l.symbols.AnswersFound st.lookups
  foundAlone : l.symbols.AnswersFound st'.lookups
  fresh : ∀ name, before.answers.lookup (id, name) = none →
    st.lookups.answers.lookup (id, name) = st'.lookups.answers.lookup (id, name)

/-- The violation of a check alone, and the one that is reported. -/
abbrev Recalls (before : LookupState) (id : ClassId) (v v' : Violation) : Prop :=
  v = before.recall id v'

variable {before : LookupState}

/-- Steps that make no lookup stay abreast. -/
theorem abreast_step {α : Type} {R : α → α → Prop} {x y : CheckM α}
    (hx : ∀ st, (x st).2.lookups = st.lookups) (hy : ∀ st, (y st).2.lookups = st.lookups)
    (hxy : ∀ st st', Alike (Recalls before id) R (x st).1 (y st').1) :
    Simulates (l.Abreast before id) (Recalls before id) R x y := by
  intro st st' hI
  refine ⟨⟨?_, ?_, ?_, ?_, ?_, ?_⟩, hxy st st'⟩
  · exact (hx st).symm ▸ hI.grown
  · exact (hx st).symm ▸ hI.shared
  · exact (hy st').symm ▸ hI.alone
  · exact (hx st).symm ▸ hI.found
  · exact (hy st').symm ▸ hI.foundAlone
  · rw [hx, hy]
    exact hI.fresh

/-- A settled lookup has the same result in both. -/
theorem abreast_of_settled {α : Type} {action : LookupM α} (hsettled : Settled action l.lookups) :
    Simulates (l.Abreast before id) (Recalls before id) Eq (CheckM.lookup action)
      (CheckM.lookup action) := by
  obtain ⟨a, hrun⟩ := hsettled
  intro st st' hI
  unfold CheckM.lookup
  rw [hrun _ hI.shared, hrun _ hI.alone]
  exact ⟨hI, .ok rfl⟩

/-- When a lookup fails in both, then in the shared check with the failure that is
remembered, or with the same one. -/
theorem Abreast.recalls {st st' : CheckState} (hI : l.Abreast before id st st') {name : Name}
    {range : Span} {v v' : Violation} (hname : v'.ambiguousName? = some name)
    (hv : (l.symbols.lookupSimple id name range st.lookups).1 = .error v)
    (hv' : (l.symbols.lookupSimple id name range st'.lookups).1 = .error v') :
    v = before.recall id v' := by
  rw [LookupState.recall, hname, Option.bind_some]
  cases hbefore : before.answers.lookup (id, name) with
  | none =>
    have hsame := SymbolTable.lookupSimple_fst_congr (s := l.symbols) (hI.fresh name hbefore) range
    rw [hv, hv'] at hsame
    cases hsame
    simp [LookupState.failedAnswer?, hbefore]
  | some answer =>
    rw [SymbolTable.lookupSimple_of_answer (hI.grown _ _ hbefore)] at hv
    obtain rfl : answer = .error v := hv
    rw [LookupState.failedAnswer?_eq_some.mpr hbefore]
    rfl

/-- The lookup of a name fails in both or in none of them. -/
theorem abreast_firstName (himports : l.symbols.checkImports id = .ok ()) (name : Name)
    (range : Span) :
    Simulates (l.Abreast before id) (Recalls before id) Eq
      (CheckM.lookup (l.symbols.lookupSimple id name range))
      (CheckM.lookup (l.symbols.lookupSimple id name range)) := by
  intro st st' hI
  have hextends := l.symbols.lookupSimple_remembers id name range st.lookups
  have hextends' := l.symbols.lookupSimple_remembers id name range st'.lookups
  have hfound := SymbolTable.lookupSimple_finds id name range hI.found
  have hfound' := SymbolTable.lookupSimple_finds id name range hI.foundAlone
  have hanswer := l.symbols.lookupSimple_answer id name range st.lookups
  have hanswer' := l.symbols.lookupSimple_answer id name range st'.lookups
  refine ⟨⟨hextends.trans hI.grown, hextends.trans hI.shared, hextends'.trans hI.alone, hfound,
    hfound', fun other hother => ?_⟩, ?_⟩
  · show (l.symbols.lookupSimple id name range st.lookups).2.answers.lookup (id, other) =
      (l.symbols.lookupSimple id name range st'.lookups).2.answers.lookup (id, other)
    by_cases heq : other = name
    · subst heq
      rw [hanswer, hanswer', SymbolTable.lookupSimple_fst_congr (hI.fresh other hother) range]
    · have hkey : (id, other) ≠ (id, name) := fun h => heq (Prod.mk.inj h).2
      rw [SymbolTable.lookupSimple_other hkey, SymbolTable.lookupSimple_other hkey]
      exact hI.fresh other hother
  · show Alike _ _ (l.symbols.lookupSimple id name range st.lookups).1
      (l.symbols.lookupSimple id name range st'.lookups).1
    obtain ⟨place, hplace⟩ := hfound id name _ hanswer
    obtain ⟨place', hplace'⟩ := hfound' id name _ hanswer'
    cases hresult' : (l.symbols.lookupSimple id name range st'.lookups).1 with
    | ok found =>
      rw [hplace, SymbolTable.findSimple_eq_ok (hplace'.symm.trans hresult') place]
      exact .ok rfl
    | error v' =>
      obtain ⟨-, rfl⟩ := SymbolTable.findSimple_eq_error himports (hplace'.symm.trans hresult')
      cases hresult : (l.symbols.lookupSimple id name range st.lookups).1 with
      | ok found =>
        rw [hplace', SymbolTable.findSimple_eq_ok (hplace.symm.trans hresult) place'] at hresult'
        cases hresult'
      | error v =>
        exact .error (hI.recalls rfl hresult hresult')

/-! ## §3 Which failures are remembered -/

/-- Nothing that is remembered is forgotten. A failure is remembered only when it
ends the check, and a failed lookup that ends the check is remembered. -/
structure Tracks (l : Linked) (id : ClassId) {α : Type} (x : CheckM α) : Prop where
  remembers : ∀ st, (x st).2.lookups.Extends st.lookups
  failed : ∀ st, st.lookups.Extends l.lookups → ∀ key v,
    (x st).2.lookups.answers.lookup key = some (.error v) →
    st.lookups.answers.lookup key = some (.error v) ∨ key.1 = id ∧ (x st).1 = .error v
  ends : ∀ st, st.lookups.Extends l.lookups → ∀ v, (x st).1 = .error v →
    v.phase = .typeLinking → ∃ name, (x st).2.lookups.answers.lookup (id, name) = some (.error v)

namespace Tracks

variable {α β : Type}

/-- A step that makes no lookup and breaks no rule of linking. -/
theorem of_same {x : CheckM α} (hsame : ∀ st, (x st).2.lookups = st.lookups)
    (hrule : ∀ st v, (x st).1 = .error v → v.phase ≠ .typeLinking) : l.Tracks id x where
  remembers st := by
    rw [hsame]
    exact .refl _
  failed st _ key v hv := by
    rw [hsame] at hv
    exact .inl hv
  ends st _ v hv hphase := absurd hphase (hrule st v hv)

/-- A step that makes no lookup and succeeds. -/
theorem of_ok {x : CheckM α} (hsame : ∀ st, (x st).2.lookups = st.lookups)
    (hok : ∀ st, ∃ a, (x st).1 = .ok a) : l.Tracks id x := by
  refine of_same hsame (fun st v hv => ?_)
  obtain ⟨a, ha⟩ := hok st
  rw [ha] at hv
  cases hv

theorem pure (a : α) : l.Tracks id (Pure.pure a : CheckM α) := of_ok (fun _ => rfl) (fun _ => ⟨a, rfl⟩)

theorem bind {x : CheckM α} {f : α → CheckM β} (hx : l.Tracks id x) (hf : ∀ a, l.Tracks id (f a)) :
    l.Tracks id (x >>= f) := by
  constructor
  · intro st
    have hfirst := hx.remembers st
    rw [run_bind]
    revert hfirst
    rcases x st with ⟨_ | a, st₁⟩
    · exact fun hfirst => hfirst
    · exact fun hfirst => ((hf a).remembers st₁).trans hfirst
  · intro st hst key v
    have hfirst := hx.remembers st
    have hfailed := hx.failed st hst key v
    rw [run_bind]
    revert hfirst hfailed
    rcases x st with ⟨e | a, st₁⟩
    · intro _ hfailed hv
      refine (hfailed hv).imp_right (fun h => ⟨h.1, ?_⟩)
      cases h.2
      rfl
    · intro hfirst hfailed hv
      rcases (hf a).failed st₁ (hfirst.trans hst) key v hv with hv | hv
      · exact (hfailed hv).imp_right (fun h => nomatch h.2)
      · exact .inr hv
  · intro st hst v
    have hfirst := hx.remembers st
    have hends := hx.ends st hst v
    rw [run_bind]
    revert hfirst hends
    rcases x st with ⟨e | a, st₁⟩
    · intro _ hends hv
      cases hv
      exact hends rfl
    · exact fun hfirst _ hv => (hf a).ends st₁ (hfirst.trans hst) v hv

theorem rule {result : Except Violation α} {f : α → CheckM β} (hrule : IsBodyRule result)
    (hf : ∀ a, result = .ok a → l.Tracks id (f a)) : l.Tracks id (CheckM.rule result >>= f) := by
  cases result with
  | error e =>
    refine of_same (fun _ => rfl) (fun st v hv => ?_)
    cases hv
    exact hrule _ rfl
  | ok a => exact hf a rfl

theorem of_settled {action : LookupM α} (hlooks : l.symbols.LooksUp action)
    (hsettled : Settled action l.lookups) : l.Tracks id (CheckM.lookup action) := by
  obtain ⟨a, hrun⟩ := hsettled
  have hsame {st : CheckState} (hst : st.lookups.Extends l.lookups) :
      CheckM.lookup action st = (.ok a, st) := by
    unfold CheckM.lookup
    rw [hrun _ hst]
  constructor
  · exact fun st => hlooks.remembers st.lookups
  · intro st hst key v hv
    rw [hsame hst] at hv
    exact .inl hv
  · intro st hst v hv
    rw [hsame hst] at hv
    cases hv

theorem firstName (name : Name) (range : Span) :
    l.Tracks id (CheckM.lookup (l.symbols.lookupSimple id name range)) where
  remembers st := l.symbols.lookupSimple_remembers id name range st.lookups
  failed st _ key v hv := by
    replace hv : (l.symbols.lookupSimple id name range st.lookups).2.answers.lookup key =
      some (.error v) := hv
    by_cases hkey : key = (id, name)
    · subst hkey
      rw [SymbolTable.lookupSimple_answer] at hv
      exact .inr ⟨rfl, Option.some.inj hv⟩
    · rw [SymbolTable.lookupSimple_other hkey] at hv
      exact .inl hv
  ends st _ v hv _ := by
    replace hv : (l.symbols.lookupSimple id name range st.lookups).1 = .error v := hv
    refine ⟨name, ?_⟩
    show (l.symbols.lookupSimple id name range st.lookups).2.answers.lookup _ = _
    rw [SymbolTable.lookupSimple_answer, hv]

end Tracks

/-! ## §4 The bodies of a type -/

/-- The violation that the check of a body finds when it comes right after linking. -/
def violationAlone? (l : Linked) (h : Hierarchy) (id : ClassId) (owner : BodyOwner) :
    Option Violation :=
  match ((l.classContext h id).checkBody owner { lookups := l.lookups }).1 with
  | .ok () => none
  | .error v => some v

/-- The violations that the checks of the bodies of a type find, each one alone. -/
def violationsAlone (l : Linked) (h : Hierarchy) (id : ClassId) : List Violation :=
  (l.classContext h id).owners.filterMap (l.violationAlone? h id)

end Linked

/-- A violation as it is reported among others of its type: of several ones about one
ambiguous name, the first is reported each time. -/
def Violation.reportAmong (all : List Violation) (v : Violation) : Violation :=
  match v.ambiguousName? with
  | none => v
  | some name => (all.find? (fun w => w.ambiguousName? = some name)).getD v

section Bodies

variable {program library : List CompilationUnit} {l : Linked} {h : Hierarchy} {id : ClassId}
  {owner : BodyOwner}

namespace HasHierarchy

/-- The check of a body stays abreast of the check of the body alone. -/
theorem abreast_steps (hh : HasHierarchy program library l h) (hid : id < l.symbols.programSize)
    (before : LookupState) (owner : BodyOwner) :
    PairedSteps (.identity (fun _ _ => True)) (l.Abreast before id) (Linked.Recalls before id)
      ((l.classContext h id).bodyContext owner) ((l.classContext h id).bodyContext owner)
      (· ∈ (l.classContext h id).decl.exprsOf owner)
      (· ∈ (l.classContext h id).decl.stmtsOf owner) := by
  have htype {type : TypeSyntax}
      (htype : type ∈ (l.classContext h id).decl.bodies.writtenTypes) :
      Simulates (l.Abreast before id) (Linked.Recalls before id)
        (SameType (.identity (fun _ _ => True)))
        (((l.classContext h id).bodyContext owner).resolveType type)
        (((l.classContext h id).bodyContext owner).resolveType
          (type.mapSpans (Renaming.identity (fun _ _ => True)).span)) := by
    rw [Renaming.span_identity, type.mapSpans_id, BodyContext.resolveType,
      Linked.bodyContext_symbols, Linked.bodyContext_classId]
    refine (Linked.abreast_of_settled (hh.settled hid htype)).mono (fun found _ heq => ?_)
    exact heq ▸ found.rename_id.symm
  constructor
  · exact ((l.classContext h id).bodyContext owner).renames_refl _
  · intro v hphase
    rw [Linked.Recalls, Renaming.span_identity, v.mapSpan_id, LookupState.recall,
      Violation.ambiguousName?_of_phase hphase]
    rfl
  · exact fun he hwritten => htype (TypeDecl.exprType_mem he hwritten)
  · intro mark type args he
    rw [Linked.bodyContext_symbols, Linked.bodyContext_classId, Renaming.span_identity,
      type.mapSpan_id]
    have hsettled := hh.settled hid (TypeDecl.exprType_mem he rfl)
    refine (Linked.abreast_of_settled (SymbolTable.LooksUp.settled_bind
      (SymbolTable.resolveRef_looksUp id type) (fun _ => .pure _) hsettled).1).mono ?_
    exact fun _ _ heq => heq.symm
  · exact fun hs => htype (TypeDecl.localType_mem hs)
  · intro mark path first he hfirst
    rw [Linked.bodyContext_symbols, Linked.bodyContext_classId]
    refine (Linked.abreast_firstName (hh.checkImports hid) first mark.range).mono ?_
    exact fun _ _ heq => heq ▸ Option.map_id_apply.symm
  · intro e he type
    exact Linked.abreast_step (fun _ => rfl) (fun _ => rfl) (fun _ _ => .ok rfl)
  · intro e res res' he hres
    exact Linked.abreast_step (fun _ => rfl) (fun _ => rfl) (fun _ _ => .ok trivial)
  · intro var
    exact Linked.abreast_step (fun _ => rfl) (fun _ => rfl) (fun _ _ => .ok trivial)

/-- The check of a body reports what the check alone finds, with the place that is
remembered. -/
theorem checkBody_recalls (hh : HasHierarchy program library l h)
    (hid : id < l.symbols.programSize) {st : CheckState} (hst : l.LateLookups h st.lookups)
    (owner : BodyOwner) :
    ((l.classContext h id).checkBody owner st).1 = .ok () ∧ l.violationAlone? h id owner = none ∨
    ∃ v, ((l.classContext h id).checkBody owner st).1 = .error (st.lookups.recall id v) ∧
      l.violationAlone? h id owner = some v := by
  have hcls := (l.classContext h id).renames_refl (fun _ _ => True)
  have hsimulates := hcls.checkBody_simulates (BodyOwner.renames_refl _ _ owner)
    (hh.abreast_steps hid st.lookups owner) (fun index target _ =>
      Linked.abreast_step (fun _ => rfl) (fun _ => rfl) (fun _ _ => .ok trivial))
  have hfresh (name : Name) (hnone : st.lookups.answers.lookup (id, name) = none) :
      st.lookups.answers.lookup (id, name) = l.lookups.answers.lookup (id, name) := by
    cases hearly : l.lookups.answers.lookup (id, name) with
    | none => exact hnone
    | some answer =>
      rw [hst.remembers _ _ hearly] at hnone
      cases hnone
  have hresult := (hsimulates st { lookups := l.lookups } ⟨.refl _, hst.remembers, .refl _,
    hst.found, hh.lateLookups.found, hfresh⟩).2
  unfold Linked.violationAlone?
  revert hresult
  generalize ((l.classContext h id).checkBody owner st).1 = result
  generalize ((l.classContext h id).checkBody owner { lookups := l.lookups }).1 = result'
  intro hresult
  cases hresult with
  | ok _ => exact .inl ⟨rfl, rfl⟩
  | error hv => exact .inr ⟨_, congrArg _ hv, rfl⟩

/-- Each step in a body remembers only the failures that end it. -/
theorem tracks_checkBody (hh : HasHierarchy program library l h)
    (hid : id < l.symbols.programSize) (owner : BodyOwner) :
    l.Tracks id ((l.classContext h id).checkBody owner) := by
  have htype {type : TypeSyntax}
      (htype : type ∈ (l.classContext h id).decl.bodies.writtenTypes) :
      l.Tracks id (((l.classContext h id).bodyContext owner).resolveType type) := by
    rw [BodyContext.resolveType, Linked.bodyContext_symbols, Linked.bodyContext_classId]
    exact .of_settled (SymbolTable.resolveType_looksUp id type) (hh.settled hid htype)
  refine ClassContext.checkBody_has (P := fun x => l.Tracks id x) ?_
    (fun _ _ _ _ => .of_ok (fun _ => rfl) (fun _ => ⟨_, rfl⟩))
  refine ⟨⟨?_, ?_, ?_, ?_, ?_, ?_, ?_, ?_⟩, ?_, ?_⟩
  · exact fun a => .pure a
  · exact fun hx hf => .bind hx hf
  · exact fun hrule hf => .rule hrule hf
  · exact fun he hwritten => htype (TypeDecl.exprType_mem he hwritten)
  · intro mark type args he
    rw [Linked.bodyContext_symbols, Linked.bodyContext_classId]
    have hsettled := hh.settled hid (TypeDecl.exprType_mem he rfl)
    exact .of_settled (SymbolTable.resolveRef_looksUp id type)
      (SymbolTable.LooksUp.settled_bind (SymbolTable.resolveRef_looksUp id type)
        (fun _ => .pure _) hsettled).1
  · intro mark path first _ _
    rw [Linked.bodyContext_symbols, Linked.bodyContext_classId]
    exact .firstName first mark.range
  · exact fun _ type => .of_ok (fun _ => rfl) (fun _ => ⟨_, rfl⟩)
  · exact fun _ _ => .of_ok (fun _ => rfl) (fun _ => ⟨_, rfl⟩)
  · exact fun hs => htype (TypeDecl.localType_mem hs)
  · exact fun var => .of_ok (fun _ => rfl) (fun _ => ⟨_, rfl⟩)

/-- A failure that is remembered of a name is about that name. -/
theorem ambiguousName?_failedAnswer (himports : l.symbols.checkImports id = .ok ())
    {lookups : LookupState} (hlookups : l.LateLookups h lookups) {name : Name} {v : Violation}
    (hv : lookups.failedAnswer? id name = some v) :
    v.ambiguousName? = some name ∧ ∃ range, v = l.symbols.ambiguity id name range := by
  obtain ⟨range, hanswer⟩ := hlookups.found id name _ (LookupState.failedAnswer?_eq_some.mp hv)
  obtain ⟨-, rfl⟩ := SymbolTable.findSimple_eq_error himports hanswer.symm
  exact ⟨rfl, range, rfl⟩

variable (hh : HasHierarchy program library l h) (hid : id < l.symbols.programSize)
include hh hid

/-- What is remembered of other types stays as it is. -/
theorem failedAnswer_other (owner : BodyOwner) {st : CheckState} (hst : l.LateLookups h st.lookups)
    {other : ClassId} (hne : other ≠ id) (name : Name) :
    ((l.classContext h id).checkBody owner st).2.lookups.failedAnswer? other name =
      st.lookups.failedAnswer? other name := by
  have htracks := hh.tracks_checkBody hid owner
  refine Option.ext (fun v => ?_)
  rw [LookupState.failedAnswer?_eq_some, LookupState.failedAnswer?_eq_some]
  constructor
  · intro hv
    exact (htracks.failed st hst.remembers _ v hv).resolve_right (fun h => hne h.1)
  · exact htracks.remembers st _ _

/-- An ambiguous name that ends the check of a body is remembered. -/
theorem failedAnswer_of_error (howner : owner ∈ (l.classContext h id).owners) {st : CheckState}
    (hst : l.LateLookups h st.lookups) {v : Violation}
    (hv : ((l.classContext h id).checkBody owner st).1 = .error v) {name : Name}
    (hname : v.ambiguousName? = some name) :
    ((l.classContext h id).checkBody owner st).2.lookups.failedAnswer? id name = some v := by
  obtain ⟨found, hfound⟩ := (hh.tracks_checkBody hid owner).ends st hst.remembers v hv
    (Violation.phase_of_ambiguousName? hname)
  rw [← LookupState.failedAnswer?_eq_some] at hfound
  have hsame := (ambiguousName?_failedAnswer (hh.checkImports hid)
    (hh.checkBody_lateNames hid howner st hst).1 hfound).1
  obtain rfl : found = name := Option.some.inj (hsame.symm.trans hname)
  exact hfound

/-- The check of a body remembers no other failure than the one that ends it. -/
theorem failedAnswer_checkBody (howner : owner ∈ (l.classContext h id).owners) {st : CheckState}
    (hst : l.LateLookups h st.lookups) (name : Name) :
    ((l.classContext h id).checkBody owner st).2.lookups.failedAnswer? id name =
      (st.lookups.failedAnswer? id name).or
        (match ((l.classContext h id).checkBody owner st).1 with
          | .ok () => none
          | .error v => if v.ambiguousName? = some name then some v else none) := by
  have htracks := hh.tracks_checkBody hid owner
  have hfailed (w : Violation)
      (hw : ((l.classContext h id).checkBody owner st).2.lookups.failedAnswer? id name = some w) :
      st.lookups.failedAnswer? id name = some w ∨
        ((l.classContext h id).checkBody owner st).1 = .error w ∧
          w.ambiguousName? = some name := by
    have hsame := (ambiguousName?_failedAnswer (hh.checkImports hid)
      (hh.checkBody_lateNames hid howner st hst).1 hw).1
    rw [LookupState.failedAnswer?_eq_some] at hw ⊢
    exact (htracks.failed st hst.remembers _ w hw).imp_right (fun h => ⟨h.2, hsame⟩)
  cases hbefore : st.lookups.failedAnswer? id name with
  | some w =>
    rw [LookupState.failedAnswer?_eq_some] at hbefore
    rw [LookupState.failedAnswer?_eq_some.mpr (htracks.remembers st _ _ hbefore)]
    rfl
  | none =>
    rw [hbefore] at hfailed
    rw [Option.none_or]
    cases hresult : ((l.classContext h id).checkBody owner st).1 with
    | ok _ =>
      refine Option.eq_none_iff_forall_ne_some.mpr (fun w hw => ?_)
      rcases hfailed w hw with hnone | ⟨herror, -⟩
      · cases hnone
      · rw [hresult] at herror
        cases herror
    | error v =>
      simp only
      split
      · rename_i hname
        exact hh.failedAnswer_of_error hid howner hst hresult hname
      · rename_i hname
        refine Option.eq_none_iff_forall_ne_some.mpr (fun w hw => ?_)
        rcases hfailed w hw with hnone | ⟨herror, hw⟩
        · cases hnone
        · rw [hresult] at herror
          cases herror
          exact hname hw

/-- A violation is reported under the name that it is about. -/
theorem ambiguousName?_recall {lookups : LookupState} (hlookups : l.LateLookups h lookups)
    (v : Violation) : (lookups.recall id v).ambiguousName? = v.ambiguousName? := by
  unfold LookupState.recall
  cases hname : v.ambiguousName? with
  | none => exact hname
  | some name =>
    simp only [Option.bind_some]
    cases hw : lookups.failedAnswer? id name with
    | none => exact hname
    | some w => exact (ambiguousName?_failedAnswer (hh.checkImports hid) hlookups hw).1

/-- What linking remembers of a name is what every check alone finds. -/
theorem violationAlone_eq (howner : owner ∈ (l.classContext h id).owners) {v w : Violation}
    (hv : l.violationAlone? h id owner = some v) {name : Name}
    (hname : v.ambiguousName? = some name) (hw : l.lookups.failedAnswer? id name = some w) :
    v = w := by
  unfold Linked.violationAlone? at hv
  split at hv
  · cases hv
  · rename_i found hresult
    cases hv
    have hlast := hh.failedAnswer_of_error hid howner hh.lateLookups hresult hname
    have hlater := (hh.tracks_checkBody hid owner).remembers { lookups := l.lookups } _ _
      (LookupState.failedAnswer?_eq_some.mp hw)
    rw [LookupState.failedAnswer?_eq_some.mpr hlater] at hlast
    exact (Option.some.inj hlast).symm

/-- An ambiguous name that a body has alone is the ambiguity of that name somewhere. -/
theorem violationAlone_eq_ambiguity (howner : owner ∈ (l.classContext h id).owners) {v : Violation}
    (hv : l.violationAlone? h id owner = some v) {name : Name}
    (hname : v.ambiguousName? = some name) : ∃ range, v = l.symbols.ambiguity id name range := by
  unfold Linked.violationAlone? at hv
  split at hv
  · cases hv
  · rename_i found hresult
    cases hv
    exact (ambiguousName?_failedAnswer (hh.checkImports hid)
      (hh.checkBody_lateNames hid howner _ hh.lateLookups).1
      (hh.failedAnswer_of_error hid howner hh.lateLookups hresult hname)).2

end HasHierarchy

/-! ## §5 Sequences of bodies -/

/-- What is remembered in a type after the checks of some bodies: the failures that
linking remembers, and the first one of each name among those that the bodies have
alone. -/
structure Linked.Remembered (l : Linked) (h : Hierarchy) (id : ClassId) (alone : List Violation)
    (lookups : LookupState) : Prop where
  late : l.LateLookups h lookups
  found : ∀ v ∈ alone, ∃ owner ∈ (l.classContext h id).owners,
    l.violationAlone? h id owner = some v
  failed : ∀ name, lookups.failedAnswer? id name = (l.lookups.failedAnswer? id name).or
    (alone.find? (fun v => v.ambiguousName? = some name))

namespace HasHierarchy

section Report

variable (hh : HasHierarchy program library l h) (hid : id < l.symbols.programSize)
include hh hid

/-- Then a violation is reported as the first one about its name. -/
theorem recall_eq_reportAmong {alone : List Violation} {lookups : LookupState}
    (hlookups : l.Remembered h id alone lookups) (howner : owner ∈ (l.classContext h id).owners)
    {v : Violation} (hv : l.violationAlone? h id owner = some v) (later : List Violation) :
    lookups.recall id v = v.reportAmong (alone ++ v :: later) := by
  unfold LookupState.recall Violation.reportAmong
  cases hname : v.ambiguousName? with
  | none => rfl
  | some name =>
    simp only [Option.bind_some]
    rw [hlookups.failed, List.find?_append, List.find?_cons_of_pos (by simpa using hname)]
    cases hw : l.lookups.failedAnswer? id name with
    | none =>
      rw [Option.none_or]
      cases alone.find? (fun v => v.ambiguousName? = some name) <;> rfl
    | some w =>
      obtain rfl := hh.violationAlone_eq hid howner hv hname hw
      cases hfirst : alone.find? (fun v => v.ambiguousName? = some name) with
      | none => rfl
      | some first =>
        obtain ⟨other, hother, hfound⟩ := hlookups.found first (List.mem_of_find?_eq_some hfirst)
        have hsame := List.find?_some hfirst
        exact (hh.violationAlone_eq hid hother hfound (by simpa using hsame) hw).symm

/-- The check of a body adds what the body violates alone to what is remembered. -/
theorem remembered_checkBody {alone : List Violation} {st : CheckState}
    (hst : l.Remembered h id alone st.lookups) (howner : owner ∈ (l.classContext h id).owners) :
    l.Remembered h id (alone ++ (l.violationAlone? h id owner).toList)
      ((l.classContext h id).checkBody owner st).2.lookups where
  late := (hh.checkBody_lateNames hid howner st hst.late).1
  found v hv := by
    rcases List.mem_append.mp hv with hv | hv
    · exact hst.found v hv
    · exact ⟨owner, howner, Option.mem_toList.mp hv⟩
  failed name := by
    rw [hh.failedAnswer_checkBody hid howner hst.late, hst.failed, List.find?_append,
      ← Option.or_assoc]
    rcases hh.checkBody_recalls hid hst.late owner with ⟨hok, halone⟩ | ⟨v, herror, halone⟩
    · rw [hok, halone]
      rfl
    · simp only [herror, halone, hh.ambiguousName?_recall hid hst.late, Option.toList_some,
        List.find?_singleton, decide_eq_true_eq]
      have hremembered := hst.failed name
      cases hfirst : (l.lookups.failedAnswer? id name).or
          (alone.find? (fun v => v.ambiguousName? = some name)) with
      | some w => rfl
      | none =>
        rw [hfirst] at hremembered
        split
        · rename_i hname
          simp [LookupState.recall, hname, hremembered]
        · rfl

/-- The checks of the bodies of a type report what each body violates alone. -/
theorem checkBodies_eq_alone {alone : List Violation} {owners : List BodyOwner}
    (howners : ∀ owner ∈ owners, owner ∈ (l.classContext h id).owners) {st : CheckState}
    (hst : l.Remembered h id alone st.lookups) :
    ((l.classContext h id).checkBodies true owners st).1 =
      (owners.filterMap (l.violationAlone? h id)).map
        (Violation.reportAmong (alone ++ owners.filterMap (l.violationAlone? h id))) := by
  induction owners generalizing alone st with
  | nil => rfl
  | cons owner owners ih =>
    obtain ⟨hfirst, hothers⟩ := List.forall_mem_cons.mp howners
    have hnext := hh.remembered_checkBody hid hst hfirst
    rcases hh.checkBody_recalls hid hst.late owner with ⟨hok, halone⟩ | ⟨v, herror, halone⟩
    · rw [List.filterMap_cons_none halone]
      rw [halone, Option.toList_none, List.append_nil] at hnext
      unfold ClassContext.checkBodies
      split
      · rename_i st₁ hrun
        rw [hrun] at hnext
        exact ih hothers hnext
      · rename_i hrun
        rw [hrun] at hok
        cases hok
    · rw [List.filterMap_cons_some halone, List.map_cons,
        ← hh.recall_eq_reportAmong hid hst hfirst halone]
      rw [halone, Option.toList_some] at hnext
      unfold ClassContext.checkBodies
      split
      · rename_i hrun
        rw [hrun] at herror
        cases herror
      · rename_i violation st₁ hrun
        rw [hrun] at hnext herror
        cases herror
        rw [if_pos rfl]
        simp only
        rw [ih hothers hnext, List.append_assoc, List.singleton_append]

/-- What is remembered of other types stays as it is. -/
theorem failedAnswer_checkBodies {owners : List BodyOwner}
    (howners : ∀ owner ∈ owners, owner ∈ (l.classContext h id).owners) {st : CheckState}
    (hst : l.LateLookups h st.lookups) {other : ClassId} (hne : other ≠ id) (name : Name) :
    ((l.classContext h id).checkBodies true owners st).2.lookups.failedAnswer? other name =
      st.lookups.failedAnswer? other name := by
  induction owners generalizing st with
  | nil => rfl
  | cons owner owners ih =>
    obtain ⟨hfirst, hothers⟩ := List.forall_mem_cons.mp howners
    have hsame := hh.failedAnswer_other hid owner hst hne name
    have hlate := (hh.checkBody_lateNames hid hfirst st hst).1
    unfold ClassContext.checkBodies
    split
    · rename_i st₁ hrun
      rw [hrun] at hsame hlate
      exact (ih hothers hlate).trans hsame
    · rename_i violation st₁ hrun
      rw [hrun] at hsame hlate
      exact (ih hothers hlate).trans hsame

end Report

theorem checkClasses_eq_alone (hh : HasHierarchy program library l h) {ids : List ClassId}
    (hids : ∀ id ∈ ids, id < l.symbols.programSize) (hnodup : ids.Nodup) {facts : ProgramFacts}
    (hfacts : l.LateLookups h facts.lookups)
    (hfailed : ∀ id ∈ ids, ∀ name,
      facts.lookups.failedAnswer? id name = l.lookups.failedAnswer? id name) :
    (l.checkClasses h true ids facts).1 = ids.flatMap (fun id =>
      (l.violationsAlone h id).map (Violation.reportAmong (l.violationsAlone h id))) := by
  induction ids generalizing facts with
  | nil => rfl
  | cons id ids ih =>
    obtain ⟨hfirst, hothers⟩ := List.forall_mem_cons.mp hids
    obtain ⟨hnew, hnodup⟩ := List.nodup_cons.mp hnodup
    obtain ⟨hfailedFirst, hfailedOthers⟩ := List.forall_mem_cons.mp hfailed
    have hst : l.Remembered h id []
        ({ lookups := facts.lookups, targets := facts.targets } : CheckState).lookups :=
      ⟨hfacts, nofun, fun name => by rw [hfailedFirst, List.find?_nil, Option.or_none]⟩
    have hbodies := hh.checkBodies_eq_alone hfirst (fun _ howner => howner) hst
    have hlate := (hh.checkBodies_lateNames hfirst true (fun _ howner => howner) hst.late).1
    rw [List.flatMap_cons, Linked.checkClasses]
    simp only [Bool.or_true, if_true]
    rw [ih hothers hnodup hlate (fun other hother name => ?_), hbodies]
    · rfl
    · have hne : other ≠ id := fun heq => hnew (heq ▸ hother)
      rw [← hfailedOthers other hother name]
      exact hh.failedAnswer_checkBodies hfirst (fun _ howner => howner) hst.late hne name

end HasHierarchy

end Bodies

end JoosStatics
