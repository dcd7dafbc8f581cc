/-
JoosStatics.Proofs.Typing.Establishing — what a check leaves behind for good.

A check records facts at the expressions it walks over, and later checks
record theirs elsewhere. So what a check has found out is to be stated of
all facts that keep what it recorded, not of the state in which it ends:
`Establishes s S x Q` says that a successful run of `x` records facts at the
slots `S` only, and that `Q` holds of its result and of all facts that
agree with its last state on `S`. The slots are distinct and blank at first,
so that facts at two parts of `S` do not get into each other's way
(`Establishes.bind`), and a slot that is never written stays blank
(`Establishes.append_blank`).
-/
import JoosStatics.Proofs.Bodies.Recording
import JoosStatics.Proofs.Typing.Judgement

namespace JoosStatics

/-! ## §1 Slots -/

/-- Where a fact about an expression is recorded. -/
inductive Slot where
  | type (id : ExprId)
  | resolution (id : ExprId)
  deriving DecidableEq

/-- The slots of an expression position. -/
def Slot.both (id : ExprId) : List Slot := [.resolution id, .type id]

theorem Slot.nodup_flatMap_both {ids : List ExprId} (h : ids.Nodup) :
    (ids.flatMap Slot.both).Nodup := by
  refine List.nodup_flatMap.mpr ⟨fun id _ => by simp [Slot.both], h.imp ?_⟩
  intro a b hne slot ha hb
  simp only [Slot.both, List.mem_cons, List.not_mem_nil, or_false] at ha hb
  rcases ha with rfl | rfl
  · rcases hb with hb | hb
    · exact hne (Slot.resolution.inj hb)
    · cases hb
  · rcases hb with hb | hb
    · cases hb
    · exact hne (Slot.type.inj hb)

namespace ClassFacts

/-- Nothing is recorded at a slot. -/
def IsBlank (facts : ClassFacts) : Slot → Prop
  | .type id => facts.types.find? id = none
  | .resolution id => facts.resolutions.find? id = none

/-- The same is recorded at a slot. -/
def AgreesAt (facts other : ClassFacts) : Slot → Prop
  | .type id => facts.types.find? id = other.types.find? id
  | .resolution id => facts.resolutions.find? id = other.resolutions.find? id

/-- Nothing is recorded to begin with. -/
theorem isBlank_empty (slot : Slot) : IsBlank {} slot := by
  cases slot <;> rfl

namespace AgreesAt

variable {facts other third : ClassFacts} {slot : Slot}

theorem refl (facts : ClassFacts) (slot : Slot) : facts.AgreesAt facts slot := by
  cases slot <;> rfl

theorem trans (h : facts.AgreesAt other slot) (h' : other.AgreesAt third slot) :
    facts.AgreesAt third slot := by
  cases slot with
  | type id => exact Eq.trans h h'
  | resolution id => exact Eq.trans h h'

theorem isBlank_iff (h : facts.AgreesAt other slot) : facts.IsBlank slot ↔ other.IsBlank slot := by
  cases slot with
  | type id => exact iff_of_eq (congrArg (· = none) h)
  | resolution id => exact iff_of_eq (congrArg (· = none) h)

end AgreesAt

/-- Later facts keep what earlier ones say at certain slots, and their variables. -/
structure Preserve (later earlier : ClassFacts) (slots : Slot → Prop) : Prop where
  slots : ∀ slot, slots slot → later.AgreesAt earlier slot
  locals : earlier.locals.toList <+: later.locals.toList

namespace Preserve

variable {first second third : ClassFacts} {slots : Slot → Prop}

theorem refl (facts : ClassFacts) (slots : Slot → Prop) : facts.Preserve facts slots :=
  ⟨fun slot _ => .refl facts slot, List.prefix_rfl⟩

theorem trans (h : third.Preserve second slots) (h' : second.Preserve first slots) :
    third.Preserve first slots where
  slots slot hslot := (h.slots slot hslot).trans (h'.slots slot hslot)
  locals := h'.locals.trans h.locals

theorem mono {fewer : Slot → Prop} (h : second.Preserve first slots)
    (hfewer : ∀ slot, fewer slot → slots slot) : second.Preserve first fewer :=
  ⟨fun slot hslot => h.slots slot (hfewer slot hslot), h.locals⟩

/-- A variable keeps its position. -/
theorem getElem? (h : second.Preserve first slots) {id : LocalId} {var : LocalVar}
    (hvar : first.locals[id]? = some var) : second.locals[id]? = some var := by
  rw [← Array.getElem?_toList] at hvar ⊢
  obtain ⟨rest, hrest⟩ := h.locals
  rw [← hrest, List.getElem?_append_left (List.getElem?_eq_some_iff.mp hvar).1]
  exact hvar

end Preserve

end ClassFacts

/-! ## §2 Checks -/

/-- A successful run records facts at given slots only, all of them blank before, and
what it finds out holds of all facts that keep what is recorded there. -/
def Establishes {α : Type} (s : SymbolTable) (S : List Slot) (x : CheckM α)
    (Q : ClassFacts → α → Prop) : Prop :=
  S.Nodup → ∀ st a st', s.Recorded st.lookups → (∀ slot ∈ S, st.facts.IsBlank slot) →
    x st = (.ok a, st') → s.Recorded st'.lookups ∧ st'.facts.Preserve st.facts (· ∉ S) ∧
    ∀ facts : ClassFacts, facts.Preserve st'.facts (· ∈ S) → Q facts a

namespace Establishes

variable {α β : Type} {s : SymbolTable} {S T : List Slot} {x : CheckM α} {f : α → CheckM β}
  {P : ClassFacts → α → Prop} {Q : ClassFacts → β → Prop}

/-- A step that leaves the facts alone. -/
theorem of_facts_eq {P : α → Prop} (hlookups : ∀ st a st', s.Recorded st.lookups →
      x st = (.ok a, st') → s.Recorded st'.lookups ∧ P a)
    (hfacts : ∀ st, (x st).2.facts = st.facts) : Establishes s [] x (fun _ a => P a) := by
  intro _ st a st' hst _ hrun
  obtain ⟨hst', ha⟩ := hlookups st a st' hst hrun
  have hsame : st'.facts = st.facts := by rw [← hfacts st, hrun]
  exact ⟨hst', hsame ▸ .refl _ _, fun _ _ => ha⟩

theorem pure (a : α) (h : ∀ facts, P facts a) : Establishes s [] (Pure.pure a) P := by
  intro _ st a' st' hst _ hrun
  cases hrun
  exact ⟨hst, .refl _ _, fun facts _ => h facts⟩

/-- What the first part finds out is still true after the second one. -/
theorem bind (hx : Establishes s S x P)
    (hf : ∀ a, Establishes s T (f a) (fun facts b => P facts a → Q facts b)) :
    Establishes s (S ++ T) (x >>= f) Q := by
  intro hnodup st b st' hst hblank hrun
  obtain ⟨hS, hT, hdisjoint⟩ := List.nodup_append.mp hnodup
  obtain ⟨a, st₁, hxrun, hfrun⟩ := run_bind_eq_ok.mp hrun
  obtain ⟨hst₁, hframe₁, hP⟩ := hx hS st a st₁ hst
    (fun slot hslot => hblank slot (List.mem_append_left _ hslot)) hxrun
  have hblank₁ : ∀ slot ∈ T, st₁.facts.IsBlank slot := by
    intro slot hslot
    have hnew : slot ∉ S := fun hmem => hdisjoint slot hmem slot hslot rfl
    exact (hframe₁.slots slot hnew).isBlank_iff.mpr
      (hblank slot (List.mem_append_right _ hslot))
  obtain ⟨hst', hframe₂, hQ⟩ := hf a hT st₁ b st' hst₁ hblank₁ hfrun
  refine ⟨hst', ?_, fun facts hfacts => ?_⟩
  · refine .trans (hframe₂.mono ?_) (hframe₁.mono ?_)
    · exact fun slot hslot hmem => hslot (List.mem_append_right _ hmem)
    · exact fun slot hslot hmem => hslot (List.mem_append_left _ hmem)
  · refine hQ facts (hfacts.mono (fun _ hslot => List.mem_append_right _ hslot)) (hP facts ?_)
    refine .trans (hfacts.mono (fun _ hslot => List.mem_append_left _ hslot)) (hframe₂.mono ?_)
    exact fun slot hslot hmem => hdisjoint slot hslot slot hmem rfl

/-- The last step only puts the result together. -/
theorem bind_pure {g : α → β} (hx : Establishes s S x P)
    (h : ∀ facts a, P facts a → Q facts (g a)) :
    Establishes s S (x >>= fun a => Pure.pure (g a)) Q := by
  rw [← List.append_nil S]
  exact hx.bind (fun a => .pure _ (fun facts => h facts a))

theorem mono {P' : ClassFacts → α → Prop} (hx : Establishes s S x P)
    (h : ∀ facts a, P facts a → P' facts a) : Establishes s S x P' := by
  intro hnodup st a st' hst hblank hrun
  obtain ⟨hst', hframe, hP⟩ := hx hnodup st a st' hst hblank hrun
  exact ⟨hst', hframe, fun facts hfacts => h facts a (hP facts hfacts)⟩

/-- The order of the slots does not matter. -/
theorem perm (hx : Establishes s S x P) (h : S.Perm T) : Establishes s T x P := by
  intro hnodup st a st' hst hblank hrun
  obtain ⟨hst', hframe, hP⟩ := hx (h.nodup_iff.mpr hnodup) st a st' hst
    (fun slot hslot => hblank slot (h.mem_iff.mp hslot)) hrun
  refine ⟨hst', hframe.mono (fun _ hslot hmem => hslot (h.mem_iff.mp hmem)), fun facts hfacts => ?_⟩
  exact hP facts (hfacts.mono (fun _ hslot => h.mem_iff.mp hslot))

/-- Checks one after the other. -/
theorem forM {γ : Type} {f : γ → CheckM PUnit} {slots : γ → List Slot} {R : ClassFacts → γ → Prop}
    {xs : List γ} (hf : ∀ x ∈ xs, Establishes s (slots x) (f x) (fun facts _ => R facts x)) :
    Establishes s (xs.flatMap slots) (xs.forM f) (fun facts _ => ∀ x ∈ xs, R facts x) := by
  induction xs with
  | nil => exact .pure _ (fun _ => List.forall_mem_nil _)
  | cons x xs ih =>
    obtain ⟨hfirst, hothers⟩ := List.forall_mem_cons.mp hf
    rw [List.flatMap_cons]
    exact hfirst.bind (fun _ => (ih hothers).mono (fun _ _ hrest hx =>
      List.forall_mem_cons.mpr ⟨hx, hrest⟩))

/-- A slot that is never written stays blank. -/
theorem append_blank (hx : Establishes s S x P) (T : List Slot) :
    Establishes s (S ++ T) x (fun facts a => P facts a ∧ ∀ slot ∈ T, facts.IsBlank slot) := by
  intro hnodup st a st' hst hblank hrun
  obtain ⟨hS, -, hdisjoint⟩ := List.nodup_append.mp hnodup
  obtain ⟨hst', hframe, hP⟩ := hx hS st a st' hst
    (fun slot hslot => hblank slot (List.mem_append_left _ hslot)) hrun
  refine ⟨hst', hframe.mono (fun _ hslot hmem => hslot (List.mem_append_left _ hmem)),
    fun facts hfacts => ⟨hP facts (hfacts.mono (fun _ hslot => List.mem_append_left _ hslot)), ?_⟩⟩
  intro slot hslot
  have hnew : slot ∉ S := fun hmem => hdisjoint slot hmem slot hslot rfl
  have hlast := (hfacts.slots slot (List.mem_append_right _ hslot)).trans (hframe.slots slot hnew)
  exact hlast.isBlank_iff.mpr (hblank slot (List.mem_append_right _ hslot))

/-! ## §3 Steps -/

/-- A rule that is kept. -/
theorem rule {result : Except Violation α} :
    Establishes s [] (CheckM.rule result) (fun _ a => result = .ok a) :=
  of_facts_eq (fun _ _ _ hst hrun => by cases hrun; exact ⟨hst, rfl⟩) (fun _ => rfl)

/-- A rule that is broken ends the check. -/
theorem rule_fails {ctx : BodyContext} {cause : Cause} {range : Span} :
    Establishes s S (CheckM.rule (ctx.broken cause range)) P := by
  intro _ st a st' _ _ hrun
  cases hrun

theorem rule_bind {result : Except Violation α}
    (hf : ∀ a, result = .ok a → Establishes s S (f a) Q) :
    Establishes s S (CheckM.rule result >>= f) Q := by
  intro hnodup st b st' hst hblank hrun
  obtain ⟨a, st₁, hrule, hfrun⟩ := run_bind_eq_ok.mp hrun
  obtain ⟨hok, rfl⟩ := Prod.mk.injEq .. ▸ hrule
  exact hf a hok hnodup _ b st' hst hblank hfrun

/-- A lookup answers what a search finds. -/
theorem lookup {action : LookupM α} {P : α → Prop} (h : Ensures s.Recorded action P) :
    Establishes s [] (CheckM.lookup action) (fun _ a => P a) := by
  refine of_facts_eq (fun st a st' hst hrun => ?_) (fun _ => rfl)
  unfold CheckM.lookup at hrun
  obtain ⟨hresult, rfl⟩ := Prod.mk.injEq .. ▸ hrun
  exact h st.lookups a _ hst (Prod.ext hresult rfl)

theorem lookup_bind {action : LookupM α} {P : α → Prop} (h : Ensures s.Recorded action P)
    (hf : ∀ a, P a → Establishes s S (f a) Q) :
    Establishes s S (CheckM.lookup action >>= f) Q := by
  intro hnodup st b st' hst hblank hrun
  obtain ⟨a, st₁, hlookup, hfrun⟩ := run_bind_eq_ok.mp hrun
  obtain ⟨hresult, rfl⟩ := Prod.mk.injEq .. ▸ hlookup
  obtain ⟨hst₁, hP⟩ := h st.lookups a _ hst (Prod.ext hresult rfl)
  exact hf a hP hnodup { st with lookups := (action st.lookups).2 } b st' hst₁ hblank hfrun

theorem recordType (mark : Mark) (type : Ty) :
    Establishes s [.type mark.id] (CheckM.recordType mark type)
      (fun facts a => a = type ∧ facts.types.find? mark.id = some type) := by
  intro _ st a st' hst _ hrun
  cases hrun
  refine ⟨hst, ⟨fun slot hslot => ?_, List.prefix_rfl⟩, fun facts hfacts => ⟨rfl, ?_⟩⟩
  · cases slot with
    | type id =>
      refine OrderedMap.find?_insert_of_ne _ ?_ _
      rintro rfl
      exact hslot (List.mem_singleton_self _)
    | resolution id => rfl
  · exact Eq.trans (hfacts.slots _ (List.mem_singleton_self _)) (OrderedMap.find?_insert_self _ _ _)

theorem recordResolution (mark : Mark) (resolution : Resolution) :
    Establishes s [.resolution mark.id] (CheckM.recordResolution mark resolution)
      (fun facts _ => facts.resolutions.find? mark.id = some resolution) := by
  intro _ st a st' hst _ hrun
  cases hrun
  refine ⟨hst, ⟨fun slot hslot => ?_, List.prefix_rfl⟩, fun facts hfacts => ?_⟩
  · cases slot with
    | type id => rfl
    | resolution id =>
      refine OrderedMap.find?_insert_of_ne _ ?_ _
      rintro rfl
      exact hslot (List.mem_singleton_self _)
  · exact Eq.trans (hfacts.slots _ (List.mem_singleton_self _)) (OrderedMap.find?_insert_self _ _ _)

/-- A variable is found at the position that is returned. -/
theorem recordLocal (var : LocalVar) :
    Establishes s [] (CheckM.recordLocal var)
      (fun facts id => facts.locals[id]? = some var) := by
  intro _ st id st' hst _ hrun
  cases hrun
  refine ⟨hst, ⟨fun slot _ => .refl _ slot, ?_⟩, fun facts hfacts => ?_⟩
  · rw [Array.toList_push]
    exact List.prefix_append ..
  · exact hfacts.getElem? Array.getElem?_push_size

/-- The targets of `this(...)` are not kept among the facts of a type. -/
theorem recordTarget (constructor target : ConstructorRef) :
    Establishes s [] (CheckM.recordTarget constructor target) (fun _ _ => True) := by
  refine of_facts_eq (P := fun _ => True) (fun st _ _ hst hrun => ?_) (fun _ => rfl)
  cases hrun
  exact ⟨hst, trivial⟩

/-- The type of an expression that refers to nothing is all that is recorded for it. -/
theorem recordType_alone (mark : Mark) (type : Ty) :
    Establishes s (Slot.both mark.id) (CheckM.recordType mark type)
      (fun facts a => a = type ∧ facts.Says mark (some type) none) := by
  refine mono (((recordType mark type).append_blank [.resolution mark.id]).perm
    (List.Perm.swap ..)) ?_
  rintro facts a ⟨⟨rfl, htype⟩, hblank⟩
  exact ⟨rfl, htype, hblank _ (List.mem_singleton_self _)⟩

end Establishes

end JoosStatics
