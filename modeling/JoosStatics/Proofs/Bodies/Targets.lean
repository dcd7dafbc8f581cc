/-
JoosStatics.Proofs.Bodies.Targets — bodies that pass one after the other.

The stage succeeds when every body passes in the state in which its turn
comes. All such states remember what a search finds (`keeps_recorded`), and the
target of a `this(...)` invocation is written by the body of one constructor
only, so the targets that are known in the end are those that the bodies
record (`checkBodies_passes`).
-/
import JoosStatics.Proofs.Bodies.Checked
import JoosStatics.Proofs.Linking.Signatures

namespace JoosStatics

/-! ## §1 The bodies of one type -/

namespace ClassContext

variable {cls : ClassContext} {owner : BodyOwner}

/-- What is remembered in a body is what a search finds. -/
theorem keeps_recorded (cls : ClassContext) (owner : BodyOwner) :
    Keeps (fun st => cls.symbols.Recorded st.lookups) (cls.checkBody owner) := by
  have hdenotes {α : Type} {id : ClassId} {action : LookupM α} {names : List QualifiedName}
      {value : α} (h : cls.symbols.DenotesIn id action names value) :
      Keeps (fun st => cls.symbols.Recorded st.lookups) (CheckM.lookup action) := by
    intro st a st' hst hrun
    obtain rfl : (CheckM.lookup action st).2 = st' := congrArg Prod.snd hrun
    exact ⟨(h st.lookups hst).1, trivial⟩
  have hstep {α : Type} {x : CheckM α} (h : ∀ st, (x st).2.lookups = st.lookups) :
      Keeps (fun st => cls.symbols.Recorded st.lookups) x := by
    intro st a st' hst hrun
    obtain rfl : (x st).2 = st' := congrArg Prod.snd hrun
    refine ⟨?_, trivial⟩
    show cls.symbols.Recorded (x st).2.lookups
    rw [h st]
    exact hst
  refine checkBody_has (P := fun x => Keeps (fun st => cls.symbols.Recorded st.lookups) x) ?_
    (fun _ _ _ _ => hstep (fun _ => rfl))
  refine ⟨⟨?_, ?_, ?_, ?_, ?_, ?_, ?_, ?_⟩, ?_, ?_⟩
  · exact fun _ => .pure
  · exact fun hx hf => .bind hx hf
  · rintro _ _ (_ | a) _ _ hf
    · intro st b st' _ hrun
      cases hrun
    · exact hf a rfl
  · intro e type _ _
    rw [BodyContext.resolveType, toClassContext_bodyContext]
    exact hdenotes (SymbolTable.resolveType_denotes _ type)
  · intro mark type args _
    rw [toClassContext_bodyContext]
    exact hdenotes (SymbolTable.resolveRef_denotes _ type)
  · intro mark path first _ _ st a st' hst hrun
    rw [toClassContext_bodyContext] at hrun
    obtain rfl := congrArg Prod.snd hrun
    exact ⟨(SymbolTable.lookupSimple_recorded _ first mark.range hst).1, trivial⟩
  · exact fun _ _ => hstep (fun _ => rfl)
  · exact fun _ _ => hstep (fun _ => rfl)
  · intro mark type name initializer _
    rw [BodyContext.resolveType, toClassContext_bodyContext]
    exact hdenotes (SymbolTable.resolveType_denotes _ type)
  · exact fun _ => hstep (fun _ => rfl)

/-- The target of a constructor outlives the checks of all other bodies. -/
theorem outlives_target {ref : ConstructorRef}
    (hne : ∀ index, owner = .constructor index → ⟨cls.classId, index⟩ ≠ ref)
    (target : Option ConstructorRef) :
    cls.Outlives owner (fun st => st.targets.find? ref = target) where
  stable := stable_targets _ _ (fun targets => targets.find? ref = target)
  targets := by
    intro st index new howner _ htarget
    rw [OrderedMap.find?_insert_of_ne _ (hne index howner)]
    exact htarget

/-- A body passes when its turn comes; if it is that of a constructor, it records the
target that is known in the end. -/
def Passes (cls : ClassContext) (targets : ConstructorTargets) (owner : BodyOwner) : Prop :=
  ∃ st st', cls.symbols.Recorded st.lookups ∧ cls.checkBody owner st = (.ok (), st') ∧
    ∀ index, owner = .constructor index → st.targets.find? ⟨cls.classId, index⟩ = none ∧
      targets.find? ⟨cls.classId, index⟩ = st'.targets.find? ⟨cls.classId, index⟩

theorem checkBodies_passes {collectAll : Bool} {owners : List BodyOwner} {st st' : CheckState}
    (hnodup : owners.Nodup) (hst : cls.symbols.Recorded st.lookups)
    (hnone : ∀ index, .constructor index ∈ owners → st.targets.find? ⟨cls.classId, index⟩ = none)
    (hrun : cls.checkBodies collectAll owners st = ([], st')) :
    cls.symbols.Recorded st'.lookups ∧ (∀ owner ∈ owners, cls.Passes st'.targets owner) ∧
    ∀ ref, (∀ index, .constructor index ∈ owners → ⟨cls.classId, index⟩ ≠ ref) →
      st'.targets.find? ref = st.targets.find? ref := by
  induction owners generalizing st with
  | nil =>
    cases hrun
    exact ⟨hst, nofun, fun _ _ => rfl⟩
  | cons owner owners ih =>
    obtain ⟨hnew, hnodup⟩ := List.nodup_cons.mp hnodup
    obtain ⟨st₁, hfirst, hrest⟩ := checkBodies_cons_eq_nil hrun
    have hkept {ref : ConstructorRef}
        (hne : ∀ index, owner = .constructor index → ⟨cls.classId, index⟩ ≠ ref) :
        st₁.targets.find? ref = st.targets.find? ref :=
      (checkBody_keeps (outlives_target hne _) st () st₁ rfl hfirst).1
    have hother {index : Nat} (hmem : .constructor index ∈ owners) (other : Nat)
        (howner : owner = .constructor other) :
        (⟨cls.classId, other⟩ : ConstructorRef) ≠ ⟨cls.classId, index⟩ := by
      intro heq
      obtain rfl := (ConstructorRef.mk.inj heq).2
      exact hnew (howner ▸ hmem)
    obtain ⟨hst', hpasses, hothers⟩ := ih hnodup
      (keeps_recorded cls owner st () st₁ hst hfirst).1 (fun index hmem => by
        rw [hkept (hother hmem)]
        exact hnone index (List.mem_cons_of_mem _ hmem)) hrest
    refine ⟨hst', List.forall_mem_cons.mpr ⟨⟨st, st₁, hst, hfirst, ?_⟩, hpasses⟩,
      fun ref hne => ?_⟩
    · rintro index rfl
      refine ⟨hnone index (List.mem_cons_self ..), hothers _ (fun other hmem heq => ?_)⟩
      obtain rfl := (ConstructorRef.mk.inj heq).2
      exact hnew hmem
    · rw [hothers ref (fun index hmem => hne index (List.mem_cons_of_mem _ hmem))]
      exact hkept (fun index howner => hne index (howner ▸ List.mem_cons_self ..))

/-- Bodies that pass whenever their turn comes pass one after the other. -/
theorem exists_checkBodies {collectAll : Bool} {owners : List BodyOwner} {st : CheckState}
    (hst : cls.symbols.Recorded st.lookups)
    (hok : ∀ owner ∈ owners, ∀ st, cls.symbols.Recorded st.lookups →
      ∃ st', cls.checkBody owner st = (.ok (), st')) :
    ∃ st', cls.checkBodies collectAll owners st = ([], st') ∧
      cls.symbols.Recorded st'.lookups := by
  induction owners generalizing st with
  | nil => exact ⟨st, rfl, hst⟩
  | cons owner owners ih =>
    obtain ⟨hfirst, hothers⟩ := List.forall_mem_cons.mp hok
    obtain ⟨st₁, hrun⟩ := hfirst st hst
    obtain ⟨st', hrest, hst'⟩ := ih (keeps_recorded cls owner st () st₁ hst hrun).1 hothers
    refine ⟨st', ?_, hst'⟩
    unfold checkBodies
    rw [hrun]
    exact hrest

end ClassContext

/-! ## §2 The types of the program -/

namespace Linked

variable {l : Linked} {h : Hierarchy}

/-- The constructors whose bodies are checked are those of classes: the declared ones, or
the default one. -/
theorem constructor_declared (hlink : l.symbols.link = .ok l) {id : ClassId}
    (hid : id < l.symbols.size) {index : Nat}
    (howner : .constructor index ∈ (l.classContext h id).owners) :
    (l.symbols.unitAt id).decl.isInterface = false ∧
      ((l.symbols.unitAt id).decl.constructors.isEmpty = true ∨
        index < (l.symbols.unitAt id).decl.constructors.length) := by
  have hindex : index < (l.table.classAt id).constructors.length :=
    ClassContext.constructor_mem_owners.mp howner
  rw [SymbolTable.link_classAt hlink hid] at hindex
  change index < (TypeDecl.constructorSignatures _ _).length at hindex
  unfold TypeDecl.constructorSignatures at hindex
  split at hindex
  · cases hindex
  · rename_i hclass
    refine ⟨Bool.eq_false_iff.mpr hclass, ?_⟩
    split at hindex
    · rename_i hempty
      exact .inl hempty
    · rw [List.length_map] at hindex
      exact .inr hindex

/-- One type is checked without a violation, then the others. -/
theorem checkClasses_cons_eq_nil {collectAll : Bool} {id : ClassId} {ids : List ClassId}
    {facts facts' : ProgramFacts} :
    l.checkClasses h collectAll (id :: ids) facts = ([], facts') ↔
      ∃ st, (l.classContext h id).checkBodies collectAll (l.classContext h id).owners
          { lookups := facts.lookups, targets := facts.targets } = ([], st) ∧
        l.checkClasses h collectAll ids
          { classes := facts.classes.insert id st.facts
            targets := st.targets
            lookups := st.lookups } = ([], facts') := by
  rw [checkClasses]
  rcases (l.classContext h id).checkBodies collectAll (l.classContext h id).owners
    { lookups := facts.lookups, targets := facts.targets } with ⟨violations, st⟩
  cases violations with
  | nil =>
    simp only [List.isEmpty_nil, Bool.true_or, if_true, List.nil_append]
    constructor
    · exact fun hrun => ⟨st, rfl, hrun⟩
    · rintro ⟨st', heq, hrun⟩
      cases heq
      exact hrun
  | cons violation violations =>
    constructor
    · intro hrun
      cases collectAll with
      | false => cases congrArg Prod.fst hrun
      | true => cases congrArg Prod.fst hrun
    · rintro ⟨_, heq, -⟩
      cases heq

theorem checkClasses_passes {collectAll : Bool} {ids : List ClassId} {facts facts' : ProgramFacts}
    (hnodup : ids.Nodup) (hfacts : l.symbols.Recorded facts.lookups)
    (hnone : ∀ ref, ref.owner ∈ ids → facts.targets.find? ref = none)
    (hrun : l.checkClasses h collectAll ids facts = ([], facts')) :
    (∀ id ∈ ids, ∀ owner ∈ (l.classContext h id).owners,
      (l.classContext h id).Passes facts'.targets owner) ∧
    ∀ ref, (ref.owner ∈ ids → .constructor ref.index ∉ (l.classContext h ref.owner).owners) →
      facts'.targets.find? ref = facts.targets.find? ref := by
  induction ids generalizing facts with
  | nil =>
    cases hrun
    exact ⟨nofun, fun _ _ => rfl⟩
  | cons id ids ih =>
    obtain ⟨hnew, hnodup⟩ := List.nodup_cons.mp hnodup
    obtain ⟨st, hclass, hrest⟩ := checkClasses_cons_eq_nil.mp hrun
    obtain ⟨hst, hpasses, hkept⟩ := ClassContext.checkBodies_passes
      (l.classContext h id).nodup_owners hfacts
      (fun index _ => hnone ⟨id, index⟩ (List.mem_cons_self ..)) hclass
    have hothers {ref : ConstructorRef} (href : ref.owner ≠ id) :
        st.targets.find? ref = facts.targets.find? ref :=
      hkept ref (fun index _ heq => href (heq ▸ rfl))
    have hunknown (ref : ConstructorRef) (hmem : ref.owner ∈ ids) :
        st.targets.find? ref = none := by
      rw [hothers (fun heq => hnew (heq ▸ hmem))]
      exact hnone ref (List.mem_cons_of_mem _ hmem)
    have hafter := by
      refine ih hnodup ?_ ?_ hrest
      · exact hst
      · exact hunknown
    refine ⟨List.forall_mem_cons.mpr ⟨fun owner howner => ?_, hafter.1⟩, fun ref href => ?_⟩
    · obtain ⟨before, after, hbefore, hbody, htarget⟩ := hpasses owner howner
      refine ⟨before, after, hbefore, hbody, fun index heq => ?_⟩
      obtain ⟨hfirst, hlast⟩ := htarget index heq
      exact ⟨hfirst, (hafter.2 ⟨id, index⟩ (fun hmem => absurd hmem hnew)).trans hlast⟩
    · rw [hafter.2 ref (fun hmem => href (List.mem_cons_of_mem _ hmem))]
      refine hkept ref (fun index hmem heq => ?_)
      subst heq
      exact href (List.mem_cons_self ..) hmem

/-- When the stage succeeds, every body has passed, and no other targets are known than
those that the bodies of constructors record. -/
theorem checkBodies_passes {collectAll : Bool} {facts : ProgramFacts}
    (hl : l.symbols.Recorded l.lookups) (hrun : l.checkBodies h collectAll = .ok facts) :
    (∀ id ∈ l.symbols.programIds, ∀ owner ∈ (l.classContext h id).owners,
      (l.classContext h id).Passes facts.targets owner) ∧
    ∀ ref, (ref.owner ∈ l.symbols.programIds →
        .constructor ref.index ∉ (l.classContext h ref.owner).owners) →
      facts.targets.find? ref = none :=
  checkClasses_passes List.nodup_range hl (fun _ _ => rfl) (checkBodies_eq_ok.mp hrun)

/-- The stage succeeds when every body passes whenever its turn comes. -/
theorem exists_checkBodies (hl : l.symbols.Recorded l.lookups)
    (hok : ∀ id ∈ l.symbols.programIds, ∀ owner ∈ (l.classContext h id).owners, ∀ st,
      l.symbols.Recorded st.lookups →
      ∃ st', (l.classContext h id).checkBody owner st = (.ok (), st')) (collectAll : Bool) :
    ∃ facts, l.checkBodies h collectAll = .ok facts := by
  have hclasses (ids : List ClassId) (hids : ∀ id ∈ ids, id ∈ l.symbols.programIds)
      (facts : ProgramFacts) (hfacts : l.symbols.Recorded facts.lookups) :
      ∃ facts', l.checkClasses h collectAll ids facts = ([], facts') := by
    induction ids generalizing facts with
    | nil => exact ⟨facts, rfl⟩
    | cons id ids ih =>
      obtain ⟨hfirst, hothers⟩ := List.forall_mem_cons.mp hids
      have hclass : ∃ st, (l.classContext h id).checkBodies collectAll
          (l.classContext h id).owners
          { lookups := facts.lookups, targets := facts.targets } = ([], st) ∧
          l.symbols.Recorded st.lookups :=
        ClassContext.exists_checkBodies hfacts (hok id hfirst)
      obtain ⟨st, hbodies, hst⟩ := hclass
      obtain ⟨facts', hrest⟩ := ih hothers
        { classes := facts.classes.insert id st.facts
          targets := st.targets
          lookups := st.lookups } hst
      exact ⟨facts', checkClasses_cons_eq_nil.mpr ⟨st, hbodies, hrest⟩⟩
  obtain ⟨facts, hfacts⟩ := hclasses l.symbols.programIds (fun _ hid => hid)
    { lookups := l.lookups } hl
  exact ⟨facts, checkBodies_eq_ok.mpr hfacts⟩

end Linked

end JoosStatics
