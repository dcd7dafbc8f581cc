/-
JoosStatics.Proofs.Bodies.Checked — what the type checking stage promises.

The bodies of a type share its facts, and the bodies of the program share the
targets of `this(...)` invocations. What the check of one body finds out
outlives the checks of the others:

* `ClassContext.Checked` — every judged type is recorded, and every recorded
  invocation passes the throws clause of the member around it.
* `Linked.BodiesChecked` — this holds of all types of the program, and of the
  targets; `checkBodies_checked` says that the stage establishes it.
-/
import JoosStatics.Bodies.Check
import JoosStatics.Proofs.Bodies.Members

namespace JoosStatics

/-! ## §1 The bodies of one type -/

namespace ClassContext

variable {cls : ClassContext} {owner other : BodyOwner} {es : List (Expr Mark)}
  {Q : List Ty → Prop} {I : CheckState → Prop}

/-- What is judged in one body outlives the checks of the other bodies. -/
theorem outlives_recorded (hwf : cls.decl.isWellFormed = true) (hne : owner ≠ other)
    (hjudges : cls.Judges owner es Q) :
    cls.Outlives other (fun st => st.facts.Recorded es Q) where
  stable := stable_recorded (fun _ he hn =>
    TypeDecl.bodyIds_disjoint hwf hne (hjudges.id_mem he) hn)
  targets _ _ hrecorded := hrecorded

/-- What is recorded in a body passes its throws clause, whichever body is
checked. -/
theorem outlives_allowedAt (hwf : cls.decl.isWellFormed = true) (owner other : BodyOwner) :
    cls.Outlives other
      (fun st => st.facts.AllowedAt (cls.bodyContext owner) (cls.decl.bodyIds owner)) where
  stable := by
    apply stable_allowedAt
    by_cases heq : owner = other
    · subst heq
      exact Or.inl (fun _ hres => hres)
    · exact Or.inr (fun n hn hmem => TypeDecl.bodyIds_disjoint hwf heq hn hmem)
  targets _ _ hallowed := hallowed

/-- No member is listed twice. -/
theorem nodup_owners (cls : ClassContext) : cls.owners.Nodup := by
  unfold owners
  refine List.nodup_append.mpr ⟨List.nodup_append.mpr ⟨?_, ?_, ?_⟩, ?_, ?_⟩
  · exact List.nodup_range.map (fun _ _ => BodyOwner.field.inj)
  · exact List.nodup_range.map (fun _ _ => BodyOwner.method.inj)
  · rintro owner hfield _ hmethod rfl
    obtain ⟨_, -, rfl⟩ := List.mem_map.mp hfield
    simp at hmethod
  · exact List.nodup_range.map (fun _ _ => BodyOwner.constructor.inj)
  · rintro owner hothers _ hconstructor rfl
    obtain ⟨_, -, rfl⟩ := List.mem_map.mp hconstructor
    simp at hothers

/-- Bodies are checked without a violation when each of them is. -/
theorem checkBodies_cons_eq_nil {collectAll : Bool} {owners : List BodyOwner} {st st' : CheckState}
    (h : cls.checkBodies collectAll (owner :: owners) st = ([], st')) :
    ∃ st₁, cls.checkBody owner st = (.ok (), st₁) ∧
      cls.checkBodies collectAll owners st₁ = ([], st') := by
  unfold checkBodies at h
  split at h
  · rename_i st₁ hrun
    exact ⟨st₁, hrun, h⟩
  · split at h
    · cases h
    · cases h

theorem checkBodies_keeps {collectAll : Bool} {owners : List BodyOwner} {st st' : CheckState}
    (hI : ∀ owner ∈ owners, cls.Outlives owner I) (hst : I st)
    (hrun : cls.checkBodies collectAll owners st = ([], st')) : I st' := by
  induction owners generalizing st with
  | nil =>
    cases hrun
    exact hst
  | cons owner owners ih =>
    obtain ⟨st₁, hfirst, hrest⟩ := checkBodies_cons_eq_nil hrun
    have hkept := (checkBody_keeps (hI owner (List.mem_cons_self ..)) st () st₁ hst hfirst).1
    exact ih (fun other hother => hI other (List.mem_cons_of_mem _ hother)) hkept hrest

theorem checkBodies_judges {collectAll : Bool} {owners : List BodyOwner} {st st' : CheckState}
    (hwf : cls.decl.isWellFormed = true) (hdefaults : cls.DefaultsUnwritten)
    (hnodup : owners.Nodup) (hsub : owners ⊆ cls.owners)
    (hrun : cls.checkBodies collectAll owners st = ([], st')) (howner : owner ∈ owners)
    (hjudges : cls.Judges owner es Q) : st'.facts.Recorded es Q := by
  induction owners generalizing st with
  | nil => cases howner
  | cons first rest ih =>
    obtain ⟨hnew, hnodup⟩ := List.nodup_cons.mp hnodup
    obtain ⟨st₁, hfirst, hrest⟩ := checkBodies_cons_eq_nil hrun
    rcases List.mem_cons.mp howner with rfl | howner
    · have hrecorded := checkBody_judges (TypeDecl.bodyIds_nodup hwf owner) hdefaults
        (hsub (List.mem_cons_self ..)) hjudges st () st₁ hfirst
      have hkept : ∀ other ∈ rest, cls.Outlives other (fun st => st.facts.Recorded es Q) := by
        intro other hother
        refine outlives_recorded hwf ?_ hjudges
        rintro rfl
        exact hnew hother
      exact checkBodies_keeps hkept hrecorded hrest
    · exact ih hnodup (fun other hother => hsub (List.mem_cons_of_mem _ hother)) hrest howner

/-- What the check of a type promises about its facts. -/
structure Checked (cls : ClassContext) (facts : ClassFacts) : Prop where
  recorded : ∀ {owner es Q}, owner ∈ cls.owners → cls.Judges owner es Q → facts.Recorded es Q
  allowed : ∀ owner, facts.AllowedAt (cls.bodyContext owner) (cls.decl.bodyIds owner)

theorem checkBodies_checked {collectAll : Bool} {st st' : CheckState}
    (hwf : cls.decl.isWellFormed = true) (hdefaults : cls.DefaultsUnwritten)
    (hfacts : st.facts = {}) (hrun : cls.checkBodies collectAll cls.owners st = ([], st')) :
    cls.Checked st'.facts where
  recorded howner hjudges :=
    checkBodies_judges hwf hdefaults cls.nodup_owners (fun _ h => h) hrun howner hjudges
  allowed owner := by
    refine checkBodies_keeps (fun other _ => outlives_allowedAt hwf owner other) ?_ hrun
    intro n _ res hres
    rw [hfacts] at hres
    cases hres

end ClassContext

/-! ## §2 The types of the program -/

namespace Linked

variable {l : Linked} {h : Hierarchy}

/-- The target of a `this(...)` invocation passes the throws clause of the
constructor around it. -/
def TargetsAllowed (l : Linked) (h : Hierarchy) (targets : ConstructorTargets) : Prop :=
  ∀ constructor target, targets.find? constructor = some target →
    ((l.classContext h constructor.owner).bodyContext (.constructor constructor.index)).Allows
      (.constructor target)

theorem outlives_targets (id : ClassId) (owner : BodyOwner) :
    (l.classContext h id).Outlives owner (fun st => l.TargetsAllowed h st.targets) where
  stable := stable_targets _ _ (l.TargetsAllowed h)
  targets := by
    rintro st index target rfl hallows htargets constructor found hfound
    simp only [OrderedMap.find?_insert] at hfound
    split at hfound
    · rename_i heq
      cases hfound
      subst heq
      exact hallows
    · exact htargets constructor found hfound

/-- What the type checking stage promises. -/
structure BodiesChecked (l : Linked) (h : Hierarchy) (facts : ProgramFacts) : Prop where
  classes : ∀ id < l.symbols.programSize, (l.classContext h id).Checked (facts.classFacts id)
  targets : l.TargetsAllowed h facts.targets

/-- What is required of a type for its check to keep its promises. -/
def Checkable (l : Linked) (h : Hierarchy) (id : ClassId) : Prop :=
  (l.classContext h id).decl.isWellFormed = true ∧ (l.classContext h id).DefaultsUnwritten

theorem checkClasses_checked {collectAll : Bool} {ids : List ClassId} {facts facts' : ProgramFacts}
    (hids : ∀ id ∈ ids, l.Checkable h id) (hnodup : ids.Nodup)
    (htargets : l.TargetsAllowed h facts.targets)
    (hrun : l.checkClasses h collectAll ids facts = ([], facts')) :
    (∀ id ∈ ids, (l.classContext h id).Checked (facts'.classFacts id)) ∧
    (∀ id ∉ ids, facts'.classFacts id = facts.classFacts id) ∧
    l.TargetsAllowed h facts'.targets := by
  induction ids generalizing facts with
  | nil =>
    cases hrun
    exact ⟨by simp, fun _ _ => rfl, htargets⟩
  | cons id ids ih =>
    obtain ⟨hnew, hnodup⟩ := List.nodup_cons.mp hnodup
    unfold checkClasses at hrun
    rcases hclass : (l.classContext h id).checkBodies collectAll (l.classContext h id).owners
      { lookups := facts.lookups, targets := facts.targets } with ⟨violations, st⟩
    simp only [hclass] at hrun
    have hnil : violations = [] := by
      split at hrun
      · exact (List.append_eq_nil_iff.mp (congrArg Prod.fst hrun)).1
      · exact congrArg Prod.fst hrun
    subst hnil
    simp only [List.isEmpty_nil, Bool.true_or, if_true, List.nil_append] at hrun
    obtain ⟨hwf, hdefaults⟩ := hids id (List.mem_cons_self ..)
    have htargets' : l.TargetsAllowed h st.targets :=
      ClassContext.checkBodies_keeps (fun owner _ => outlives_targets id owner) htargets hclass
    obtain ⟨hclasses, hothers, hkept⟩ :=
      ih (fun other hother => hids other (List.mem_cons_of_mem _ hother)) hnodup htargets' hrun
    refine ⟨?_, ?_, hkept⟩
    · intro other hother
      rcases List.mem_cons.mp hother with rfl | hother
      · rw [hothers other hnew, ProgramFacts.classFacts, OrderedMap.find?_insert_self]
        exact ClassContext.checkBodies_checked hwf hdefaults rfl hclass
      · exact hclasses other hother
    · intro other hother
      obtain ⟨hne, hother⟩ := not_or.mp (fun hmem => hother (List.mem_cons.mpr hmem))
      rw [hothers other hother, ProgramFacts.classFacts, ProgramFacts.classFacts,
        OrderedMap.find?_insert_of_ne _ (Ne.symm hne)]

/-- The type checking stage keeps its promises. -/
theorem checkBodies_checked {collectAll : Bool} {facts : ProgramFacts}
    (hids : ∀ id < l.symbols.programSize, l.Checkable h id)
    (hrun : l.checkBodies h collectAll = .ok facts) : l.BodiesChecked h facts := by
  obtain ⟨hchecked, -, htargets⟩ := checkClasses_checked
    (fun id hid => hids id (List.mem_range.mp hid)) List.nodup_range
    (fun _ _ hfound => by cases hfound) (checkBodies_eq_ok.mp hrun)
  exact ⟨fun id hid => hchecked id (List.mem_range.mpr hid), htargets⟩

end Linked

end JoosStatics
