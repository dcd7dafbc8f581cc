/-
JoosStatics.Proofs.Reordering.Flow — the reachability stage in another
order.

No part of the stage depends on the order: targets correspond, and bodies are
judged one by one.
-/
import JoosStatics.Proofs.Flow.Checked
import JoosStatics.Proofs.Reordering.Bodies

namespace JoosStatics

namespace Linked

variable {l l' : Linked} {h h' : Hierarchy} {id : ClassId}

namespace Reorders

variable {π : Placement} (r : l.Reorders π l' h h')
include r

/-- A method whose body passes passes wherever it stands. -/
theorem methodFlow {index : Nat} (hnone : (l.classContext h id).methodFlow index = none) :
    (l'.classContext h' (π.type id)).methodFlow (π.method id index) = none := by
  have htree : (l'.classContext h' (π.type id)).decl.methodTree? (π.method id index) =
      (l.classContext h id).decl.methodTree? index :=
    (r.places.reorders.unitAt id).decl.methodTree? (r.places.methods id) index
  have hmethod : l'.table.methodAt ⟨π.type id, π.method id index⟩ =
      (l.table.methodAt ⟨id, index⟩).rename π.renaming := r.table.renames.methodAt ⟨id, index⟩
  rw [ClassContext.methodFlow_eq_none] at hnone ⊢
  rw [htree]
  intro body hbody
  obtain ⟨c, hc, hvoid⟩ := hnone body hbody
  refine ⟨c, hc, fun hnormal => ?_⟩
  show (l'.table.methodAt ⟨π.type id, π.method id index⟩).returnType = .void
  rw [hmethod]
  exact Ty.rename_eq_void.mpr (hvoid hnormal)

theorem constructorFlow {index : Nat}
    (howner : .constructor index ∈ (l.classContext h id).owners)
    (hnone : (l.classContext h id).constructorFlow index = none) :
    (l'.classContext h' (π.type id)).constructorFlow (π.constructor id index) = none := by
  have htree : (l'.classContext h' (π.type id)).decl.constructorTree? (π.constructor id index) =
      (l.classContext h id).decl.constructorTree? index :=
    (r.places.reorders.unitAt id).decl.constructorTree? (r.constructors howner) index
  rw [ClassContext.constructorFlow_eq_none] at hnone ⊢
  rwa [htree]

theorem flowViolations (hnil : (l.classContext h id).flowViolations = []) :
    (l'.classContext h' (π.type id)).flowViolations = [] := by
  obtain ⟨hmethods, hconstructors⟩ := ClassContext.flowViolations_eq_nil.mp hnil
  refine ClassContext.flowViolations_eq_nil.mpr ⟨fun index' howner' => ?_, fun index' howner' => ?_⟩
  · obtain ⟨index, rfl⟩ := (π.method id).surjective index'
    have howner : .method index ∈ (l.classContext h id).owners := r.mem_owners.mp howner'
    exact r.methodFlow (hmethods index howner)
  · obtain ⟨index, rfl⟩ := (π.constructor id).surjective index'
    have howner : .constructor index ∈ (l.classContext h id).owners := r.mem_owners.mp howner'
    exact r.constructorFlow howner (hconstructors index howner)

/-- A stage that succeeds succeeds in another order. -/
theorem checkFlow {facts facts' : ProgramFacts} {collectAll : Bool}
    (htargets : ∀ ref, facts'.targets.find? (π.renaming.constructor ref) =
      (facts.targets.find? ref).map π.renaming.constructor)
    (hflow : l.checkFlow h facts collectAll = .ok ()) (collectAll' : Bool) :
    l'.checkFlow h' facts' collectAll' = .ok () := by
  obtain ⟨hacyclic, hnil⟩ := checkFlow_eq_ok.mp hflow
  let place := Equiv.ofBijective π.renaming.constructor
    ⟨π.constructor_injective, π.constructor_surjective⟩
  have hback (current' next' : ConstructorRef) (hstep : Invokes facts'.targets current' next') :
      Invokes facts.targets (place.symm current') (place.symm next') := by
    unfold Invokes at hstep ⊢
    rw [← place.apply_symm_apply current'] at hstep
    obtain ⟨next, hnext, rfl⟩ := Option.map_eq_some_iff.mp ((htargets _).symm.trans hstep)
    rw [hnext]
    exact congrArg some (place.symm_apply_apply next).symm
  refine checkFlow_eq_ok.mpr ⟨fun ref' hcycle => hacyclic _ (hcycle.lift place.symm hback),
    fun id' hid' => ?_⟩
  obtain ⟨id, rfl⟩ := π.type.surjective id'
  exact r.flowViolations (hnil id (r.places.reorders.mem_programIds.mp hid'))

end Reorders

end Linked

end JoosStatics
