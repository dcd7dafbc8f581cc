/-
JoosStatics.Proofs.Linking.Alignment — signatures run parallel to
declarations.

The members of a signature are numbered, and the later stages look the
member of that number up in the declaration. `SymbolTable.ParallelTo` says
that it is there: default constructors apart, a signature has no member
without a declaration of its own (`link_parallelTo`).
-/
import JoosStatics.Proofs.Linking.Lowered

namespace JoosStatics

namespace SymbolTable

variable {s : SymbolTable}

/-- Every member of a signature, default constructors apart, has a declaration at
its position. -/
structure ParallelTo (s : SymbolTable) (id : ClassId) (d : ClassDef) : Prop where
  fields_length : d.fields.length = (s.unitAt id).decl.fields.length
  methods_length : d.methods.length = (s.unitAt id).decl.methods.length
  constructor_lt : ∀ index c, d.constructors[index]? = some c → c.isDefault = false →
    index < (s.unitAt id).decl.constructors.length

theorem lowerConstructors_parallel (s : SymbolTable) (id : ClassId) (decl : TypeDecl) :
    Ensures (fun _ => True) (s.lowerConstructors id decl) (fun cs =>
      ∀ index c, cs[index]? = some c → c.isDefault = false →
        index < decl.constructors.length) := by
  unfold lowerConstructors
  split
  · exact Ensures.pure (by simp)
  · split
    · refine Ensures.pure (fun index c hc hwritten => ?_)
      rw [List.mem_singleton.mp (List.mem_of_getElem? hc)] at hwritten
      cases hwritten
    · refine Ensures.mono (Ensures.mapM_length _ _) (fun cs hlength index c hc _ => ?_)
      exact hlength ▸ (List.getElem?_eq_some_iff.mp hc).1

theorem lowerUnit_parallel (s : SymbolTable) (id : ClassId) :
    Ensures (fun _ => True) (s.lowerUnit id) (s.ParallelTo id) := by
  refine Ensures.bind (Ensures.any _) (fun superclass _ => ?_)
  refine Ensures.bind (Ensures.any _) (fun interfaces _ => ?_)
  refine Ensures.bind (Ensures.mapM_length _ _) (fun fields hfields => ?_)
  refine Ensures.bind (Ensures.mapM_length _ _) (fun methods hmethods => ?_)
  refine Ensures.bind (s.lowerConstructors_parallel id _) (fun constructors hconstructors => ?_)
  refine Ensures.bind (Ensures.any _) (fun _ _ => ?_)
  exact Ensures.pure ⟨hfields, hmethods, hconstructors⟩

/-- The signatures of a linked program run parallel to its declarations. -/
theorem link_parallelTo {l : Linked} (h : s.link = .ok l) {id : ClassId} (hid : id < s.size) :
    s.ParallelTo id (l.table.classAt id) := by
  obtain ⟨-, hrun, -⟩ := link_run h
  obtain ⟨-, -, hparallel, -⟩ :=
    lowerAll_ensures (fun id _ => s.lowerUnit_parallel id) _ _ _ True.intro hrun
  exact hparallel id hid

end SymbolTable

end JoosStatics
