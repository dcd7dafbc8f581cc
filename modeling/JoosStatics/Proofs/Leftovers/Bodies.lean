/-
JoosStatics.Proofs.Leftovers.Bodies — checking bodies beside leftovers.

Type checking and reachability walk from the members, so they see the same trees
whatever is left over. Only the answers that lookups remember may be more than
before. The two checks of a body go through the same steps, record the same facts
and find the same violations; reachability, which looks nothing up, finds the same
as well.
-/
import JoosStatics.Flow.Check
import JoosStatics.Proofs.Leftovers.Linking
import JoosStatics.Proofs.Renaming.Members

namespace JoosStatics

/-! ## §1 Bodies -/

/-- The later one of two states of a check is ahead in lookups, and has recorded the
same. -/
structure CheckState.Ahead (s : SymbolTable) (st later : CheckState) : Prop where
  lookups : s.Ahead st.lookups later.lookups
  facts : later.facts = st.facts
  targets : later.targets = st.targets

/-- Two steps of a check do the same from a state and from one ahead of it. -/
abbrev ChecksSame {α α' : Type} (s : SymbolTable) (R : α → α' → Prop) (x : CheckM α)
    (y : CheckM α') : Prop :=
  Simulates (CheckState.Ahead s) Eq R x y

theorem SymbolTable.FindsSame.lookup {α : Type} {s : SymbolTable} {x y : LookupM α}
    (h : s.FindsSame x y) : ChecksSame s Eq (CheckM.lookup x) (CheckM.lookup y) := by
  intro st later hst
  obtain ⟨hlookups, hresult⟩ := h st.lookups later.lookups hst.lookups
  exact ⟨⟨hlookups, hst.facts, hst.targets⟩, hresult⟩

/-- Where nothing is renamed, a resolution stays as it is. -/
theorem Resolution.eq_of_renames_identity {res res' : Resolution}
    (h : res.Renames (.identity Eq) res') : res' = res := by
  cases h with
  | localVar h => exact congrArg _ h.symm
  | _ => rfl

namespace Linked.Leaves

variable {leftovers : ClassId → BodyArena} {l l' : Linked} {h : Hierarchy} {id : ClassId}
  (hl : l.Leaves leftovers l')
include hl

theorem decl : (l'.classContext h id).decl =
    (l.classContext h id).decl.withLeftovers (leftovers id) := by
  show (l'.symbols.unitAt id).decl = _
  rw [hl.symbols, SymbolTable.unitAt_withLeftovers hl.bound]
  rfl

/-- The two accounts of a type agree in everything but leftovers. -/
theorem classContext : (l.classContext h id).Renames (.identity Eq) (l'.classContext h id) where
  table := by
    show l.table.Renames (.identity Eq) l'.table
    rw [hl.table]
    exact l.table.renames_refl Eq
  lookup name := by
    show l'.symbols.lookup name = _
    rw [hl.symbols]
    exact Option.map_id_apply.symm
  field? _ _ := Option.map_id_apply.symm
  methodsNamed _ _ := (List.map_id _) ▸ .refl _
  classId := rfl

variable (hwf : (l.classContext h id).decl.isWellFormed = true)
include hwf

theorem owner (owner : BodyOwner) : owner.Renames (.identity Eq) (l.classContext h id)
    (l'.classContext h id) owner := by
  cases owner with
  | field index =>
    refine .field rfl ?_
    rw [hl.decl, TypeDecl.initializerTree?_withLeftovers hwf]
    exact (Expr.map_mapSpans_id _).symm
  | method index =>
    refine .method rfl ?_ ?_
    · rw [hl.decl, TypeDecl.methodTree?_withLeftovers hwf]
      exact (Stmt.map_mapSpans_id _).symm
    · rw [hl.decl]
      exact (Param.map_mapSpans_id _).symm
  | constructor index =>
    refine .constructor rfl ?_ ?_
    · rw [hl.decl, TypeDecl.constructorTree?_withLeftovers hwf]
      exact (Stmt.map_mapSpans_id _).symm
    · rw [hl.decl]
      exact (Param.map_mapSpans_id _).symm

/-- The two checks of a member agree step by step. -/
theorem steps (owner : BodyOwner) :
    PairedSteps (.identity Eq) (CheckState.Ahead l.symbols) Eq
      ((l.classContext h id).bodyContext owner) ((l'.classContext h id).bodyContext owner)
      (· ∈ (l.classContext h id).decl.exprsOf owner)
      (· ∈ (l.classContext h id).decl.stmtsOf owner) := by
  have hlookups := SymbolTable.pairedLookups_withLeftovers hl.bound
  have htype (type : TypeSyntax) :
      ChecksSame l.symbols (SameType (.identity Eq))
        (((l.classContext h id).bodyContext owner).resolveType type)
        (((l'.classContext h id).bodyContext owner).resolveType
          (type.mapSpans (Renaming.identity Eq).span)) := by
    rw [Renaming.span_identity, BodyContext.resolveType, BodyContext.resolveType,
      Linked.bodyContext_symbols, Linked.bodyContext_symbols, hl.symbols, Linked.bodyContext_classId,
      Linked.bodyContext_classId]
    refine (SymbolTable.FindsSame.lookup (hlookups.resolveType id type)).mono
      (fun found _ heq => ?_)
    exact heq ▸ found.rename_id.symm
  constructor
  · exact hl.classContext.bodyContext (hl.owner hwf owner)
  · intro v _
    rw [Renaming.span_identity, v.mapSpan_id]
  · exact fun _ _ => htype _
  · intro mark type args _
    rw [Linked.bodyContext_symbols, Linked.bodyContext_symbols, hl.symbols, Linked.bodyContext_classId,
      Linked.bodyContext_classId, Renaming.span_identity]
    exact (SymbolTable.FindsSame.lookup (hlookups.resolveRef id type)).mono
      (fun _ _ heq => heq.symm)
  · exact fun _ => htype _
  · intro mark path first _ _
    rw [Linked.bodyContext_symbols, Linked.bodyContext_symbols, hl.symbols, Linked.bodyContext_classId,
      Linked.bodyContext_classId]
    refine (SymbolTable.FindsSame.lookup (hlookups.lookupSimple id first mark.range)).mono ?_
    exact fun _ _ heq => heq ▸ Option.map_id_apply.symm
  · intro e _ type st later hst
    rw [Renaming.type_identity, type.rename_id]
    refine ⟨⟨hst.lookups, ?_, hst.targets⟩, .ok type.rename_id.symm⟩
    simp [CheckM.recordType, hst.facts, mapSpan_id_mark]
  · intro e res res' _ hres st later hst
    obtain rfl := Resolution.eq_of_renames_identity hres
    refine ⟨⟨hst.lookups, ?_, hst.targets⟩, .ok trivial⟩
    simp [CheckM.recordResolution, hst.facts, mapSpan_id_mark]
  · intro var st later hst
    have hvar : var.rename (.identity Eq) = var := by
      simp [LocalVar.rename]
    rw [hvar]
    refine ⟨⟨hst.lookups, ?_, hst.targets⟩, .ok ?_⟩
    · simp [CheckM.recordLocal, hst.facts]
    · simp [hst.facts, Renaming.identity]

/-- The check of a body finds the same. -/
theorem checkBody (owner : BodyOwner) :
    ChecksSame l.symbols (fun _ _ => True) ((l.classContext h id).checkBody owner)
      ((l'.classContext h id).checkBody owner) := by
  refine hl.classContext.checkBody_simulates (hl.owner hwf owner) (hl.steps hwf owner) ?_
  intro index target _ st later hst
  refine ⟨⟨hst.lookups, hst.facts, ?_⟩, .ok trivial⟩
  show later.targets.insert ⟨id, index⟩ target = st.targets.insert ⟨id, index⟩ target
  rw [hst.targets]

end Linked.Leaves

/-! ## §2 The stages -/

/-- The results of type checking are the same, and have looked up no less. -/
structure ProgramFacts.Ahead (s : SymbolTable) (facts later : ProgramFacts) : Prop where
  classes : later.classes = facts.classes
  targets : later.targets = facts.targets
  lookups : s.Ahead facts.lookups later.lookups

namespace Linked.Leaves

variable {leftovers : ClassId → BodyArena} {l l' : Linked} {h : Hierarchy}
  (hl : l.Leaves leftovers l')
include hl

theorem owners (id : ClassId) :
    (l'.classContext h id).owners = (l.classContext h id).owners := by
  have htable : (l'.classContext h id).table = (l.classContext h id).table := hl.table
  unfold ClassContext.owners
  rw [htable]
  rfl

/-- The types of a program are checked alike whatever is left over in them. -/
theorem pairedChecks {ids : List ClassId}
    (hwf : ∀ id ∈ ids, (l.symbols.unitAt id).decl.isWellFormed = true) :
    PairedChecks (CheckState.Ahead l.symbols) Eq (ProgramFacts.Ahead l.symbols) l l' h ids where
  start _ _ hfacts := ⟨hfacts.lookups, rfl, hfacts.targets⟩
  finish id facts later st st' hfacts hst := by
    refine ⟨?_, hst.targets, hst.lookups⟩
    rw [hfacts.classes, hst.facts]
  owners id _ := hl.owners id
  body id hid owner := hl.checkBody (hwf id hid) owner

/-- Type checking finds the same violations, and else the same results. -/
theorem checkBodies (hwf : ∀ id ∈ l.symbols.programIds,
      (l.symbols.unitAt id).decl.isWellFormed = true) (collectAll : Bool) :
    Alike Eq (ProgramFacts.Ahead l.symbols) (l.checkBodies h collectAll)
      (l'.checkBodies h collectAll) := by
  have hids : l'.symbols.programIds = l.symbols.programIds := by
    rw [hl.symbols]
    rfl
  refine ((hl.pairedChecks hwf).checkBodies hids ⟨rfl, rfl, hl.lookups⟩ collectAll).mono
    (fun vs vs' hvs => ?_) (fun _ _ hfacts => hfacts)
  rwa [List.forall₂_eq_eq_eq] at hvs

theorem flowViolations {id : ClassId}
    (hwf : (l.classContext h id).decl.isWellFormed = true) :
    (l'.classContext h id).flowViolations = (l.classContext h id).flowViolations := by
  have htable : (l'.classContext h id).table = (l.classContext h id).table := hl.table
  have hclass : (l'.classContext h id).classId = (l.classContext h id).classId := rfl
  have hunreachable : (l'.classContext h id).unreachableAt =
      (l.classContext h id).unreachableAt := by
    funext member stmt
    unfold ClassContext.unreachableAt
    rw [htable, hclass]
  have hmethods : (l'.classContext h id).methodFlow = (l.classContext h id).methodFlow := by
    funext index
    unfold ClassContext.methodFlow
    rw [htable, hclass, hunreachable, hl.decl, TypeDecl.methodTree?_withLeftovers hwf]
  have hconstructors : (l'.classContext h id).constructorFlow =
      (l.classContext h id).constructorFlow := by
    funext index
    unfold ClassContext.constructorFlow
    rw [htable, hclass, hunreachable, hl.decl, TypeDecl.constructorTree?_withLeftovers hwf]
  unfold ClassContext.flowViolations
  rw [htable, hclass, hmethods, hconstructors]

/-- Reachability finds the same violations. -/
theorem checkFlow (hwf : ∀ id ∈ l.symbols.programIds,
      (l.symbols.unitAt id).decl.isWellFormed = true) {facts later : ProgramFacts}
    (hfacts : facts.Ahead l.symbols later) (collectAll : Bool) :
    l'.checkFlow h later collectAll = l.checkFlow h facts collectAll := by
  have hids : l'.symbols.programIds = l.symbols.programIds := by
    rw [hl.symbols]
    rfl
  have hfound : l'.symbols.programIds.flatMap (fun id =>
      (l'.classContext h id).flowViolations) =
      l.symbols.programIds.flatMap (fun id => (l.classContext h id).flowViolations) := by
    rw [hids]
    exact List.flatMap_congr (fun id hid => hl.flowViolations (hwf id hid))
  unfold Linked.checkFlow
  rw [flowOfClasses_eq, flowOfClasses_eq, hfound, hfacts.targets, hl.table]

end Linked.Leaves

end JoosStatics
