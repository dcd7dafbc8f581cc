/-
JoosStatics.Proofs.Places.Bodies — type checking with other spans.

The checks of two programs that differ in spans and files only go through
the same steps. They record the same facts, up to the places of variables,
and find the same violations, up to their places.
-/
import JoosStatics.Bodies.Check
import JoosStatics.Proofs.Places.Hierarchy
import JoosStatics.Proofs.Renaming.Members

namespace JoosStatics

variable (f : Span → Span)

/-! ## §1 Facts -/

/-- The same variable at another place. -/
def LocalVar.mapSpan (v : LocalVar) : LocalVar := { v with span := f v.span }

/-- The same facts, with variables at other places. -/
def ClassFacts.mapSpans (facts : ClassFacts) : ClassFacts :=
  { facts with locals := facts.locals.map (LocalVar.mapSpan f) }

/-- The same state with other spans. -/
def CheckState.mapSpans (st : CheckState) : CheckState :=
  { st with lookups := st.lookups.mapSpans f, facts := st.facts.mapSpans f }

/-- The same map with other values. -/
def OrderedMap.mapValues {κ ν ν' : Type} (g : ν → ν') (m : OrderedMap κ ν) : OrderedMap κ ν' :=
  ⟨m.entries.map (fun entry => (entry.1, g entry.2))⟩

theorem OrderedMap.mapValues_insert {κ ν ν' : Type} [Ord κ] (g : ν → ν') (m : OrderedMap κ ν)
    (key : κ) (value : ν) :
    (m.insert key value).mapValues g = (m.mapValues g).insert key (g value) := by
  unfold mapValues insert
  congr 1
  induction m.entries with
  | nil => rfl
  | cons entry rest ih =>
    rw [List.map_cons, insertIn, insertIn]
    split <;> simp [ih]

/-- The same results with other spans. -/
def ProgramFacts.mapSpans (facts : ProgramFacts) : ProgramFacts :=
  { facts with
    classes := facts.classes.mapValues (ClassFacts.mapSpans f)
    lookups := facts.lookups.mapSpans f }

/-! ## §2 Bodies -/

variable {f} (hf : f {} = {})
include hf

/-- Only places are renamed, so a resolution stays as it is. -/
theorem Resolution.eq_of_renames_places {res res' : Resolution}
    (h : res.Renames (.places f hf) res') : res' = res := by
  cases h with
  | localVar h => exact congrArg _ h.symm
  | _ => rfl

/-- Two types of programs that differ in spans and files only. -/
theorem Linked.classContext_renames (l : Linked) (h : Hierarchy) (id : ClassId) :
    (l.classContext h id).Renames (.places f hf) ((l.mapSpans f).classContext h id) where
  table := l.table.renames_mapSpans hf
  lookup _ := Option.map_id_apply.symm
  field? _ _ := Option.map_id_apply.symm
  methodsNamed _ _ := (List.map_id _) ▸ .refl _
  classId := rfl

variable {l : Linked} {h : Hierarchy} {id : ClassId}

theorem Linked.decl_mapSpans :
    ((l.mapSpans f).classContext h id).decl = (l.classContext h id).decl.mapSpans f := by
  show ((l.symbols.mapSpans f).unitAt id).decl = _
  rw [SymbolTable.unitAt_mapSpans hf]
  rfl

theorem Linked.owner_renames (owner : BodyOwner) :
    owner.Renames (.places f hf) (l.classContext h id) ((l.mapSpans f).classContext h id)
      owner := by
  cases owner with
  | field index =>
    refine .field rfl ?_
    rw [Linked.decl_mapSpans hf]
    exact TypeDecl.initializerTree?_mapSpans f _ index
  | method index =>
    refine .method rfl ?_ ?_
    · rw [Linked.decl_mapSpans hf]
      exact TypeDecl.methodTree?_mapSpans f _ index
    · rw [Linked.decl_mapSpans hf]
      exact TypeDecl.methodParams_mapSpans f _ index
  | constructor index =>
    refine .constructor rfl ?_ ?_
    · rw [Linked.decl_mapSpans hf]
      exact TypeDecl.constructorTree?_mapSpans f _ index
    · rw [Linked.decl_mapSpans hf]
      exact TypeDecl.constructorParams_mapSpans f _ index

omit hf in
/-- A lookup of a body check. -/
theorem LooksAlike.lookup {α α' : Type} {R : α → α' → Prop} {x : LookupM α} {x' : LookupM α'}
    (hx : LooksAlike f R x x') :
    Simulates (fun st st' => st' = CheckState.mapSpans f st) (fun v v' => v' = v.mapSpan f) R
      (CheckM.lookup x) (CheckM.lookup x') := by
  intro st st' hst
  subst hst
  obtain ⟨hlookups, hresult⟩ := hx st.lookups _ rfl
  refine ⟨?_, hresult⟩
  show ({ st.mapSpans f with lookups := (x' (st.lookups.mapSpans f)).2 } : CheckState) = _
  rw [hlookups]
  rfl

/-- The two checks of a member agree step by step. -/
theorem Linked.places_steps (owner : BodyOwner) :
    PairedSteps (.places f hf) (fun st st' => st' = CheckState.mapSpans f st)
      (fun v v' => v' = v.mapSpan f) ((l.classContext h id).bodyContext owner)
      (((l.mapSpans f).classContext h id).bodyContext owner)
      (· ∈ (l.classContext h id).decl.exprsOf owner)
      (· ∈ (l.classContext h id).decl.stmtsOf owner) := by
  have hlookups := l.symbols.pairedLookups_mapSpans hf
  have htype (type : TypeSyntax) :
      Simulates (fun st st' => st' = CheckState.mapSpans f st) (fun v v' => v' = v.mapSpan f)
        (SameType (.places f hf)) (((l.classContext h id).bodyContext owner).resolveType type)
        ((((l.mapSpans f).classContext h id).bodyContext owner).resolveType
          (type.mapSpans f)) := by
    rw [BodyContext.resolveType, BodyContext.resolveType, Linked.bodyContext_symbols,
      Linked.bodyContext_symbols, Linked.bodyContext_classId, Linked.bodyContext_classId]
    refine (LooksAlike.lookup (hlookups.resolveType id type)).mono (fun found _ heq => ?_)
    exact heq ▸ found.rename_id.symm
  constructor
  · exact (l.classContext_renames hf h id).bodyContext (Linked.owner_renames hf owner)
  · exact fun v _ => rfl
  · exact fun _ _ => htype _
  · intro mark type args _
    rw [Linked.bodyContext_symbols, Linked.bodyContext_symbols, Linked.bodyContext_classId,
      Linked.bodyContext_classId]
    exact (LooksAlike.lookup (hlookups.resolveRef id type)).mono (fun _ _ heq => heq.symm)
  · exact fun _ => htype _
  · intro mark path first _ _
    rw [Linked.bodyContext_symbols, Linked.bodyContext_symbols, Linked.bodyContext_classId,
      Linked.bodyContext_classId]
    refine (LooksAlike.lookup (hlookups.lookupSimple id first mark.range)).mono ?_
    exact fun _ _ heq => heq ▸ Option.map_id_apply.symm
  · rintro e _ type st _ rfl
    rw [Renaming.type_places, Ty.rename_id]
    exact ⟨rfl, .ok type.rename_id.symm⟩
  · rintro e res res' _ hres st _ rfl
    obtain rfl := Resolution.eq_of_renames_places hf hres
    exact ⟨rfl, .ok trivial⟩
  · rintro var st _ rfl
    have hvar : var.rename (.places f hf) = var.mapSpan f := by
      simp [LocalVar.rename, LocalVar.mapSpan]
    rw [hvar]
    refine ⟨?_, .ok ?_⟩
    · simp [CheckM.recordLocal, CheckState.mapSpans, ClassFacts.mapSpans]
    · exact (Array.size_map ..).symm

/-- The check of a body finds the same. -/
theorem Linked.checkBody_mapSpans (id : ClassId) (owner : BodyOwner) :
    Simulates (fun st st' => st' = CheckState.mapSpans f st) (fun v v' => v' = v.mapSpan f)
      (fun _ _ => True) ((l.classContext h id).checkBody owner)
      (((l.mapSpans f).classContext h id).checkBody owner) := by
  refine (l.classContext_renames hf h id).checkBody_simulates (Linked.owner_renames hf owner)
    (Linked.places_steps hf owner) ?_
  rintro index target - st _ rfl
  exact ⟨rfl, .ok trivial⟩

/-! ## §3 The stage -/

theorem Linked.owners_mapSpans :
    ((l.mapSpans f).classContext h id).owners = (l.classContext h id).owners := by
  show ClassContext.owners { symbols := _, table := l.table.mapSpans f, hierarchy := h
                             classId := id, decl := _ } = _
  unfold ClassContext.owners
  simp only [TypeTable.classAt_mapSpans hf, ClassDef.mapSpans, List.length_map]
  rfl

/-- The types of a program are checked alike with other spans. -/
theorem Linked.pairedChecks_mapSpans (l : Linked) (h : Hierarchy) (ids : List ClassId) :
    PairedChecks (fun st st' => st' = CheckState.mapSpans f st) (fun v v' => v' = v.mapSpan f)
      (fun facts facts' => facts' = facts.mapSpans f) l (l.mapSpans f) h ids where
  start := by
    rintro facts _ rfl
    simp [CheckState.mapSpans, ClassFacts.mapSpans, ProgramFacts.mapSpans]
  finish := by
    rintro id facts _ st _ rfl rfl
    simp only [ProgramFacts.mapSpans, OrderedMap.mapValues_insert]
    rfl
  owners _ _ := Linked.owners_mapSpans hf
  body id _ owner := Linked.checkBody_mapSpans hf id owner

/-- Type checking finds the same violations, and else the same results. -/
theorem Linked.checkBodies_mapSpans (l : Linked) (h : Hierarchy) (collectAll : Bool) :
    Alike (fun vs vs' => vs' = vs.map (Violation.mapSpan f))
      (fun facts facts' => facts' = facts.mapSpans f) (l.checkBodies h collectAll)
      ((l.mapSpans f).checkBodies h collectAll) := by
  refine ((l.pairedChecks_mapSpans hf h _).checkBodies rfl rfl collectAll).mono
    (fun vs vs' hvs => ?_) (fun _ _ hfacts => hfacts)
  rw [← List.forall₂_eq_eq_eq, List.forall₂_map_right_iff]
  exact hvs.flip

end JoosStatics
