/-
JoosStatics.Proofs.Reordering.Bodies — the type checking stage in another
order.

A body is checked alike wherever its member stands: names denote
corresponding types, and what is remembered about them does not depend on the
bodies that came before (`pairedSteps`). Bodies come in another order, but each
of them passes at its turn, and its target is its own. So the stage succeeds
alike, and the targets it finds correspond (`exists_checkBodies`).
-/
import JoosStatics.Proofs.Bodies.Targets
import JoosStatics.Proofs.Renaming.Members
import JoosStatics.Proofs.Reordering.Hierarchy
import JoosStatics.Proofs.Reordering.Linking

namespace JoosStatics

/-! ## §1 Members -/

namespace TypeDecl.Reorders

variable {d d' : TypeDecl} {σ : Equiv.Perm Nat} (h : d.Reorders d')
include h

theorem initializerTree? (hσ : Rearranges σ d.fields d'.fields) (index : Nat) :
    d'.initializerTree? (σ index) = d.initializerTree? index := by
  unfold TypeDecl.initializerTree?
  rw [hσ.getElem?, h.bodies]

theorem methodTree? (hσ : Rearranges σ d.methods d'.methods) (index : Nat) :
    d'.methodTree? (σ index) = d.methodTree? index := by
  unfold TypeDecl.methodTree?
  rw [hσ.getElem?, h.bodies]

theorem constructorTree? (hσ : Rearranges σ d.constructors d'.constructors) (index : Nat) :
    d'.constructorTree? (σ index) = d.constructorTree? index := by
  unfold TypeDecl.constructorTree?
  rw [hσ.getElem?, h.bodies]

end TypeDecl.Reorders

/-- Where the member that a body belongs to stands in another order. -/
def Placement.owner (π : Placement) (id : ClassId) : BodyOwner → BodyOwner
  | .field index => .field (π.field id index)
  | .method index => .method (π.method id index)
  | .constructor index => .constructor (π.constructor id index)

theorem Placement.owner_injective (π : Placement) (id : ClassId) :
    Function.Injective (π.owner id) := by
  rintro (i | i | i) (j | j | j) h
  · exact congrArg _ ((π.field id).injective (BodyOwner.field.inj h))
  · cases h
  · cases h
  · cases h
  · exact congrArg _ ((π.method id).injective (BodyOwner.method.inj h))
  · cases h
  · cases h
  · cases h
  · exact congrArg _ ((π.constructor id).injective (BodyOwner.constructor.inj h))

/-- Corresponding programs that have been linked and have a hierarchy. -/
structure Linked.Reorders (π : Placement) (l l' : Linked) (h h' : Hierarchy) : Prop where
  places : l.symbols.Places π l'.symbols
  link : l.symbols.link = .ok l
  link' : l'.symbols.link = .ok l'
  members : h.Reorders π h'

namespace Linked.Reorders

variable {π : Placement} {l l' : Linked} {h h' : Hierarchy} {id : ClassId}

section Members

variable (r : l.Reorders π l' h h')
include r

theorem table : l.table.Reorders π l'.table := r.places.table r.link r.link'

/-- Corresponding types give the same account. -/
theorem classContext (id : ClassId) :
    (l.classContext h id).Renames π.renaming (l'.classContext h' (π.type id)) where
  table := r.table.renames
  lookup := r.places.reorders.lookup
  field? id name := (r.members id).field? name
  methodsNamed id name := (r.members id).methodsNamed name
  classId := rfl

/-- The members whose bodies are checked are the same ones, if in another order. -/
theorem owners (id : ClassId) : (l'.classContext h' (π.type id)).owners.Perm
    ((l.classContext h id).owners.map (π.owner id)) := by
  have hclass := r.table.classAt id
  have hfields := hclass.fields.range_perm.map BodyOwner.field
  have hmethods := hclass.methods.range_perm.map BodyOwner.method
  have hconstructors := hclass.constructors.range_perm.map BodyOwner.constructor
  simp only [ClassDef.rename, List.length_map, List.map_map] at hfields hmethods hconstructors
  unfold ClassContext.owners
  simp only [List.map_append, List.map_map]
  exact (hfields.append hmethods).append hconstructors

theorem mem_owners {owner : BodyOwner} :
    π.owner id owner ∈ (l'.classContext h' (π.type id)).owners ↔
      owner ∈ (l.classContext h id).owners := by
  rw [(r.owners id).mem_iff, List.mem_map_of_injective (π.owner_injective id)]

/-- A type with constructors whose bodies are checked is a class. -/
theorem isInterface_eq_false {index : Nat}
    (howner : .constructor index ∈ (l.classContext h id).owners) :
    (l.symbols.unitAt id).decl.isInterface = false := by
  have hindex : index < (l.table.classAt id).constructors.length :=
    ClassContext.constructor_mem_owners.mp howner
  have hid : id < l.symbols.size := by
    rw [← (SymbolTable.link_eq_ok r.places.reorders.indexed r.link).2.1]
    by_contra hout
    rw [TypeTable.classAt_of_size_le _ (Nat.le_of_not_lt hout)] at hindex
    cases hindex
  exact (Linked.constructor_declared r.link hid howner).1

/-- The constructors of a class stand where the placement says. -/
theorem constructors {index : Nat}
    (howner : .constructor index ∈ (l.classContext h id).owners) :
    Rearranges (π.constructor id) (l.symbols.unitAt id).decl.constructors
      (l'.symbols.unitAt (π.type id)).decl.constructors := by
  have hplaces := r.places.constructors id
  unfold TypeDecl.classConstructors at hplaces
  rwa [(r.places.reorders.unitAt id).decl.isInterface, r.isInterface_eq_false howner] at hplaces

/-- A member and the one that stands for it have the same body. -/
theorem owner {owner : BodyOwner} (howner : owner ∈ (l.classContext h id).owners) :
    owner.Renames π.renaming (l.classContext h id) (l'.classContext h' (π.type id))
      (π.owner id owner) := by
  have hdecl : (l.classContext h id).decl.Reorders (l'.classContext h' (π.type id)).decl :=
    (r.places.reorders.unitAt id).decl
  cases owner with
  | field index =>
    refine .field rfl ?_
    exact (hdecl.initializerTree? (r.places.fields id) index).trans (Expr.map_mapSpans_id _).symm
  | method index =>
    have hplaces := r.places.methods id
    refine .method rfl ((hdecl.methodTree? hplaces index).trans (Stmt.map_mapSpans_id _).symm) ?_
    refine Eq.trans ?_ (Param.map_mapSpans_id _).symm
    exact congrArg (Option.elim · [] MethodDecl.params) (hplaces.getElem? index)
  | constructor index =>
    have hplaces := r.constructors howner
    refine .constructor rfl
      ((hdecl.constructorTree? hplaces index).trans (Stmt.map_mapSpans_id _).symm) ?_
    refine Eq.trans ?_ (Param.map_mapSpans_id _).symm
    exact congrArg (Option.elim · [] ConstructorDecl.params) (hplaces.getElem? index)

end Members

/-! ## §2 One body -/

/-- Two states of checks of corresponding bodies: each remembers what a search finds,
and the targets of the given constructors correspond. -/
structure Abreast (π : Placement) (l l' : Linked) (refs : ConstructorRef → Prop)
    (st st' : CheckState) : Prop where
  recorded : l.symbols.Recorded st.lookups
  recorded' : l'.symbols.Recorded st'.lookups
  targets : ∀ ref, refs ref → st'.targets.find? (π.renaming.constructor ref) =
    (st.targets.find? ref).map π.renaming.constructor

section Steps

variable {refs : ConstructorRef → Prop} (r : l.Reorders π l' h h')
include r

/-- A lookup succeeds in both or in none of them. -/
theorem lookup {α α' : Type} {R : α → α' → Prop} {action : LookupM α} {action' : LookupM α'}
    {names : List QualifiedName} {value : α} {value' : α'}
    (hx : l.symbols.DenotesIn id action names value)
    (hx' : l'.symbols.DenotesIn (π.type id) action' names value')
    (hR : (∀ name ∈ names, l'.symbols.denotation (π.type id) name =
      π.type (l.symbols.denotation id name)) → R value value') :
    Simulates (Abreast π l l' refs) (fun _ _ => True) R (CheckM.lookup action)
      (CheckM.lookup action') := by
  intro st st' hI
  obtain ⟨hrecorded, houtcome⟩ := hx st.lookups hI.recorded
  obtain ⟨hrecorded', houtcome'⟩ := hx' st'.lookups hI.recorded'
  refine ⟨⟨hrecorded, hrecorded', hI.targets⟩, ?_⟩
  show Alike _ R (action st.lookups).1 (action' st'.lookups).1
  have hresolved (name : QualifiedName) :
      (l'.symbols.namedType? (π.type id) name).isSome = (l.symbols.namedType? id name).isSome := by
    rw [r.places.reorders.namedType?, Option.isSome_map]
  simp only [hresolved] at houtcome'
  rcases houtcome with ⟨hvalid, hok, -⟩ | ⟨hinvalid, v, herror⟩
  · rcases houtcome' with ⟨-, hok', -⟩ | ⟨hinvalid, -⟩
    · rw [hok, hok']
      exact .ok (hR (fun name hname => r.places.reorders.denotation (hvalid name hname)))
    · exact absurd hvalid hinvalid
  · rcases houtcome' with ⟨hvalid, -⟩ | ⟨-, v', herror'⟩
    · exact absurd hvalid hinvalid
    · rw [herror, herror']
      exact .error trivial

/-- The first identifier of a name denotes the same type, is no type or is ambiguous
in both. -/
theorem firstName (name : Name) (range range' : Span) :
    Simulates (Abreast π l l' refs) (fun _ _ => True)
      (fun found found' => found' = found.map π.type)
      (CheckM.lookup (l.symbols.lookupSimple id name range))
      (CheckM.lookup (l'.symbols.lookupSimple (π.type id) name range')) := by
  intro st st' hI
  have hrecorded := (SymbolTable.lookupSimple_recorded id name range hI.recorded).1
  have hrecorded' := (SymbolTable.lookupSimple_recorded (π.type id) name range' hI.recorded').1
  refine ⟨⟨hrecorded, hrecorded', hI.targets⟩, ?_⟩
  show Alike _ _ (l.symbols.lookupSimple id name range st.lookups).1
    (l'.symbols.lookupSimple (π.type id) name range' st'.lookups).1
  obtain ⟨place, hplace⟩ := hrecorded.found id name _ (l.symbols.lookupSimple_answer ..)
  obtain ⟨place', hplace'⟩ := hrecorded'.found (π.type id) name _
    (l'.symbols.lookupSimple_answer ..)
  rw [hplace, hplace']
  exact (r.places.reorders.findSimple id name place place').1

/-- The two checks of a body agree step by step. -/
theorem steps {owner : BodyOwner} (howner : owner ∈ (l.classContext h id).owners) :
    PairedSteps π.renaming (Abreast π l l' refs) (fun _ _ => True)
      ((l.classContext h id).bodyContext owner)
      ((l'.classContext h' (π.type id)).bodyContext (π.owner id owner))
      (· ∈ (l.classContext h id).decl.exprsOf owner)
      (· ∈ (l.classContext h id).decl.stmtsOf owner) := by
  have htype (type : TypeSyntax) :
      Simulates (Abreast π l l' refs) (fun _ _ => True) (SameType π.renaming)
        (((l.classContext h id).bodyContext owner).resolveType type)
        (((l'.classContext h' (π.type id)).bodyContext (π.owner id owner)).resolveType
          (type.mapSpans π.renaming.span)) := by
    rw [Placement.span_renaming, type.mapSpans_id, BodyContext.resolveType,
      BodyContext.resolveType, Linked.bodyContext_symbols, Linked.bodyContext_symbols,
      Linked.bodyContext_classId, Linked.bodyContext_classId]
    exact r.lookup (SymbolTable.resolveType_denotes id type)
      (SymbolTable.resolveType_denotes (π.type id) type)
      (fun hnames => TypeSyntax.typeIn_rename (ρ := π.renaming) hnames)
  constructor
  · exact (r.classContext id).bodyContext (r.owner howner)
  · exact fun _ _ => trivial
  · exact fun _ _ => htype _
  · intro mark type args _
    rw [Placement.span_renaming, type.mapSpan_id, Linked.bodyContext_symbols,
      Linked.bodyContext_symbols, Linked.bodyContext_classId, Linked.bodyContext_classId]
    exact r.lookup (SymbolTable.resolveRef_denotes id type)
      (SymbolTable.resolveRef_denotes (π.type id) type)
      (fun hnames => hnames _ (List.mem_singleton_self _))
  · exact fun _ => htype _
  · intro mark path first _ _
    rw [Linked.bodyContext_symbols, Linked.bodyContext_symbols, Linked.bodyContext_classId,
      Linked.bodyContext_classId]
    exact r.firstName first mark.range _
  · exact fun _ _ st st' hI => ⟨⟨hI.recorded, hI.recorded', hI.targets⟩, .ok rfl⟩
  · exact fun _ _ st st' hI => ⟨⟨hI.recorded, hI.recorded', hI.targets⟩, .ok trivial⟩
  · exact fun _ st st' hI => ⟨⟨hI.recorded, hI.recorded', hI.targets⟩, .ok trivial⟩

/-- A body passes in both or in none of them, and the targets that are recorded
correspond. -/
theorem checkBody {owner : BodyOwner} (howner : owner ∈ (l.classContext h id).owners) :
    Simulates (Abreast π l l' refs) (fun _ _ => True) (fun _ _ => True)
      ((l.classContext h id).checkBody owner)
      ((l'.classContext h' (π.type id)).checkBody (π.owner id owner)) := by
  refine (r.classContext id).checkBody_simulates (r.owner howner) (r.steps howner) ?_
  rintro index target - st st' hI
  refine ⟨⟨hI.recorded, hI.recorded', fun ref href => ?_⟩, .ok trivial⟩
  show (st'.targets.insert (π.renaming.constructor ⟨id, index⟩)
      (π.renaming.constructor target)).find? (π.renaming.constructor ref) =
    ((st.targets.insert ⟨id, index⟩ target).find? ref).map π.renaming.constructor
  simp only [OrderedMap.find?_insert, π.constructor_injective.eq_iff]
  split
  · rfl
  · exact hI.targets ref href

end Steps

/-! ## §3 The stage -/

section Stage

variable (r : l.Reorders π l' h h')
include r

/-- A body that passes at its turn passes whenever its turn comes in the other order. -/
theorem exists_checkBody {owner : BodyOwner} (howner : owner ∈ (l.classContext h id).owners)
    {targets : ConstructorTargets} (hpasses : (l.classContext h id).Passes targets owner)
    {st' : CheckState} (hst' : l'.symbols.Recorded st'.lookups) :
    ∃ after', (l'.classContext h' (π.type id)).checkBody (π.owner id owner) st' =
      (.ok (), after') := by
  obtain ⟨st, after, hst, hrun, -⟩ := hpasses
  have hbefore : Abreast π l l' (fun _ => False) st st' := ⟨hst, hst', fun _ h => h.elim⟩
  have hresult := (r.checkBody howner st st' hbefore).2
  rw [hrun] at hresult
  revert hresult
  rcases (l'.classContext h' (π.type id)).checkBody (π.owner id owner) st' with ⟨result, after'⟩
  intro hresult
  cases hresult
  exact ⟨after', rfl⟩

/-- A constructor has the same target, or none, in both orders. -/
theorem target_eq {index : Nat} (howner : .constructor index ∈ (l.classContext h id).owners)
    {targets targets' : ConstructorTargets}
    (hpasses : (l.classContext h id).Passes targets (.constructor index))
    (hpasses' : (l'.classContext h' (π.type id)).Passes targets'
      (π.owner id (.constructor index))) :
    targets'.find? (π.renaming.constructor ⟨id, index⟩) =
      (targets.find? ⟨id, index⟩).map π.renaming.constructor := by
  obtain ⟨st, after, hst, hrun, htarget⟩ := hpasses
  obtain ⟨st', after', hst', hrun', htarget'⟩ := hpasses'
  obtain ⟨hnone, hlast⟩ := htarget index rfl
  obtain ⟨hnone', hlast'⟩ := htarget' (π.constructor id index) rfl
  have hbefore : Abreast π l l' (fun ref => ref = ⟨id, index⟩) st st' := by
    refine ⟨hst, hst', fun ref href => ?_⟩
    subst href
    exact hnone'.trans (congrArg (Option.map π.renaming.constructor) hnone).symm
  have hafter := (r.checkBody howner st st' hbefore).1
  rw [hrun, hrun'] at hafter
  exact hlast'.trans ((hafter.targets _ rfl).trans
    (congrArg (Option.map π.renaming.constructor) hlast).symm)

/-- When the stage succeeds, it succeeds in another order, and with the same targets. -/
theorem exists_checkBodies {collectAll : Bool} {facts : ProgramFacts}
    (hfacts : l.checkBodies h collectAll = .ok facts) (collectAll' : Bool) :
    ∃ facts', l'.checkBodies h' collectAll' = .ok facts' ∧
      ∀ ref, facts'.targets.find? (π.renaming.constructor ref) =
        (facts.targets.find? ref).map π.renaming.constructor := by
  have hrecorded := (SymbolTable.link_lowers r.link).2.1
  have hrecorded' := (SymbolTable.link_lowers r.link').2.1
  obtain ⟨hpasses, hothers⟩ := checkBodies_passes hrecorded hfacts
  have hok : ∀ id' ∈ l'.symbols.programIds, ∀ owner' ∈ (l'.classContext h' id').owners, ∀ st,
      l'.symbols.Recorded st.lookups →
      ∃ st', (l'.classContext h' id').checkBody owner' st = (.ok (), st') := by
    intro id' hid' owner' howner' st hst
    obtain ⟨id, rfl⟩ := π.type.surjective id'
    obtain ⟨owner, howner, rfl⟩ := List.mem_map.mp ((r.owners id).mem_iff.mp howner')
    have hid := r.places.reorders.mem_programIds.mp hid'
    exact r.exists_checkBody howner (hpasses id hid owner howner) hst
  obtain ⟨facts', hfacts'⟩ := Linked.exists_checkBodies hrecorded' hok collectAll'
  obtain ⟨hpasses', hothers'⟩ := checkBodies_passes hrecorded' hfacts'
  refine ⟨facts', hfacts', fun ⟨id, index⟩ => ?_⟩
  by_cases hchecked : id ∈ l.symbols.programIds ∧
      .constructor index ∈ (l.classContext h id).owners
  · obtain ⟨hid, howner⟩ := hchecked
    have hid' := r.places.reorders.mem_programIds.mpr hid
    exact r.target_eq howner (hpasses id hid _ howner)
      (hpasses' _ hid' _ (r.mem_owners.mpr howner))
  · rw [hothers ⟨id, index⟩ (fun hid howner => hchecked ⟨hid, howner⟩)]
    refine hothers' _ (fun hid' howner' => hchecked ⟨?_, ?_⟩)
    · exact r.places.reorders.mem_programIds.mp hid'
    · exact r.mem_owners.mp howner'

end Stage

end Linked.Reorders

end JoosStatics
