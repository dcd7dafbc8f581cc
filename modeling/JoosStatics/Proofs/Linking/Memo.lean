/-
JoosStatics.Proofs.Linking.Memo — what is resolved once stays resolved.

Lookups remember their answers and never forget one. So a resolution that
has succeeded succeeds again later on, with the same result, and changes
nothing any more: it is `Settled`.

* `SymbolTable.LooksUp` — computations that do no more than look names up.
* `link_settled` — once a program is linked, the types that are written in
  its bodies are settled.
* `link_answersFound` — what is remembered then is what a search finds.
-/
import JoosStatics.Proofs.Linking.Lowered

namespace JoosStatics

/-! ## §1 States that remember -/

/-- A state remembers every answer of an earlier one. -/
def LookupState.Extends (later earlier : LookupState) : Prop :=
  ∀ key answer, earlier.answers.lookup key = some answer → later.answers.lookup key = some answer

namespace LookupState.Extends

variable {a b c : LookupState}

theorem refl (a : LookupState) : a.Extends a := fun _ _ h => h

theorem trans (hab : a.Extends b) (hbc : b.Extends c) : a.Extends c :=
  fun key answer h => hab key answer (hbc key answer h)

end LookupState.Extends

/-- A computation succeeds without a change, in this state and in every later
one, always with the same result. -/
def Settled {α : Type} (x : LookupM α) (st : LookupState) : Prop :=
  ∃ a, ∀ later : LookupState, later.Extends st → x later = (.ok a, later)

namespace SymbolTable

variable {s : SymbolTable} {α β : Type}

/-- What is remembered is what a search finds. -/
def AnswersFound (s : SymbolTable) (st : LookupState) : Prop :=
  ∀ ctx name answer, st.answers.lookup (ctx, name) = some answer →
    ∃ range, answer = (s.findSimple ctx name range).1

theorem answersFound_empty (s : SymbolTable) : s.AnswersFound {} := by
  intro ctx name answer h
  cases h

/-- A computation does no more than look names up. -/
structure LooksUp (s : SymbolTable) (x : LookupM α) : Prop where
  remembers : ∀ st, (x st).2.Extends st
  finds : ∀ st, s.AnswersFound st → s.AnswersFound (x st).2
  repeats : ∀ {st a st'}, x st = (.ok a, st') → ∀ later : LookupState, later.Extends st' →
    x later = (.ok a, later)

namespace LooksUp

variable {x : LookupM α} {f : α → LookupM β}

/-- A computation that fails or succeeds without a lookup. -/
theorem lift (result : Except Violation α) : s.LooksUp (ExceptT.mk (Pure.pure result)) where
  remembers st := .refl st
  finds _ h := h
  repeats := by
    intro st a st' hrun later _
    obtain ⟨rfl, -⟩ := Prod.mk.injEq .. ▸ hrun
    rfl

theorem pure (a : α) : s.LooksUp (Pure.pure a) := lift (.ok a)

theorem throw (e : Violation) : s.LooksUp (MonadExcept.throw e : LookupM α) := lift (.error e)

theorem bind (hx : s.LooksUp x) (hf : ∀ a, s.LooksUp (f a)) : s.LooksUp (x >>= f) where
  remembers st := by
    have hfirst := hx.remembers st
    rw [run_bind]
    revert hfirst
    rcases x st with ⟨e | a, st₁⟩
    · exact fun hfirst => hfirst
    · exact fun hfirst => ((hf a).remembers st₁).trans hfirst
  finds st hst := by
    have hfirst := hx.finds st hst
    rw [run_bind]
    revert hfirst
    rcases x st with ⟨e | a, st₁⟩
    · exact fun hfirst => hfirst
    · exact fun hfirst => (hf a).finds st₁ hfirst
  repeats := by
    intro st b st' hrun later hlater
    obtain ⟨a, st₁, hxrun, hfrun⟩ := run_bind_eq_ok.mp hrun
    have hbetween : st'.Extends st₁ := by
      have hgrown := (hf a).remembers st₁
      rwa [hfrun] at hgrown
    exact run_bind_eq_ok.mpr ⟨a, later, hx.repeats hxrun later (hlater.trans hbetween),
      (hf a).repeats hfrun later hlater⟩

theorem mapM {f : α → LookupM β} (hf : ∀ a, s.LooksUp (f a)) (xs : List α) :
    s.LooksUp (xs.mapM f) := by
  induction xs with
  | nil =>
    rw [List.mapM_nil]
    exact .pure []
  | cons x xs ih =>
    rw [List.mapM_cons]
    exact .bind (hf x) (fun b => .bind ih (fun bs => .pure (b :: bs)))

theorem forM {f : α → LookupM PUnit} (hf : ∀ a, s.LooksUp (f a)) (xs : List α) :
    s.LooksUp (xs.forM f) := by
  induction xs with
  | nil => exact .pure PUnit.unit
  | cons x xs ih => exact .bind (hf x) (fun _ => ih)

/-- What succeeds is settled afterwards. -/
theorem settled (hx : s.LooksUp x) {st st' : LookupState} {a : α} (hrun : x st = (.ok a, st')) :
    Settled x st' :=
  ⟨a, fun later hlater => hx.repeats hrun later hlater⟩

/-- When a sequence is settled, both of its parts are. -/
theorem settled_bind (hx : s.LooksUp x) (hf : ∀ a, s.LooksUp (f a)) {st : LookupState}
    (h : Settled (x >>= f) st) : Settled x st ∧ ∃ a, Settled (f a) st := by
  obtain ⟨b, hb⟩ := h
  obtain ⟨a, st₁, hxrun, hfrun⟩ := run_bind_eq_ok.mp (hb st (.refl st))
  have hbetween : st.Extends st₁ := by
    have hgrown := (hf a).remembers st₁
    rwa [hfrun] at hgrown
  have hrepeats (later : LookupState) (hlater : later.Extends st) : x later = (.ok a, later) :=
    hx.repeats hxrun later (hlater.trans hbetween)
  refine ⟨⟨a, hrepeats⟩, a, b, fun later hlater => ?_⟩
  have hrun := hb later hlater
  rwa [run_bind, hrepeats later hlater] at hrun

/-- When a part of the second half of a sequence is settled along with it, it is so
along with the sequence. -/
theorem bind_settles {γ : Type} {y : LookupM γ} (hx : s.LooksUp x)
    (hf : ∀ a, s.LooksUp (f a) ∧ ∀ st, Settled (f a) st → Settled y st) :
    s.LooksUp (x >>= f) ∧ ∀ st, Settled (x >>= f) st → Settled y st := by
  refine ⟨.bind hx (fun a => (hf a).1), fun st h => ?_⟩
  obtain ⟨-, a, hrest⟩ := settled_bind hx (fun a => (hf a).1) h
  exact (hf a).2 st hrest

theorem settled_forM {f : α → LookupM PUnit} (hf : ∀ a, s.LooksUp (f a)) {xs : List α}
    {st : LookupState} (h : Settled (xs.forM f) st) : ∀ x ∈ xs, Settled (f x) st := by
  induction xs with
  | nil => exact nofun
  | cons x xs ih =>
    obtain ⟨hfirst, -, hrest⟩ := settled_bind (hf x) (fun _ => .forM hf xs) h
    exact List.forall_mem_cons.mpr ⟨hfirst, ih hrest⟩

theorem settled_mapM {f : α → LookupM β} (hf : ∀ a, s.LooksUp (f a)) {xs : List α}
    {st : LookupState} (h : Settled (xs.mapM f) st) : ∀ x ∈ xs, Settled (f x) st := by
  induction xs with
  | nil => exact nofun
  | cons x xs ih =>
    rw [List.mapM_cons] at h
    have hothers (b : β) : s.LooksUp (do return b :: (← xs.mapM f)) :=
      .bind (.mapM hf xs) (fun bs => .pure (b :: bs))
    obtain ⟨hfirst, b, hrest⟩ := settled_bind (hf x) hothers h
    obtain ⟨hrest, -⟩ := settled_bind (.mapM hf xs) (fun bs => .pure (b :: bs)) hrest
    exact List.forall_mem_cons.mpr ⟨hfirst, ih hrest⟩

end LooksUp

/-! ## §2 Lookups -/

/-- What a name denotes does not depend on the place where it stands. -/
theorem findSimple_eq_ok {ctx : ClassId} {name : Name} {range : Span} {found : Option ClassId}
    (h : (s.findSimple ctx name range).1 = .ok found) (range' : Span) :
    (s.findSimple ctx name range').1 = .ok found := by
  unfold findSimple at h ⊢
  simp only at h ⊢
  by_cases hown : (s.unitAt ctx).decl.name = name
  · rwa [if_pos hown] at h ⊢
  rw [if_neg hown] at h ⊢
  cases hfilter : (s.importsOf ctx).single.filter (fun imp => imp.imported = name) with
  | cons first others =>
    rw [hfilter] at h
    unfold findImported at h ⊢
    simp only at h ⊢
    split at h
    · cases h
    · exact h
  | nil =>
    rw [hfilter] at h
    simp only at h ⊢
    split at h
    · exact h
    · split at h
      · exact h
      · exact h
      · cases h

/-- A name that is remembered is not searched for again. -/
theorem lookupSimple_of_answer {ctx : ClassId} {name : Name} {st : LookupState}
    {answer : SimpleAnswer} (h : st.answers.lookup (ctx, name) = some answer) (range : Span) :
    s.lookupSimple ctx name range st = (answer, st) := by
  unfold lookupSimple
  rw [h]

/-- The answer to a name that is not remembered is found by a search. -/
theorem lookupSimple_of_none {ctx : ClassId} {name : Name} {st : LookupState}
    (h : st.answers.lookup (ctx, name) = none) (range : Span) :
    s.lookupSimple ctx name range st = ((s.findSimple ctx name range).1, {
      answers := ((ctx, name), (s.findSimple ctx name range).1) :: st.answers
      usedPackages := (s.findSimple ctx name range).2.foldl OrderedSet.add st.usedPackages }) := by
  unfold lookupSimple
  rw [h]

/-- The answer depends on what is remembered of the name. -/
theorem lookupSimple_fst_congr {ctx : ClassId} {name : Name} {st st' : LookupState}
    (h : st.answers.lookup (ctx, name) = st'.answers.lookup (ctx, name)) (range : Span) :
    (s.lookupSimple ctx name range st).1 = (s.lookupSimple ctx name range st').1 := by
  cases hanswer : st'.answers.lookup (ctx, name) with
  | some answer =>
    rw [lookupSimple_of_answer hanswer, lookupSimple_of_answer (h.trans hanswer)]
  | none => rw [lookupSimple_of_none hanswer, lookupSimple_of_none (h.trans hanswer)]

theorem lookupSimple_sorted (ctx : ClassId) (name : Name) (range : Span) {st : LookupState}
    (h : st.usedPackages.Sorted) : (s.lookupSimple ctx name range st).2.usedPackages.Sorted := by
  cases hanswer : st.answers.lookup (ctx, name) with
  | some answer => rwa [lookupSimple_of_answer hanswer]
  | none =>
    rw [lookupSimple_of_none hanswer]
    exact OrderedMap.sorted_foldl_add _ h

/-- The answer to a name is remembered. -/
theorem lookupSimple_answer (s : SymbolTable) (ctx : ClassId) (name : Name) (range : Span)
    (st : LookupState) :
    (s.lookupSimple ctx name range st).2.answers.lookup (ctx, name) =
      some (s.lookupSimple ctx name range st).1 := by
  cases h : st.answers.lookup (ctx, name) with
  | some answer => rw [lookupSimple_of_answer h, h]
  | none =>
    rw [lookupSimple_of_none h]
    exact List.lookup_cons_self

theorem lookupSimple_remembers (s : SymbolTable) (ctx : ClassId) (name : Name) (range : Span)
    (st : LookupState) : (s.lookupSimple ctx name range st).2.Extends st := by
  cases h : st.answers.lookup (ctx, name) with
  | some answer =>
    rw [lookupSimple_of_answer h]
    exact .refl st
  | none =>
    rw [lookupSimple_of_none h]
    intro key answer hkey
    have hne : key ≠ (ctx, name) := by
      rintro rfl
      rw [h] at hkey
      cases hkey
    rw [List.lookup_cons, beq_eq_false_iff_ne.mpr hne]
    exact hkey

/-- A lookup changes the answer to no other name. -/
theorem lookupSimple_other {ctx : ClassId} {name : Name} {key : ClassId × Name}
    (hne : key ≠ (ctx, name)) (range : Span) (st : LookupState) :
    (s.lookupSimple ctx name range st).2.answers.lookup key = st.answers.lookup key := by
  cases h : st.answers.lookup (ctx, name) with
  | some answer => rw [lookupSimple_of_answer h]
  | none => rw [lookupSimple_of_none h, List.lookup_cons, beq_eq_false_iff_ne.mpr hne]

theorem lookupSimple_finds (ctx : ClassId) (name : Name) (range : Span) {st : LookupState}
    (hst : s.AnswersFound st) : s.AnswersFound (s.lookupSimple ctx name range st).2 := by
  cases h : st.answers.lookup (ctx, name) with
  | some answer => rwa [lookupSimple_of_answer h]
  | none =>
    rw [lookupSimple_of_none h]
    intro ctx' name' answer hkey
    by_cases heq : (ctx', name') = (ctx, name)
    · cases heq
      rw [List.lookup_cons_self] at hkey
      cases hkey
      exact ⟨range, rfl⟩
    · rw [List.lookup_cons, beq_eq_false_iff_ne.mpr heq] at hkey
      exact hst ctx' name' answer hkey

theorem lookupSimple_looksUp (ctx : ClassId) (name : Name) (range : Span) :
    s.LooksUp (s.lookupSimple ctx name range) where
  remembers := s.lookupSimple_remembers ctx name range
  finds _ := lookupSimple_finds ctx name range
  repeats := by
    intro st found st' hrun later hlater
    have hanswer := s.lookupSimple_answer ctx name range st
    rw [hrun] at hanswer
    exact lookupSimple_of_answer (hlater _ _ hanswer) range

theorem resolveSimple_looksUp (ctx : ClassId) (name : Name) (range : Span) :
    s.LooksUp (s.resolveSimple ctx name range) := by
  refine .bind (lookupSimple_looksUp ctx name range) (fun found => ?_)
  cases found with
  | none => exact .throw _
  | some id => exact .pure id

/-- Whether a name denotes a type depends on the remembered answer alone. -/
theorem denotesType_run (ctx : ClassId) (name : Name) (range : Span) (st : LookupState) :
    s.denotesType ctx name range st =
      (.ok (match (s.lookupSimple ctx name range st).1 with
        | .ok (some _) => true
        | _ => false), (s.lookupSimple ctx name range st).2) := by
  unfold denotesType
  rcases s.lookupSimple ctx name range st with ⟨_ | _ | _, _⟩ <;> rfl

theorem denotesType_looksUp (ctx : ClassId) (name : Name) (range : Span) :
    s.LooksUp (s.denotesType ctx name range) where
  remembers st := by
    rw [denotesType_run]
    exact s.lookupSimple_remembers ctx name range st
  finds st hst := by
    rw [denotesType_run]
    exact lookupSimple_finds ctx name range hst
  repeats := by
    intro st found st' hrun later hlater
    have hanswer := s.lookupSimple_answer ctx name range st
    rw [denotesType_run] at hrun
    obtain ⟨hfound, rfl⟩ := Prod.mk.injEq .. ▸ hrun
    rw [denotesType_run, lookupSimple_of_answer (hlater _ _ hanswer), hfound]

theorem resolveTypeName_looksUp (ctx : ClassId) (name : QualifiedName) (range : Span) :
    s.LooksUp (s.resolveTypeName ctx name range) := by
  unfold resolveTypeName
  split
  · exact .throw _
  · exact resolveSimple_looksUp ctx _ range
  · refine .bind (denotesType_looksUp ctx _ range) (fun isType => ?_)
    split
    · exact .throw _
    · split
      · exact .throw _
      · split
        · exact .pure _
        · exact .throw _

theorem resolveRef_looksUp (ctx : ClassId) (ref : TypeRef) : s.LooksUp (s.resolveRef ctx ref) :=
  resolveTypeName_looksUp ctx ref.name ref.range

theorem resolveType_looksUp (ctx : ClassId) (type : TypeSyntax) :
    s.LooksUp (s.resolveType ctx type) := by
  induction type with
  | primitive type => exact .pure _
  | named ref => exact .bind (resolveRef_looksUp ctx ref) (fun id => .pure _)
  | array element ih => exact .bind ih (fun element => .pure _)

/-! ## §3 Linking -/

section Lowering

variable (id : ClassId)

theorem lowerSuperclass_looksUp : s.LooksUp (s.lowerSuperclass id) := by
  unfold lowerSuperclass
  simp only
  split
  · exact .pure none
  · exact .bind (resolveRef_looksUp id _) (fun superclass => .pure _)
  · split
    · exact .pure none
    · split
      · exact .pure _
      · exact .throw _

theorem lowerField_looksUp (field : FieldDecl) : s.LooksUp (s.lowerField id field) :=
  .bind (resolveType_looksUp id field.type) (fun _ => .pure _)

theorem lowerParams_looksUp (params : List Param) : s.LooksUp (s.lowerParams id params) :=
  .mapM (fun param => resolveType_looksUp id param.type) params

theorem lowerThrows_looksUp (throws : List TypeRef) : s.LooksUp (s.lowerThrows id throws) :=
  .mapM (resolveRef_looksUp id) throws

theorem lowerResult_looksUp (result : Option TypeSyntax) : s.LooksUp (s.lowerResult id result) := by
  cases result with
  | none => exact .pure _
  | some type => exact resolveType_looksUp id type

theorem lowerMethod_looksUp (isInterface : Bool) (method : MethodDecl) :
    s.LooksUp (s.lowerMethod id isInterface method) :=
  .bind (lowerParams_looksUp id method.params) (fun _ =>
    .bind (lowerResult_looksUp id method.returnType) (fun _ =>
      .bind (lowerThrows_looksUp id method.throws) (fun _ => .pure _)))

theorem lowerConstructors_looksUp (decl : TypeDecl) : s.LooksUp (s.lowerConstructors id decl) := by
  unfold lowerConstructors
  split
  · exact .pure []
  · split
    · exact .pure _
    · refine .mapM (fun constructor => ?_) _
      exact .bind (lowerParams_looksUp id constructor.params) (fun _ =>
        .bind (lowerThrows_looksUp id constructor.throws) (fun _ => .pure _))

theorem linkBodies_looksUp (decl : TypeDecl) : s.LooksUp (s.linkBodies id decl) := by
  unfold linkBodies
  split
  · exact .forM (fun type => .bind (resolveType_looksUp id type) (fun _ => .pure _)) _
  · exact .pure _

/-- The types written in the bodies of a program unit are settled when the bodies
are. -/
theorem settled_of_linkBodies {decl : TypeDecl} {st : LookupState} (hid : s.isLibrary id = false)
    (h : Settled (s.linkBodies id decl) st) {type : TypeSyntax}
    (htype : type ∈ decl.bodies.writtenTypes) : Settled (s.resolveType id type) st := by
  unfold linkBodies at h
  rw [hid] at h
  have hresolve (type : TypeSyntax) := resolveType_looksUp (s := s) id type
  have hsettled := LooksUp.settled_forM
    (fun type => .bind (hresolve type) (fun _ => .pure PUnit.unit)) h type htype
  exact (LooksUp.settled_bind (hresolve type) (fun _ => .pure PUnit.unit) hsettled).1

/-- The bodies of a unit are settled along with its signature. -/
theorem lowerUnit_looksUp :
    s.LooksUp (s.lowerUnit id) ∧
    ∀ st, Settled (s.lowerUnit id) st → Settled (s.linkBodies id (s.unitAt id).decl) st := by
  refine LooksUp.bind_settles (lowerSuperclass_looksUp id) (fun superclass => ?_)
  refine LooksUp.bind_settles (.mapM (resolveRef_looksUp id) _) (fun interfaces => ?_)
  refine LooksUp.bind_settles (.mapM (lowerField_looksUp id) _) (fun fields => ?_)
  refine LooksUp.bind_settles (.mapM (lowerMethod_looksUp id _) _) (fun methods => ?_)
  refine LooksUp.bind_settles (lowerConstructors_looksUp id _) (fun constructors => ?_)
  have hbodies := linkBodies_looksUp (s := s) id (s.unitAt id).decl
  exact ⟨.bind hbodies (fun _ => .pure _),
    fun st h => (LooksUp.settled_bind hbodies (fun _ => .pure _) h).1⟩

end Lowering

/-- The program is lowered in three parts: imports, units, and the table. -/
theorem lowerAll_eq (s : SymbolTable) :
    s.lowerAll = s.ids.forM (fun id => ExceptT.mk (pure (s.checkImports id))) >>= fun _ =>
      s.ids.mapM s.lowerUnit >>= fun classes =>
        ExceptT.mk (pure ((TypeTable.ofClasses classes.toArray).mapError fun missing =>
          { cause := .typeNotFound missing.toDotted })) := by
  unfold lowerAll
  refine bind_congr (fun _ => bind_congr (fun classes => ?_))
  cases TypeTable.ofClasses classes.toArray with
  | error missing => rfl
  | ok table => rfl

/-- Imports and signatures are settled along with the table. -/
theorem lowerAll_looksUp (s : SymbolTable) :
    s.LooksUp s.lowerAll ∧ ∀ st, Settled s.lowerAll st →
      (∀ id ∈ s.ids, s.checkImports id = .ok ()) ∧ ∀ id ∈ s.ids, Settled (s.lowerUnit id) st := by
  have hcheck (id : ClassId) : s.LooksUp (ExceptT.mk (pure (s.checkImports id))) := .lift _
  have himports := LooksUp.forM hcheck s.ids
  have hunits := LooksUp.mapM (fun id => (lowerUnit_looksUp (s := s) id).1) s.ids
  have htable (classes : List ClassDef) := LooksUp.lift (s := s)
    ((TypeTable.ofClasses classes.toArray).mapError fun missing =>
      { cause := .typeNotFound missing.toDotted })
  rw [lowerAll_eq]
  refine ⟨.bind himports (fun _ => .bind hunits htable), fun st h => ?_⟩
  obtain ⟨hchecked, -, h⟩ := LooksUp.settled_bind himports (fun _ => .bind hunits htable) h
  obtain ⟨hlowered, -⟩ := LooksUp.settled_bind hunits htable h
  refine ⟨fun id hid => ?_, LooksUp.settled_mapM (fun id => (lowerUnit_looksUp id).1) hlowered⟩
  obtain ⟨_, hrun⟩ := LooksUp.settled_forM hcheck hchecked id hid
  exact congrArg Prod.fst (hrun st (.refl st))

section Linked

variable {l : Linked}

theorem link_settled_lowerAll (h : s.link = .ok l) : Settled s.lowerAll l.lookups :=
  s.lowerAll_looksUp.1.settled (link_run h).2.1

/-- The types that are written in the bodies of a linked program are settled. -/
theorem link_settled (h : s.link = .ok l) {id : ClassId} (hid : id < s.size)
    (hprogram : s.isLibrary id = false) {type : TypeSyntax}
    (htype : type ∈ (s.unitAt id).decl.bodies.writtenTypes) :
    Settled (s.resolveType id type) l.lookups := by
  have hunit := (s.lowerAll_looksUp.2 _ (link_settled_lowerAll h)).2 id (List.mem_range.mpr hid)
  exact settled_of_linkBodies id hprogram ((lowerUnit_looksUp id).2 _ hunit) htype

/-- The imports of a linked program are valid. -/
theorem link_checkImports (h : s.link = .ok l) {id : ClassId} (hid : id < s.size) :
    s.checkImports id = .ok () :=
  (s.lowerAll_looksUp.2 _ (link_settled_lowerAll h)).1 id (List.mem_range.mpr hid)

/-- What is remembered of a linked program is what a search finds. -/
theorem link_answersFound (h : s.link = .ok l) : s.AnswersFound l.lookups := by
  have hfound := s.lowerAll_looksUp.1.finds {} s.answersFound_empty
  rwa [(link_run h).2.1] at hfound

end Linked

end SymbolTable

end JoosStatics
