/-
JoosStatics.Proofs.Typing.Overloading — a selection among overloads finds the
least applicable candidate.

Parameter lists are ordered by assignment conversion, position by position
(`TypeTable.AllAssignable`). A candidate is chosen when its parameters are least
among those that accept the arguments (`TypeTable.MostSpecific`). The selection
counts such candidates; it is right because there is at most one, which takes
an order on the types (`isPartialOrder_isAssignable`) and candidates with
different parameters.

`TypeTable.Selects` says what each outcome of a selection means. An outcome is
determined by that (`Selects.unique`), and everything else follows from it.

* `selectOverload_selects` — the selection has the outcome that it should have.
* `selectOverload_least` — when each outcome occurs, and what it depends on.
* `selectMethod_eq_ok_iff`, `selectConstructor_eq_ok_iff` — the candidates of a
  call or a creation have different parameters, so these select the most
  specific one.
-/
import JoosStatics.Bodies.Check
import JoosStatics.Proofs.Hierarchy.TypeOrder
import JoosStatics.Proofs.SortedMaps
import JoosStatics.Proofs.Typing.Selection

namespace JoosStatics

/-- Two outcomes of a selection are the same but for the order of ambiguous candidates. -/
inductive Selection.SameUpToOrder {α : Type} : Selection α → Selection α → Prop
  | found (choice : α) : SameUpToOrder (.found choice) (.found choice)
  | notFound : SameUpToOrder .notFound .notFound
  | ambiguous {choices choices' : List α} (h : choices.Perm choices') :
    SameUpToOrder (.ambiguous choices) (.ambiguous choices')

namespace TypeTable

variable {t : TypeTable} {α : Type} {candidates candidates' : List (α × List Ty)}
  {args params : List Ty} {choice : α}

/-! ## §1 The outcomes of a selection -/

/-- The candidates that accept the arguments. -/
def applicable (t : TypeTable) (candidates : List (α × List Ty)) (args : List Ty) :
    List (α × List Ty) :=
  candidates.filter (fun candidate => t.AllAssignable args candidate.2)

theorem mem_applicable : (choice, params) ∈ t.applicable candidates args ↔
    (choice, params) ∈ candidates ∧ t.AllAssignable args params := by
  simp [applicable]

/-- A candidate accepts the arguments, and its parameters can be assigned to those of all
candidates that do. -/
structure MostSpecific (t : TypeTable) (candidates : List (α × List Ty)) (args : List Ty)
    (choice : α) (params : List Ty) : Prop where
  mem : (choice, params) ∈ t.applicable candidates args
  least : ∀ other ∈ t.applicable candidates args, t.AllAssignable params other.2

/-- Parameters that accept the same arguments are compared one by one. -/
theorem mostSpecific_iff : t.MostSpecific candidates args choice params ↔
    (choice, params) ∈ t.applicable candidates args ∧
      ∀ other ∈ t.applicable candidates args, t.areAssignable params other.2 = true := by
  have hlength {choice : α} {params : List Ty}
      (h : (choice, params) ∈ t.applicable candidates args) : args.length = params.length :=
    List.Forall₂.length_eq (mem_applicable.mp h).2
  constructor
  · rintro ⟨hmem, hleast⟩
    refine ⟨hmem, fun other hother => ?_⟩
    exact (areAssignable_iff ((hlength hmem).symm.trans (hlength hother))).mpr
      (hleast other hother)
  · rintro ⟨hmem, hall⟩
    refine ⟨hmem, fun other hother => ?_⟩
    exact (areAssignable_iff ((hlength hmem).symm.trans (hlength hother))).mp (hall other hother)

/-- What the outcome of a selection says about the candidates. -/
inductive Selects (t : TypeTable) (candidates : List (α × List Ty)) (args : List Ty) :
    Selection α → Prop
  | found {choice : α} {params : List Ty} (h : t.MostSpecific candidates args choice params) :
    Selects t candidates args (.found choice)
  | notFound (h : t.applicable candidates args = []) : Selects t candidates args .notFound
  | ambiguous (hsome : t.applicable candidates args ≠ [])
      (hnone : ∀ choice params, ¬ t.MostSpecific candidates args choice params) :
    Selects t candidates args (.ambiguous ((t.applicable candidates args).map Prod.fst))

/-- Candidates in another order have the outcome in another order. -/
theorem Selects.perm (hperm : candidates.Perm candidates') {outcome : Selection α}
    (h : t.Selects candidates args outcome) :
    ∃ outcome', t.Selects candidates' args outcome' ∧ outcome.SameUpToOrder outcome' := by
  have happlicable : (t.applicable candidates args).Perm (t.applicable candidates' args) :=
    hperm.filter _
  have hspecific (choice : α) (params : List Ty) :
      t.MostSpecific candidates args choice params ↔
        t.MostSpecific candidates' args choice params := by
    constructor
    · rintro ⟨hmem, hleast⟩
      exact ⟨happlicable.mem_iff.mp hmem,
        fun other hother => hleast other (happlicable.mem_iff.mpr hother)⟩
    · rintro ⟨hmem, hleast⟩
      exact ⟨happlicable.mem_iff.mpr hmem,
        fun other hother => hleast other (happlicable.mem_iff.mp hother)⟩
  cases h with
  | found h => exact ⟨_, .found ((hspecific _ _).mp h), .found _⟩
  | notFound h => exact ⟨_, .notFound (h ▸ happlicable).nil_eq.symm, .notFound⟩
  | ambiguous hsome hnone =>
    refine ⟨_, .ambiguous (fun hnil => hsome (hnil ▸ happlicable).eq_nil) (fun c ps hbest => ?_),
      .ambiguous (happlicable.map _)⟩
    exact hnone c ps ((hspecific c ps).mpr hbest)

section Ordered

variable (horder : IsPartialOrder Ty (fun a b => t.isAssignable a b = true))
  (hdistinct : (candidates.map Prod.snd).Nodup)
include horder hdistinct

/-- At most one candidate is the most specific one. -/
theorem MostSpecific.unique {choice' : α} {params' : List Ty}
    (h : t.MostSpecific candidates args choice params)
    (h' : t.MostSpecific candidates args choice' params') :
    (choice, params) = (choice', params') := by
  have hparams : params = params' := (h.least _ h'.mem).antisymm horder (h'.least _ h.mem)
  exact List.inj_on_of_nodup_map hdistinct (mem_applicable.mp h.mem).1
    (mem_applicable.mp h'.mem).1 hparams

/-- A selection has one outcome. -/
theorem Selects.unique {outcome outcome' : Selection α} (h : t.Selects candidates args outcome)
    (h' : t.Selects candidates args outcome') : outcome = outcome' := by
  cases h with
  | found h =>
    cases h' with
    | found h' => rw [(Prod.mk.inj (h.unique horder hdistinct h')).1]
    | notFound hnil => exact absurd (hnil ▸ h.mem) List.not_mem_nil
    | ambiguous _ hnone => exact absurd h (hnone _ _)
  | notFound hnil =>
    cases h' with
    | found h' => exact absurd (hnil ▸ h'.mem) List.not_mem_nil
    | notFound => rfl
    | ambiguous hsome => exact absurd hnil hsome
  | ambiguous hsome hnone =>
    cases h' with
    | found h' => exact absurd h' (hnone _ _)
    | notFound hnil => exact absurd hnil hsome
    | ambiguous => rfl

/-- The selection has the outcome that it should have. -/
theorem selectOverload_selects :
    t.Selects candidates args (t.selectOverload candidates args) := by
  have happlicable : candidates.filter (fun candidate => t.isApplicable candidate.2 args) =
      t.applicable candidates args :=
    List.filter_congr (fun _ _ => Bool.eq_iff_iff.mpr (by simp [isApplicable_iff]))
  unfold selectOverload
  simp only [happlicable]
  split
  · rename_i hempty
    exact .notFound (List.isEmpty_iff.mp hempty)
  rename_i hsome
  rw [List.isEmpty_iff] at hsome
  generalize hbest : (t.applicable candidates args).filter (fun candidate =>
    (t.applicable candidates args).all (fun other => t.areAssignable candidate.2 other.2)) = best
  have hmem (c : α) (ps : List Ty) : (c, ps) ∈ best ↔ t.MostSpecific candidates args c ps := by
    rw [mostSpecific_iff, ← hbest, List.mem_filter, List.all_eq_true]
  split
  · rename_i c ps
    exact .found ((hmem c ps).mp (List.mem_singleton_self _))
  · rename_i hmany
    refine .ambiguous hsome (fun c ps h => hmany c ps (by_contra fun hne => ?_))
    have hnodup : best.Nodup := hbest ▸ ((List.Nodup.of_map _ hdistinct).filter _).filter _
    rcases (hnodup.ne_singleton_iff (c, ps)).mp hne with hnil | ⟨other, hother, hdiff⟩
    · exact absurd (hnil ▸ (hmem c ps).mpr h) List.not_mem_nil
    · exact hdiff (h.unique horder hdistinct ((hmem _ _).mp hother)).symm

/-- A candidate is found when it is the most specific one. -/
theorem selectOverload_eq_found_iff : t.selectOverload candidates args = .found choice ↔
    ∃ params, t.MostSpecific candidates args choice params := by
  have hselects : t.Selects candidates args (t.selectOverload candidates args) :=
    selectOverload_selects horder hdistinct
  constructor
  · intro hfound
    rw [hfound] at hselects
    cases hselects with
    | found hbest => exact ⟨_, hbest⟩
  · rintro ⟨params, hbest⟩
    exact hselects.unique horder hdistinct (.found hbest)

end Ordered

/-! ## §2 The selection -/

/-- In a hierarchy that orders the types, a selection among candidates with different parameters
finds the most specific one, finds none when none is applicable, and is ambiguous among the
applicable ones otherwise. A candidate for exactly the argument types is found. The order of the
candidates only shows in the order of ambiguous ones. What is found stays applicable when the
arguments are replaced by others that can be assigned to them. -/
theorem selectOverload_least (t : TypeTable) (h : Hierarchy)
    (hsups : ∀ {sub sup}, t.Extends sub sup → sup < t.size) (hcheck : t.checkHierarchy = .ok h)
    (htop : t.ArrayTypesOnTop) {α : Type} (candidates : List (α × List Ty))
    (hdistinct : (candidates.map Prod.snd).Nodup) (args : List Ty) :
    (∀ choice, t.selectOverload candidates args = .found choice ↔
      ∃ params, t.MostSpecific candidates args choice params) ∧
    (t.selectOverload candidates args = .notFound ↔ t.applicable candidates args = []) ∧
    (t.applicable candidates args ≠ [] →
      (∀ choice params, ¬ t.MostSpecific candidates args choice params) →
      t.selectOverload candidates args =
        .ambiguous ((t.applicable candidates args).map Prod.fst)) ∧
    (∀ choice, (choice, args) ∈ candidates →
      t.selectOverload candidates args = .found choice) ∧
    (∀ candidates', candidates.Perm candidates' →
      (t.selectOverload candidates args).SameUpToOrder (t.selectOverload candidates' args)) ∧
    ∀ choice, t.selectOverload candidates args = .found choice →
      ∃ params, (choice, params) ∈ t.applicable candidates args ∧
        ∀ args', t.AllAssignable args' args →
          (choice, params) ∈ t.applicable candidates args' := by
  have horder := isPartialOrder_isAssignable hsups hcheck htop
  have hselects : t.Selects candidates args (t.selectOverload candidates args) :=
    selectOverload_selects horder hdistinct
  have heq {outcome : Selection α} (houtcome : t.Selects candidates args outcome) :
      t.selectOverload candidates args = outcome :=
    hselects.unique horder hdistinct houtcome
  refine ⟨fun choice => selectOverload_eq_found_iff horder hdistinct, ⟨fun hnone => ?_,
    fun hnil => heq (.notFound hnil)⟩, fun hsome hnone => heq (.ambiguous hsome hnone),
    fun choice hmem => ?_, fun candidates' hperm => ?_, fun choice hchoice => ?_⟩
  · rw [hnone] at hselects
    cases hselects with
    | notFound hnil => exact hnil
  · refine heq (.found ⟨mem_applicable.mpr ⟨hmem, .refl t args⟩, fun other hother => ?_⟩)
    exact (mem_applicable.mp hother).2
  · obtain ⟨outcome, houtcome, hsame⟩ := hselects.perm hperm
    have hdistinct' := (hperm.map Prod.snd).nodup_iff.mp hdistinct
    rwa [(selectOverload_selects horder hdistinct').unique horder hdistinct' houtcome]
  · obtain ⟨params, hbest⟩ := (selectOverload_eq_found_iff horder hdistinct).mp hchoice
    obtain ⟨hmem, haccepts⟩ := mem_applicable.mp hbest.mem
    exact ⟨params, hbest.mem, fun args' hargs =>
      mem_applicable.mpr ⟨hmem, hargs.trans horder haccepts⟩⟩

end TypeTable

/-- Of an overload for solids and one for balls, the one for balls is found for a ball. -/
theorem solids_overload_found : ∃ l h, HasHierarchy solids Library.units l h ∧
    l.table.selectOverload [("solid", [.declared 0]), ("ball", [.declared 1])] [.declared 1] =
      .found "ball" := by
  obtain ⟨l, h, hh, -⟩ := solids_hasHierarchy
  have ⟨_, _, _, hcheck⟩ := hh
  exact ⟨l, h, hh, (l.table.selectOverload_least h hh.wellLinked.supertype_lt hcheck
    hh.isLinked.arrayTypesOnTop _ (by decide) _).2.2.2.1 "ball" (by decide)⟩

/-! ## §3 Calls and creations -/

namespace HasHierarchy

variable {program library : List CompilationUnit} {l : Linked} {h : Hierarchy}

/-- The constructors of a class differ in their parameters. -/
theorem constructors_distinct (hh : HasHierarchy program library l h) (id : ClassId) :
    ((l.table.classAt id).constructors.map ConstructorDef.params).Nodup := by
  by_cases hid : id < l.table.size
  · have hduplicates := hh.checked.duplicates id (List.mem_range.mpr hid)
    exact (TypeTable.checkDuplicates_eq_ok.mp hduplicates).2.2
  · rw [l.table.classAt_of_size_le (Nat.le_of_not_lt hid)]
    exact List.nodup_nil

/-- A type has a method under its own signature. -/
theorem key_methodAt (hh : HasHierarchy program library l h) {id : ClassId}
    (hid : id < l.table.size) {key : MethodKey} {member : MemberMethod}
    (hentry : (key, member) ∈ (h.members id).methods.entries) :
    (l.table.methodAt member.method).key = key := by
  have hsorted := (hh.accepted.assembles hid).sorted_methods
  obtain ⟨⟨m, hm, hkey⟩, -⟩ := hh.accepted.declares_key hh.wellLinked hid
    (OrderedMap.find?_of_mem_entries hsorted hentry)
  rw [TypeTable.methodAt_of_getElem? hm, hkey]

/-- The methods that a type has under a name differ in their parameters. -/
theorem methodsNamed_distinct (hh : HasHierarchy program library l h) (id : ClassId)
    (name : Name) :
    ((h.methodsNamed id name).map (fun ref => (l.table.methodAt ref).params)).Nodup := by
  by_cases hid : id < l.table.size
  · have hkeys : (h.members id).methods.keys.Nodup :=
      OrderedMap.nodup_keys (hh.accepted.assembles hid).sorted_methods
    unfold Hierarchy.methodsNamed MemberSet.methodsNamed
    rw [List.map_map]
    refine List.Nodup.map_on (fun entry hentry other hother hparams => ?_)
      ((List.Nodup.of_map _ hkeys).filter _)
    obtain ⟨hentry, hname⟩ := List.mem_filter.mp hentry
    obtain ⟨hother, hname'⟩ := List.mem_filter.mp hother
    have hname : entry.1.name = other.1.name :=
      (beq_iff_eq.mp hname).trans (beq_iff_eq.mp hname').symm
    have hparams : entry.1.params = other.1.params := calc
      entry.1.params = (l.table.methodAt entry.2.method).params :=
        congrArg MethodKey.params (hh.key_methodAt hid hentry).symm
      _ = (l.table.methodAt other.2.method).params := hparams
      _ = other.1.params := congrArg MethodKey.params (hh.key_methodAt hid hother)
    exact List.inj_on_of_nodup_map hkeys hentry hother (congrArg₂ MethodKey.mk hname hparams)
  · have hnone : h.methodsNamed id name = [] := by
      rw [Hierarchy.methodsNamed, hh.checked.outside (Nat.le_of_not_lt hid)]
      rfl
    rw [hnone]
    exact List.nodup_nil

variable {ctx : BodyContext} {owner id : ClassId} {name : Name} {args : List Ty} {range : Span}

/-- A call selects the most specific method that the type has under the name. -/
theorem selectMethod_eq_ok_iff (hh : HasHierarchy program Library.units l h)
    (hctx : ctx.toClassContext = l.classContext h owner) {ref : MethodRef} :
    ctx.selectMethod id name args range = .ok ref ↔
      ∃ params, l.table.MostSpecific
        ((h.methodsNamed id name).map (fun ref => (ref, (l.table.methodAt ref).params))) args
        ref params := by
  have htable : ctx.table = l.table := congrArg ClassContext.table hctx
  have hhierarchy : ctx.hierarchy = h := congrArg ClassContext.hierarchy hctx
  unfold BodyContext.selectMethod
  rw [BodyContext.selected_eq_ok, htable, hhierarchy]
  refine TypeTable.selectOverload_eq_found_iff hh.isPartialOrder ?_
  rw [List.map_map]
  exact hh.methodsNamed_distinct id name

/-- A creation selects the most specific constructor of the class. -/
theorem selectConstructor_eq_ok_iff (hh : HasHierarchy program Library.units l h)
    (hctx : ctx.toClassContext = l.classContext h owner) {ref : ConstructorRef} :
    ctx.selectConstructor id args range = .ok ref ↔
      ∃ params, l.table.MostSpecific
        ((l.table.classAt id).constructors.zipIdx.map (fun c => (⟨id, c.2⟩, c.1.params))) args
        ref params := by
  have htable : ctx.table = l.table := congrArg ClassContext.table hctx
  unfold BodyContext.selectConstructor
  rw [BodyContext.selected_eq_ok, htable]
  refine TypeTable.selectOverload_eq_found_iff hh.isPartialOrder ?_
  have hparams := map_zipIdx_fst ConstructorDef.params (l.table.classAt id).constructors
  rw [List.map_map]
  exact (congrArg List.Nodup hparams).mpr (hh.constructors_distinct id)

end HasHierarchy

end JoosStatics
