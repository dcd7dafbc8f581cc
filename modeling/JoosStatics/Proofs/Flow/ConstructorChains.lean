/-
JoosStatics.Proofs.Flow.ConstructorChains — every constructor leads to one that
invokes a constructor of the superclass.

The type checker lets a `this(...)` or `super(...)` start a constructor and stand
nowhere else, and records a target for those that start with `this(...)`. The
last stage makes sure that following the targets comes to an end. The constructor
at the end has no target, so it starts with a `super(...)`, written or implied.

* `checkConstructor_records` and `checkConstructor_keeps_targets` — what one
  constructor does to the targets.
* `Passes.isSome_target` and `Passes.target_own` — the targets of an
  accepted program.
* `constructor_invocations` — where invocations stand, what the targets are, and
  that they lead to the superclass.

The bodies of constructors that an interface is written with are left out: the
interface has no constructors, so neither the type checker nor the last stage goes
over these bodies, in which only the written types are resolved. And there is
nothing above a `java.lang.Object` that belongs to the program
(`shape_misplaces_invocation`).
-/
import JoosStatics.Proofs.Bodies.Escapes
import JoosStatics.Proofs.Flow.Checked
import JoosStatics.Proofs.Typing.Bodies
import JoosStatics.Proofs.Typing.Selection

namespace JoosStatics

/-! ## §1 What a constructor records -/

theorem Stmt.invocation?_eq_some {body s : Stmt Mark} :
    body.invocation? = some s ↔ s.isInvocation = true ∧ ∃ rest, body.statements = s :: rest := by
  rw [Stmt.invocation?, Option.filter_eq_some_iff, List.head?_eq_some_iff, and_comm]

section Body

variable {ctx : BodyContext} {constructor : ConstructorRef} {body : Stmt Mark}

/-- A constructor of the class whose body is checked. -/
def BodyContext.IsOwnConstructor (ctx : BodyContext) (ref : ConstructorRef) : Prop :=
  ref.owner = ctx.classId ∧ ref.index < (ctx.table.classAt ctx.classId).constructors.length

/-- A constructor has a target in its own class. -/
def BodyContext.HasTarget (ctx : BodyContext) (constructor : ConstructorRef)
    (targets : ConstructorTargets) : Prop :=
  ∃ target, targets.find? constructor = some target ∧ ctx.IsOwnConstructor target

theorem checkThisInvocation_records (scope : Scope) (args : List (Expr Mark)) (range : Span) :
    Reaches (checkThisInvocation ctx scope constructor args range)
      (fun _ st => ctx.HasTarget constructor st.targets) := by
  refine Reaches.bind_right (fun types => ?_)
  intro st _ st' hrun
  obtain ⟨target, st₁, htarget, hrun⟩ := run_bind_eq_ok.mp hrun
  cases hrun
  obtain ⟨hok, rfl⟩ := Prod.mk.injEq .. ▸ htarget
  obtain ⟨howner, c, hc⟩ :=
    BodyContext.selectConstructor_mem (BodyContext.invokedConstructor_eq_ok hok).1
  exact ⟨target, OrderedMap.find?_insert_self .., howner, (List.getElem?_eq_some_iff.mp hc).1⟩

/-- A body that starts with `this(...)` gives its constructor a target. -/
theorem checkConstructorBody_records (scope : Scope) {mark : Mark} {args : List (Expr Mark)}
    (h : body.invocation? = some (.constructorCall mark .this args)) :
    Reaches (checkConstructorBody ctx scope constructor body)
      (fun _ st => ctx.HasTarget constructor st.targets) := by
  obtain ⟨-, rest, hstatements⟩ := Stmt.invocation?_eq_some.mp h
  unfold checkConstructorBody
  simp only [hstatements]
  refine Reaches.bind_left (checkThisInvocation_records scope args _) (fun _ => ?_)
  have hstable := stable_targets ctx (rest.flatMap Stmt.exprIds) (ctx.HasTarget constructor)
  refine Keeps.bind (checkStmts_keeps hstable scope rest ?_) (fun _ => Keeps.pure)
  exact fun s hs n hn => List.mem_flatMap.mpr ⟨s, hs, hn⟩

/-- Any other body leaves the targets alone. -/
theorem checkConstructorBody_keeps_targets (P : ConstructorTargets → Prop) (scope : Scope)
    (h : ∀ mark args, body.invocation? ≠ some (.constructorCall mark .this args)) :
    Keeps (fun st => P st.targets) (checkConstructorBody ctx scope constructor body) := by
  refine checkConstructorBody_has (stable_targets ctx body.exprIds P).steps scope body
    (Stmt.within_of_exprIds (List.Subset.refl _)) (fun {mark args rest} hstatements => ?_)
  exact absurd (Stmt.invocation?_eq_some.mpr ⟨rfl, rest, hstatements⟩) (h mark args)

end Body

namespace ClassContext

variable {cls : ClassContext} {index : Nat}

/-- A constructor starts with `this(...)`. -/
def StartsWithThis (cls : ClassContext) (index : Nat) : Prop :=
  ∃ mark args,
    cls.decl.invocation? (.constructor index) = some (.constructorCall mark .this args)

theorem checkConstructor_records (hdefaults : cls.DefaultsUnwritten)
    (howner : .constructor index ∈ cls.owners) (h : cls.StartsWithThis index) :
    Reaches (cls.checkConstructor index) (fun _ st =>
      (cls.bodyContext (.constructor index)).HasTarget ⟨cls.classId, index⟩ st.targets) := by
  obtain ⟨mark, args, hthis⟩ := h
  obtain ⟨body, hbody, hthis⟩ := Option.bind_eq_some_iff.mp hthis
  simp only [checkConstructor, hdefaults.isDefault_eq howner, hbody]
  rw [if_neg (TypeDecl.not_isEmpty_of_constructorTree? hbody)]
  exact Reaches.bind_right (fun scope => checkConstructorBody_records scope hthis)

theorem checkConstructor_keeps_targets (P : ConstructorTargets → Prop)
    (h : ¬ cls.StartsWithThis index) :
    Keeps (fun st => P st.targets) (cls.checkConstructor index) := by
  have hsteps := (stable_targets (cls.bodyContext (.constructor index)) [] P).steps
  simp only [checkConstructor]
  split
  · exact checkSuperInvocation_has hsteps.toExprSteps _ _ _ (List.forall_mem_nil _)
  · split
    · exact Keeps.pure
    · rename_i body hbody
      refine Keeps.bind (declareParams_has hsteps _ _) (fun scope => ?_)
      refine checkConstructorBody_keeps_targets P scope (fun mark args hthis => ?_)
      exact h ⟨mark, args, Option.bind_eq_some_iff.mpr ⟨body, hbody, hthis⟩⟩

/-- A constructor that passes has a target when it starts with `this(...)`. -/
theorem Passes.find?_target {targets : ConstructorTargets}
    (h : cls.Passes targets (.constructor index)) (hdefaults : cls.DefaultsUnwritten)
    (howner : .constructor index ∈ cls.owners) :
    ((targets.find? ⟨cls.classId, index⟩).isSome ↔ cls.StartsWithThis index) ∧
      ∀ target, targets.find? ⟨cls.classId, index⟩ = some target →
        (cls.bodyContext (.constructor index)).IsOwnConstructor target := by
  obtain ⟨st, st', -, hrun, htarget⟩ := h
  obtain ⟨hbefore, hafter⟩ := htarget index rfl
  rw [hafter]
  by_cases hthis : cls.StartsWithThis index
  · obtain ⟨target, hfind, hown⟩ := checkConstructor_records hdefaults howner hthis st () st' hrun
    rw [hfind]
    refine ⟨iff_of_true rfl hthis, ?_⟩
    rintro _ ⟨⟩
    exact hown
  · have hnone := (checkConstructor_keeps_targets
      (fun targets => targets.find? ⟨cls.classId, index⟩ = none) hthis st () st' hbefore hrun).1
    rw [hnone]
    exact ⟨iff_of_false nofun hthis, nofun⟩

end ClassContext

/-! ## §2 Where invocations stand -/

/-- The statements that a body starts with are distinct from those behind them. -/
theorem Stmt.notMem_rest {body s : Stmt Mark} {rest : List (Stmt Mark)}
    (hnodup : body.parts.Nodup) (h : body.statements = s :: rest) :
    s ∉ rest.flatMap Stmt.parts := by
  have hstatements : (body.statements.flatMap Stmt.parts).Sublist body.parts := by
    cases body with
    | block note stmts =>
      rw [Stmt.parts_eq]
      exact List.sublist_cons_self ..
    | _ =>
      simp only [Stmt.statements, List.flatMap_singleton]
      exact .refl _
  have hnodup := hnodup.sublist hstatements
  rw [h, List.flatMap_cons] at hnodup
  exact fun hmem => List.disjoint_of_nodup_append hnodup s.self_mem_parts hmem

/-- A constructor that does not start with `this(...)` starts with `super(...)`, written or
implied. -/
theorem Stmt.superArgs?_eq_none {body : Stmt Mark} (h : body.superArgs? = none) :
    ∃ mark args, body.invocation? = some (.constructorCall mark .this args) := by
  unfold Stmt.superArgs? at h
  split at h
  · rename_i mark args rest hstatements
    exact ⟨mark, args, Stmt.invocation?_eq_some.mpr ⟨rfl, rest, hstatements⟩⟩
  · cases h
  · cases h

theorem TypeDecl.exists_superArgs {d : TypeDecl} {index : Nat} (hwf : d.isWellFormed = true)
    (hindex : d.constructors.isEmpty = true ∨ index < d.constructors.length)
    (hthis : ∀ mark args,
      d.invocation? (.constructor index) ≠ some (.constructorCall mark .this args)) :
    ∃ args, d.superArgs? index = some args := by
  unfold TypeDecl.superArgs?
  split
  · exact ⟨[], rfl⟩
  · rename_i hwritten
    have hindex := hindex.resolve_left hwritten
    obtain ⟨body, hbody, -⟩ := TypeDecl.exists_stmt hwf
      (List.mem_append_left _ (List.mem_map_of_mem (List.getElem_mem hindex)))
    have htree : d.constructorTree? index = some body := by
      rw [TypeDecl.constructorTree?, List.getElem?_eq_getElem hindex]
      exact hbody
    rw [htree]
    cases hargs : body.superArgs? with
    | some args => exact ⟨args, hargs⟩
    | none =>
      obtain ⟨mark, args, hhead⟩ := Stmt.superArgs?_eq_none hargs
      exact absurd (Option.bind_eq_some_iff.mpr ⟨body, htree, hhead⟩) (hthis mark args)

namespace Analysis

variable (a : Analysis)

/-- A statement is the first one of the body of a class constructor, and stands nowhere
else in it. -/
def StartsConstructor (id : ClassId) (owner : BodyOwner) (s : Stmt Mark) : Prop :=
  (a.classContext id).decl.isInterface = false ∧ ∃ index body rest,
    owner = .constructor index ∧ (a.classContext id).decl.constructorTree? index = some body ∧
    body.statements = s :: rest ∧ s ∉ rest.flatMap Stmt.parts

/-- A constructor of the program. -/
def HasConstructor (ref : ConstructorRef) : Prop := a.HasMember ref.owner (.constructor ref.index)

/-- A constructor starts with the invocation of a constructor of the superclass, written or
implied. -/
def InvokesSuper (ref target : ConstructorRef) : Prop :=
  ∃ args types range, (a.classContext ref.owner).decl.superArgs? ref.index = some args ∧
    args.map (a.typeOf? ref.owner) = types.map some ∧
    (a.linked.table.classAt ref.owner).superclass = some target.owner ∧
    target.index < (a.linked.table.classAt target.owner).constructors.length ∧
    ((a.classContext ref.owner).bodyContext (.constructor ref.index)).selectConstructor
      target.owner types range = .ok target

end Analysis

/-! ## §3 Where targets lead -/

variable {program : Program} {config : Configuration} {a : Analysis} {id : ClassId}
  {owner : BodyOwner} {ref : ConstructorRef}

namespace Passes

variable (hp : Passes program config a)
include hp

theorem size_lt (hmember : a.HasMember id owner) : id < a.linked.symbols.size :=
  Nat.lt_of_lt_of_le hmember.1 hp.hierarchy.programSize_le

theorem constructor_declared (href : a.HasConstructor ref) :
    (a.classContext ref.owner).decl.isInterface = false ∧
      ((a.classContext ref.owner).decl.constructors.isEmpty = true ∨
        ref.index < (a.classContext ref.owner).decl.constructors.length) :=
  Linked.constructor_declared hp.hierarchy.link (hp.size_lt href) href.2

/-- An invocation of a constructor starts a constructor. -/
theorem startsConstructor (hmember : a.HasMember id owner) {s : Stmt Mark}
    (hs : s ∈ (a.classContext id).decl.stmtsOf owner) (hinvocation : s.isInvocation = true) :
    a.StartsConstructor id owner s := by
  have hnodup := TypeDecl.stmtsOf_nodup (hp.checkable hmember.1).1 owner
  rcases ((hp.typed hmember.1).bodies owner hmember.2).stmt hs with ⟨visible, hadmits⟩ | hhead
  · cases s with
    | constructorCall => cases hadmits
    | _ => cases hinvocation
  · cases owner with
    | field | method => cases hhead
    | constructor index =>
      obtain ⟨body, hbody, hhead⟩ := Option.bind_eq_some_iff.mp hhead
      obtain ⟨-, rest, hstatements⟩ := Stmt.invocation?_eq_some.mp hhead
      have hconstructor : a.HasConstructor ⟨id, index⟩ := hmember
      refine ⟨(hp.constructor_declared hconstructor).1, index, body, rest, rfl, hbody,
        hstatements, Stmt.notMem_rest ?_ hstatements⟩
      rwa [TypeDecl.stmtsOf, hbody] at hnodup

/-- The constructors with a target are those that start with `this(...)`. -/
theorem isSome_target : (a.facts.targets.find? ref).isSome ↔
    a.HasConstructor ref ∧ (a.classContext ref.owner).StartsWithThis ref.index := by
  obtain ⟨hpasses, hothers⟩ := Linked.checkBodies_passes hp.hierarchy.recorded hp.bodies
  by_cases href : a.HasConstructor ref
  · obtain ⟨hid, howner⟩ := href
    have htarget := ((hpasses _ (List.mem_range.mpr hid) _ howner).find?_target
      (hp.checkable hid).2 howner).1
    exact htarget.trans (iff_and_self.mpr fun _ => ⟨hid, howner⟩)
  · rw [hothers ref (fun hid howner => href ⟨List.mem_range.mp hid, howner⟩)]
    exact iff_of_false nofun (fun h => href h.1)

/-- A target is a constructor of the same class. -/
theorem target_own {target : ConstructorRef} (h : a.facts.targets.find? ref = some target) :
    target.owner = ref.owner ∧ a.HasConstructor target := by
  obtain ⟨⟨hid, howner⟩, -⟩ := hp.isSome_target.mp (Option.isSome_of_eq_some h)
  obtain ⟨hpasses, -⟩ := Linked.checkBodies_passes hp.hierarchy.recorded hp.bodies
  obtain ⟨hsame, hindex⟩ := ((hpasses _ (List.mem_range.mpr hid) _ howner).find?_target
    (hp.checkable hid).2 howner).2 target h
  obtain ⟨other, index⟩ := target
  obtain rfl : other = ref.owner := hsame
  refine ⟨rfl, hid, ?_⟩
  exact ClassContext.constructor_mem_owners.mpr hindex

/-- Following targets stays among the constructors of a class. -/
theorem reaches_own {last : ConstructorRef} (href : a.HasConstructor ref)
    (hreach : Relation.ReflTransGen (Invokes a.facts.targets) ref last) :
    last.owner = ref.owner ∧ a.HasConstructor last := by
  induction hreach with
  | refl => exact ⟨rfl, href⟩
  | tail _ hstep ih =>
    obtain ⟨hsame, hlast⟩ := hp.target_own hstep
    exact ⟨hsame.trans ih.1, hlast⟩

/-- Following targets comes to an end. -/
theorem ends (ref : ConstructorRef) : Ends a.facts.targets ref :=
  ends_of_findRevisited (findRevisited_eq_none.mpr (Linked.checkFlow_eq_ok.mp hp.flow).1) ref

/-- A constructor without a target invokes one of the superclass, unless there is none. -/
theorem invokesSuper (href : a.HasConstructor ref) (hnone : a.facts.targets.find? ref = none) :
    (∃ target, a.InvokesSuper ref target) ∨
      ref.owner = a.linked.table.wellKnown.object ∧
        (a.linked.table.classAt ref.owner).superclass = none := by
  obtain ⟨hclass, hindex⟩ := hp.constructor_declared href
  obtain ⟨args, hargs⟩ := TypeDecl.exists_superArgs (hp.checkable href.1).1 hindex
    (fun mark args hthis => by
      have hsome := hp.isSome_target.mpr ⟨href, mark, args, hthis⟩
      rw [hnone] at hsome
      cases hsome)
  obtain ⟨types, htypes, hmay⟩ :=
    (hp.bodiesChecked.classes _ href.1).recorded href.2 (.super hargs)
  cases hsuper : (a.linked.table.classAt ref.owner).superclass with
  | none =>
    have hsize := hp.size_lt href
    have hinterface : (a.linked.table.classAt ref.owner).isInterface = false := by
      rw [SymbolTable.link_classAt hp.hierarchy.link hsize]
      exact hclass
    rw [← (SymbolTable.link_eq_ok hp.hierarchy.indexed hp.hierarchy.link).2.1] at hsize
    exact .inr ⟨hp.hierarchy.wellLinked.eq_object hsize hinterface hsuper, rfl⟩
  | some superclass =>
    obtain ⟨range, target, htarget⟩ := hmay superclass hsuper
    obtain ⟨hselect, -⟩ := BodyContext.invokedConstructor_eq_ok htarget
    obtain ⟨rfl, c, hc⟩ := BodyContext.selectConstructor_mem hselect
    exact .inl ⟨target, args, types, range, hargs, htypes, hsuper,
      (List.getElem?_eq_some_iff.mp hc).1, hselect⟩

end Passes

/-! ## §4 Circles -/

/-- Following the targets from a constructor comes to another one again and again. -/
def Revisits (targets : ConstructorTargets) (start ref : ConstructorRef) : Prop :=
  Relation.ReflTransGen (Invokes targets) start ref ∧ Relation.TransGen (Invokes targets) ref ref

namespace TypeTable

variable {t : TypeTable} {targets : ConstructorTargets}

theorem checkConstructorCycles_eq_error {violation : Violation}
    (h : t.checkConstructorCycles targets = .error violation) :
    ∃ ref ∈ targets.keys, violation = t.constructorCycleAt ref ∧
      Relation.TransGen (Invokes targets) ref ref := by
  unfold checkConstructorCycles at h
  split at h
  · rename_i revisited hrevisited
    cases h
    have hcycle := findRevisited_eq_some hrevisited
    obtain ⟨next, hnext, -⟩ := Relation.TransGen.head'_iff.mp hcycle
    refine ⟨revisited, ?_, rfl, hcycle⟩
    rw [OrderedMap.mem_keys_iff]
    exact Option.isSome_of_eq_some hnext
  · cases h

/-- The search fails exactly when following the targets from some constructor comes to one
that it comes to again. -/
theorem checkConstructorCycles_fails_iff :
    (∃ violation, t.checkConstructorCycles targets = .error violation) ↔
      ∃ start ∈ targets.keys, ∃ ref, Revisits targets start ref := by
  constructor
  · rintro ⟨violation, hfails⟩
    obtain ⟨ref, hkey, -, hcycle⟩ := checkConstructorCycles_eq_error hfails
    exact ⟨ref, hkey, ref, .refl, hcycle⟩
  · rintro ⟨_, -, ref, -, hcycle⟩
    unfold checkConstructorCycles
    cases hfind : findRevisited targets targets.keys [] with
    | some revisited => exact ⟨_, rfl⟩
    | none => exact absurd hcycle (findRevisited_eq_none.mp hfind ref)

end TypeTable

/-! ## §5 All invocations -/

/-- In an accepted program an invocation of a constructor stands nowhere but at the start of
a class constructor. A constructor has a target exactly when it starts with `this(...)`. The
target is a constructor of the same class, and following targets leads to a constructor
that invokes one of the superclass, unless the class is `java.lang.Object` and has none.
Whatever the targets are, the search for circles fails exactly when there is one, and reports
a constructor on a circle. -/
theorem constructor_invocations (h : analyze program config = .accepted a) :
    (∀ id owner, a.HasMember id owner → ∀ s ∈ (a.classContext id).decl.stmtsOf owner,
      s.isInvocation = true → a.StartsConstructor id owner s) ∧
    (∀ ref, (a.facts.targets.find? ref).isSome ↔
      a.HasConstructor ref ∧ (a.classContext ref.owner).StartsWithThis ref.index) ∧
    (∀ ref target, a.facts.targets.find? ref = some target →
      target.owner = ref.owner ∧ a.HasConstructor target) ∧
    (∀ ref, a.HasConstructor ref → ∃ last, a.HasConstructor last ∧
      Relation.ReflTransGen (Invokes a.facts.targets) ref last ∧
      a.facts.targets.find? last = none ∧
      ((∃ target, a.InvokesSuper last target) ∨
        last.owner = a.linked.table.wellKnown.object ∧
          (a.linked.table.classAt last.owner).superclass = none)) ∧
    ∀ (t : TypeTable) (targets : ConstructorTargets),
      ((∃ violation, t.checkConstructorCycles targets = .error violation) ↔
        ∃ start ∈ targets.keys, ∃ ref, Revisits targets start ref) ∧
      ∀ violation, t.checkConstructorCycles targets = .error violation →
        ∃ ref ∈ targets.keys, violation = t.constructorCycleAt ref ∧
          Relation.TransGen (Invokes targets) ref ref := by
  have hp := analyze_eq_accepted_iff.mp h
  refine ⟨fun id owner hmember s hs hinvocation => hp.startsConstructor hmember hs hinvocation,
    fun ref => hp.isSome_target, fun ref target htarget => hp.target_own htarget,
    fun ref href => ?_, fun t targets => ⟨TypeTable.checkConstructorCycles_fails_iff,
      fun violation hfails => TypeTable.checkConstructorCycles_eq_error hfails⟩⟩
  obtain ⟨last, hreach, hnone⟩ := (hp.ends ref).exists_last
  obtain ⟨-, hlast⟩ := hp.reaches_own href hreach
  exact ⟨last, hlast, hreach, hnone, hp.invokesSuper hlast hnone⟩

/-- A class with a constructor that invokes the other one. -/
def pointWithConstructors : Program :=
  { units := unitsOf [{ Library.classNamed "Point" with
      constructors := [
        { body := [.constructorCall () .this [.literal () (.int 0)]] },
        { params := [(Library.int, "x")], body := [] }] }] ++ coreUnits }

/-- The first constructor leads to one that invokes a constructor of the superclass. -/
theorem point_invokes_super :
    ∃ a, analyze pointWithConstructors { includeStdlib := false } = .accepted a ∧
      a.HasConstructor ⟨0, 0⟩ ∧ (a.facts.targets.find? ⟨0, 0⟩).isSome ∧
      ∃ last target, Relation.ReflTransGen (Invokes a.facts.targets) ⟨0, 0⟩ last ∧
        a.InvokesSuper last target := by
  obtain ⟨a, haccepted, htest⟩ := exists_accepted pointWithConstructors
    { includeStdlib := false }
    (fun a => decide (a.HasMember 0 (.constructor 0) ∧
      (a.facts.targets.find? ⟨0, 0⟩).isSome ∧ a.linked.table.wellKnown.object ≠ 0))
    (by decide +kernel)
  obtain ⟨hmember, htarget, hobject⟩ := of_decide_eq_true htest
  obtain ⟨-, -, hown, hchains, -⟩ := constructor_invocations haccepted
  refine ⟨a, haccepted, hmember, htarget, ?_⟩
  obtain ⟨last, -, hreach, -, ⟨target, hsuper⟩ | ⟨hlast, -⟩⟩ := hchains ⟨0, 0⟩ hmember
  · exact ⟨last, target, hreach, hsuper⟩
  · have hsame : last.owner = 0 := by
      clear hlast
      induction hreach with
      | refl => rfl
      | tail _ hstep ih => exact (hown _ _ hstep).1.trans ih
    exact absurd (hlast.symm.trans hsame) hobject

/-- An interface with a constructor that invokes itself behind an empty statement. -/
def shapeWithLateCall : Program :=
  { units := unitsOf [{ Library.interfaceNamed "Shape" with
      constructors := [{ body := [.empty (), .constructorCall () .this []] }] }] ++ coreUnits }

/-- The constructors that an interface is given are not type-checked: an invocation stands
behind another statement in an accepted program. And a `java.lang.Object` that belongs to the
program has a constructor that leads to no superclass. -/
theorem shape_misplaces_invocation :
    ∃ a, analyze shapeWithLateCall { includeStdlib := false } = .accepted a ∧
      0 < a.linked.symbols.programSize ∧
      (a.classContext 0).decl.invocation? (.constructor 0) = none ∧
      (∃ s ∈ (a.classContext 0).decl.stmtsOf (.constructor 0), s.isInvocation = true) ∧
      a.HasConstructor ⟨1, 0⟩ ∧ ∀ last target,
        Relation.ReflTransGen (Invokes a.facts.targets) ⟨1, 0⟩ last →
        ¬ a.InvokesSuper last target := by
  obtain ⟨a, haccepted, htest⟩ := exists_accepted shapeWithLateCall { includeStdlib := false }
    (fun a => decide (a.HasMember 1 (.constructor 0) ∧
        a.facts.targets.find? ⟨1, 0⟩ = none ∧ (a.linked.table.classAt 1).superclass = none) &&
      (((a.classContext 0).decl.invocation? (.constructor 0)).isNone &&
        ((a.classContext 0).decl.stmtsOf (.constructor 0)).any Stmt.isInvocation))
    (by decide +kernel)
  obtain ⟨hobject, hshape⟩ := Bool.and_eq_true .. ▸ htest
  obtain ⟨hmember, hnone, hsuper⟩ := of_decide_eq_true hobject
  obtain ⟨hhead, hany⟩ := Bool.and_eq_true .. ▸ hshape
  refine ⟨a, haccepted, Nat.zero_lt_of_lt hmember.1, Option.isNone_iff_eq_none.mp hhead,
    List.any_eq_true.mp hany, hmember, fun last target hreach => ?_⟩
  rcases Relation.ReflTransGen.cases_head hreach with rfl | ⟨next, hstep, -⟩
  · rintro ⟨_, _, _, -, -, hsome, -⟩
    rw [hsuper] at hsome
    cases hsome
  · cases hnone.symm.trans hstep

end JoosStatics
