/-
JoosStatics.Proofs.Bodies.Escapes — checked exceptions stay inside throws
clauses.

An exception escapes from a body that throws it, or that invokes a member from
whose body it escapes (`Analysis.Escapes`). A throws clause sums up what
escapes from a body: `escapes_declared` says so of every accepted program, by
induction on the invocations that lead to the throw statement.

The induction step needs that what covers a checked exception in the throws
clause of the invoked member is itself a checked exception. A clause that
names `java.lang.Object` or an interface covers exceptions that no caller is
asked to cover (`escapes_through_object`).
-/
import JoosStatics.Proofs.Analysis
import JoosStatics.Proofs.Hierarchy.Exceptions

namespace JoosStatics

namespace Analysis

variable {a : Analysis} {exception id : ClassId} {owner : BodyOwner}

/-! ## §1 Escaping exceptions -/

/-- What the checks of all bodies of a type have in common. -/
def classContext (a : Analysis) (id : ClassId) : ClassContext :=
  a.linked.classContext a.hierarchy id

/-- A type of the program has a member. -/
def HasMember (a : Analysis) (id : ClassId) (owner : BodyOwner) : Prop :=
  id < a.linked.symbols.programSize ∧ owner ∈ (a.classContext id).owners

/-- The throws clause of a member; a field has none. -/
def throwsOf (a : Analysis) (id : ClassId) : BodyOwner → List ClassId
  | .field _ => []
  | .method index => (a.linked.table.methodAt ⟨id, index⟩).throws
  | .constructor index => (a.linked.table.constructorAt ⟨id, index⟩).throws

/-- The type recorded for an expression in the bodies of a type. -/
def typeOf? (a : Analysis) (id : ClassId) (e : Expr Mark) : Option Ty :=
  (a.facts.classFacts id).types.find? e.note.id

/-- What an expression in the bodies of a type refers to. -/
def resolutionOf? (a : Analysis) (id : ClassId) (e : Expr Mark) : Option Resolution :=
  (a.facts.classFacts id).resolutions.find? e.note.id

/-- The body of a member invokes another member: by a call, a creation, or the
`this(...)` or `super(...)` that a constructor starts with. -/
inductive Invokes (a : Analysis) (id : ClassId) (owner : BodyOwner) : ClassId → BodyOwner → Prop
  | call {e : Expr Mark} {ref : MethodRef} (hmem : e ∈ (a.classContext id).decl.exprsOf owner)
      (href : a.resolutionOf? id e = some (.method ref)) :
      Invokes a id owner ref.owner (.method ref.index)
  | create {e : Expr Mark} {ref : ConstructorRef}
      (hmem : e ∈ (a.classContext id).decl.exprsOf owner)
      (href : a.resolutionOf? id e = some (.constructor ref)) :
      Invokes a id owner ref.owner (.constructor ref.index)
  | this {index : Nat} {ref : ConstructorRef} (howner : owner = .constructor index)
      (href : a.facts.targets.find? ⟨id, index⟩ = some ref) :
      Invokes a id owner ref.owner (.constructor ref.index)
  | super {index : Nat} {args : List (Expr Mark)} {types : List Ty} {superclass : ClassId}
      {range : Span} {ref : ConstructorRef} (howner : owner = .constructor index)
      (hargs : (a.classContext id).decl.superArgs? index = some args)
      (htypes : args.map (a.typeOf? id) = types.map some)
      (hsuper : (a.linked.table.classAt id).superclass = some superclass)
      (href : ((a.classContext id).bodyContext owner).selectConstructor superclass types range =
        .ok ref) :
      Invokes a id owner ref.owner (.constructor ref.index)

/-- An exception class escapes from the body of a member. -/
inductive Escapes (a : Analysis) (exception : ClassId) : ClassId → BodyOwner → Prop
  | thrown {id : ClassId} {owner : BodyOwner} {mark : Mark} {value : Expr Mark} {thrown : ClassId}
      (hmember : a.HasMember id owner)
      (hmem : .throwValue mark value ∈ (a.classContext id).decl.stmtsOf owner)
      (htype : a.typeOf? id value = some (.declared thrown))
      (hsub : a.linked.table.isSubclass exception thrown = true) : Escapes a exception id owner
  | invoked {id callee : ClassId} {owner calleeOwner : BodyOwner} (hmember : a.HasMember id owner)
      (hinvokes : a.Invokes id owner callee calleeOwner)
      (hescapes : Escapes a exception callee calleeOwner) : Escapes a exception id owner

/-- Exceptions escape from members of the program. -/
theorem Escapes.hasMember (h : a.Escapes exception id owner) : a.HasMember id owner := by
  cases h with
  | thrown hmember _ _ _ => exact hmember
  | invoked hmember _ _ => exact hmember

/-- Where an exception escapes, the throws clause covers it with throwable types
only. -/
def CoveredByThrowables (a : Analysis) (exception : ClassId) : Prop :=
  ∀ id owner, a.Escapes exception id owner → ∀ declared ∈ a.throwsOf id owner,
    a.linked.table.isSubclass exception declared = true →
    a.linked.table.isSubclass declared a.linked.table.wellKnown.throwable = true

/-! ## §2 Invocations pass the throws clause -/

theorem bodyContext_table (a : Analysis) (id : ClassId) (owner : BodyOwner) :
    ((a.classContext id).bodyContext owner).table = a.linked.table :=
  Linked.bodyContext_table ..

theorem bodyContext_throws (a : Analysis) (id : ClassId) (owner : BodyOwner) :
    ((a.classContext id).bodyContext owner).throws = a.throwsOf id owner := by
  cases owner <;> rfl

/-- The throws clause of a member covers the checked exceptions of a list. -/
theorem handles_iff {thrown : List ClassId} :
    ((a.classContext id).bodyContext owner).Handles thrown ↔
      ∀ e ∈ thrown, a.linked.table.isCheckedException e = true →
        a.linked.table.isCovered e (a.throwsOf id owner) = true := by
  rw [BodyContext.Handles, bodyContext_table, bodyContext_throws]

theorem selectConstructor_eq_ok {ctx : BodyContext} {superclass : ClassId} {types : List Ty}
    {range range' : Span} {ref ref' : ConstructorRef}
    (h : ctx.selectConstructor superclass types range = .ok ref)
    (h' : ctx.selectConstructor superclass types range' = .ok ref') : ref = ref' := by
  unfold BodyContext.selectConstructor BodyContext.selected at h h'
  simp only at h h'
  split at h
  · rename_i choice hfound
    rw [hfound] at h'
    cases h
    cases h'
    rfl
  · cases h
  · cases h

end Analysis

variable {program : Program} {config : Configuration} {a : Analysis} {exception id : ClassId}
  {owner : BodyOwner}

namespace Passes

/-- What an invoked member throws is handled around its invocation. -/
theorem handles_throwsOf (hp : Passes program config a) (hmember : a.HasMember id owner)
    {callee : ClassId} {calleeOwner : BodyOwner} (h : a.Invokes id owner callee calleeOwner) :
    ((a.classContext id).bodyContext owner).Handles (a.throwsOf callee calleeOwner) := by
  obtain ⟨hid, howner⟩ := hmember
  have hchecked := hp.bodiesChecked.classes id hid
  have hallows : ∀ {e res}, e ∈ (a.classContext id).decl.exprsOf owner →
      a.resolutionOf? id e = some res → ((a.classContext id).bodyContext owner).Allows res :=
    fun hmem hres => hchecked.allowed owner _ (List.mem_map.mpr ⟨_, hmem, rfl⟩) _ hres
  cases h with
  | call hmem href =>
    have h := hallows hmem href
    rwa [BodyContext.Allows, Analysis.bodyContext_table] at h
  | create hmem href =>
    have h := hallows hmem href
    rwa [BodyContext.Allows, Analysis.bodyContext_table] at h
  | this hconstructor href =>
    subst hconstructor
    exact hp.bodiesChecked.targets _ _ href
  | super hconstructor hargs htypes hsuper href =>
    subst hconstructor
    obtain ⟨types, hmap, hinvoke⟩ := hchecked.recorded howner (.super hargs)
    have heq := List.map_injective_iff.mpr (Option.some_injective _) (htypes.symm.trans hmap)
    subst heq
    obtain ⟨range, ref, hok⟩ := hinvoke _ hsuper
    obtain ⟨hselect, hhandles⟩ := BodyContext.invokedConstructor_eq_ok hok
    rwa [Analysis.selectConstructor_eq_ok hselect href] at hhandles

/-- The throws clause of a member covers what is thrown in its body. -/
theorem mayThrow (hp : Passes program config a) (hmember : a.HasMember id owner) {mark : Mark}
    {value : Expr Mark} {thrown : ClassId}
    (hmem : .throwValue mark value ∈ (a.classContext id).decl.stmtsOf owner)
    (htype : a.typeOf? id value = some (.declared thrown)) :
    a.linked.table.isSubclass thrown a.linked.table.wellKnown.throwable = true ∧
      ((a.classContext id).bodyContext owner).Handles [thrown] := by
  obtain ⟨hid, howner⟩ := hmember
  obtain ⟨types, hmap, hthrows⟩ :=
    (hp.bodiesChecked.classes id hid).recorded howner (.thrown hmem)
  have hthrown : types = [.declared thrown] := by
    refine List.map_injective_iff.mpr (Option.some_injective _) ?_
    rw [← hmap]
    exact congrArg (fun found => [found]) htype
  have hmay : ((a.classContext id).bodyContext owner).MayThrow (.declared thrown) :=
    hthrows _ (hthrown ▸ List.mem_cons_self ..)
  have h := hmay thrown rfl
  rwa [Analysis.bodyContext_table] at h

end Passes

/-! ## §3 Throws clauses sum up what escapes -/

/-- A handled list that covers a checked exception is covered in turn. -/
theorem Passes.covered (hp : Passes program config a)
    (hclass : (a.linked.table.classAt exception).isInterface = false)
    (hchecked : a.linked.table.isCheckedException exception = true) {thrown : List ClassId}
    (hhandles : ((a.classContext id).bodyContext owner).Handles thrown) {declared : ClassId}
    (hdeclared : declared ∈ thrown)
    (hsub : a.linked.table.isSubclass exception declared = true)
    (hthrowable :
      a.linked.table.isSubclass declared a.linked.table.wellKnown.throwable = true) :
    ∃ covering ∈ a.throwsOf id owner, a.linked.table.isSubclass exception covering = true := by
  have hl := hp.hierarchy.wellLinked
  have ha := hp.hierarchy.accepted
  have habove := ha.isCheckedException_above hl hclass hchecked hsub hthrowable
  obtain ⟨covering, hmem, hcovers⟩ :=
    TypeTable.isCovered_iff.mp (Analysis.handles_iff.mp hhandles declared hdeclared habove)
  exact ⟨covering, hmem, ha.isSubclass_trans hl hclass hchecked hsub hcovers⟩

/-- When the throws clauses of an accepted program cover a checked exception
class with throwable types only, it escapes from no field initializer, and the
throws clause of every body that it escapes from covers it. -/
theorem escapes_declared (haccepted : analyze program config = .accepted a)
    (hclass : (a.linked.table.classAt exception).isInterface = false)
    (hchecked : a.linked.table.isCheckedException exception = true)
    (hthrowables : a.CoveredByThrowables exception) :
    (∀ id owner, a.Escapes exception id owner → ∃ declared ∈ a.throwsOf id owner,
      a.linked.table.isSubclass exception declared = true) ∧
    ∀ id index, ¬ a.Escapes exception id (.field index) := by
  have hp := analyze_eq_accepted_iff.mp haccepted
  have hcovered : ∀ id owner, a.Escapes exception id owner → ∃ declared ∈ a.throwsOf id owner,
      a.linked.table.isSubclass exception declared = true := by
    intro id owner hescapes
    induction hescapes with
    | thrown hmember hmem htype hsub =>
      obtain ⟨hthrowable, hhandles⟩ := hp.mayThrow hmember hmem htype
      exact hp.covered hclass hchecked hhandles (List.mem_cons_self ..) hsub hthrowable
    | invoked hmember hinvokes hescapes ih =>
      obtain ⟨declared, hdeclared, hsub⟩ := ih
      have hthrowable := hthrowables _ _ hescapes declared hdeclared hsub
      have hhandles := hp.handles_throwsOf hmember hinvokes
      exact hp.covered hclass hchecked hhandles hdeclared hsub hthrowable
  refine ⟨hcovered, fun id index hescapes => ?_⟩
  obtain ⟨declared, hmem, -⟩ := hcovered id (.field index) hescapes
  cases hmem

/-! ## §4 Given programs -/

namespace Analysis

/-- Whether a statement throws a value of a class above an exception. -/
def throwsAbove (a : Analysis) (exception id : ClassId) : Stmt Mark → Bool
  | .throwValue _ value =>
    match a.typeOf? id value with
    | some (.declared thrown) => a.linked.table.isSubclass exception thrown
    | _ => false
  | _ => false

theorem Escapes.of_throwsAbove (hmember : a.HasMember id owner)
    (h : ((a.classContext id).decl.stmtsOf owner).any (a.throwsAbove exception id) = true) :
    a.Escapes exception id owner := by
  obtain ⟨s, hmem, htest⟩ := List.any_eq_true.mp h
  unfold throwsAbove at htest
  split at htest
  · split at htest
    · rename_i htype
      exact .thrown hmember hmem htype htest
    · cases htest
  · cases htest

theorem Invokes.of_resolution {ref : MethodRef}
    (h : ((a.classContext id).decl.exprsOf owner).any
      (fun e => a.resolutionOf? id e == some (.method ref)) = true) :
    a.Invokes id owner ref.owner (.method ref.index) := by
  obtain ⟨e, hmem, htest⟩ := List.any_eq_true.mp h
  exact .call hmem (eq_of_beq htest)

instance (a : Analysis) (id : ClassId) (owner : BodyOwner) : Decidable (a.HasMember id owner) :=
  inferInstanceAs (Decidable (_ ∧ _))

/-- Whether an exception is thrown in the first method of a type and called from
there by the second one. -/
def escapesTwice (a : Analysis) (exception id : ClassId) : Bool :=
  decide (a.HasMember id (.method 0)) && decide (a.HasMember id (.method 1)) &&
    ((a.classContext id).decl.stmtsOf (.method 0)).any (a.throwsAbove exception id) &&
    ((a.classContext id).decl.exprsOf (.method 1)).any
      (fun e => a.resolutionOf? id e == some (.method ⟨id, 0⟩))

theorem Escapes.of_escapesTwice (h : a.escapesTwice exception id = true) :
    a.Escapes exception id (.method 1) := by
  simp only [escapesTwice, Bool.and_eq_true, decide_eq_true_eq] at h
  obtain ⟨⟨⟨hthrower, hcaller⟩, hthrows⟩, hcalls⟩ := h
  exact .invoked hcaller (.of_resolution hcalls) (.of_throwsAbove hthrower hthrows)

end Analysis

/-- A class with a method that throws a checked exception and a method that
calls it. -/
def workerWith (failThrows runThrows : List TypeRef) : Program :=
  { units := unitsOf [{ Library.classNamed "Worker" with
      methods := [
        { Library.procedure "fail" with
          throws := failThrows
          body := some [.throwValue () (.create () (.ofDotted "Exception") [])] },
        { Library.procedure "run" with
          throws := runThrows
          body := some [.expression () (.call () "fail" [])] }] }] ++ coreUnits }

/-- An exception escapes from a method that throws it and from one that calls
that method; both declare it. -/
theorem worker_declares_exception :
    ∃ a, analyze (workerWith [.ofDotted "Exception"] [.ofDotted "Throwable"])
        { includeStdlib := false } = .accepted a ∧
      a.Escapes 5 0 (.method 1) ∧
      ∃ declared ∈ a.throwsOf 0 (.method 1), a.linked.table.isSubclass 5 declared = true := by
  obtain ⟨a, haccepted, htest⟩ := exists_accepted
    (workerWith [.ofDotted "Exception"] [.ofDotted "Throwable"]) { includeStdlib := false }
    (fun a => a.escapesTwice 5 0 && decide (
      (a.linked.table.classAt 5).isInterface = false ∧
      a.linked.table.isCheckedException 5 = true ∧
      ∀ id < a.linked.symbols.programSize, ∀ owner ∈ (a.classContext id).owners,
        ∀ declared ∈ a.throwsOf id owner, a.linked.table.isSubclass 5 declared = true →
        a.linked.table.isSubclass declared a.linked.table.wellKnown.throwable = true))
    (by decide +kernel)
  obtain ⟨htwice, htest⟩ := Bool.and_eq_true .. ▸ htest
  obtain ⟨hclass, hchecked, hclauses⟩ := of_decide_eq_true htest
  have hescapes := Analysis.Escapes.of_escapesTwice htwice
  have hthrowables : a.CoveredByThrowables 5 := fun id owner h =>
    hclauses id h.hasMember.1 owner h.hasMember.2
  exact ⟨a, haccepted, hescapes,
    (escapes_declared haccepted hclass hchecked hthrowables).1 0 (.method 1) hescapes⟩

/-- A throws clause that names `java.lang.Object` hides a checked exception from
the callers: it escapes from a method without a throws clause. -/
theorem escapes_through_object :
    ∃ a, analyze (workerWith [.ofDotted "Object"] []) { includeStdlib := false } = .accepted a ∧
      (a.linked.table.classAt 5).isInterface = false ∧
      a.linked.table.isCheckedException 5 = true ∧
      a.Escapes 5 0 (.method 1) ∧ a.throwsOf 0 (.method 1) = [] := by
  obtain ⟨a, haccepted, htest⟩ := exists_accepted
    (workerWith [.ofDotted "Object"] []) { includeStdlib := false }
    (fun a => a.escapesTwice 5 0 && decide (
      (a.linked.table.classAt 5).isInterface = false ∧
      a.linked.table.isCheckedException 5 = true ∧ a.throwsOf 0 (.method 1) = []))
    (by decide +kernel)
  obtain ⟨htwice, htest⟩ := Bool.and_eq_true .. ▸ htest
  obtain ⟨hclass, hchecked, hnone⟩ := of_decide_eq_true htest
  exact ⟨a, haccepted, hclass, hchecked, Analysis.Escapes.of_escapesTwice htwice, hnone⟩

end JoosStatics
