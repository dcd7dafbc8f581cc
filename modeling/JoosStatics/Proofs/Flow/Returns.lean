/-
JoosStatics.Proofs.Flow.Returns — methods with a result do not fall off their
end.

The type checker makes sure that every `return` of such a method has a value,
reachability that its body does not complete. Together they leave an execution
nothing but a value or an exception (`executions_return`), as long as a loop
catches every `break`.

No stage asks for that loop. A `break` leaves a method that has none around it,
and a `break` in the initializer of a `for` loop leaves the loop around that one,
which reachability does not expect (`break_falls_off`).

* `Executes.completion_sound` — how an execution ends has been computed. Unlike
  `completion_exact` it needs neither distinct statements nor plain initializers.
-/
import JoosStatics.Proofs.Flow.Checked
import JoosStatics.Proofs.Flow.Reachability
import JoosStatics.Proofs.Bodies.Escapes
import JoosStatics.Proofs.Typing.Bodies

namespace JoosStatics

/-! ## §1 Breaks that a loop catches -/

mutual

/-- Whether some `break` in a statement is not inside the body of a loop. One in the
initializer of a `for` loop is not, whatever stands around the loop. -/
def Stmt.hasStrayBreak {α : Type} (caught : Bool) : Stmt α → Bool
  | .block _ stmts => listHasStrayBreak caught stmts
  | .branch _ _ thenBranch elseBranch =>
    thenBranch.hasStrayBreak caught || optionHasStrayBreak caught elseBranch
  | .whileLoop _ _ body => body.hasStrayBreak true
  | .forLoop _ init _ _ body => optionHasStrayBreak false init || body.hasStrayBreak true
  | .breakLoop _ => !caught
  | _ => false
termination_by structural s => s

def listHasStrayBreak {α : Type} (caught : Bool) : List (Stmt α) → Bool
  | [] => false
  | s :: ss => s.hasStrayBreak caught || listHasStrayBreak caught ss
termination_by structural ss => ss

def optionHasStrayBreak {α : Type} (caught : Bool) : Option (Stmt α) → Bool
  | none => false
  | some s => s.hasStrayBreak caught
termination_by structural s => s

end

theorem listHasStrayBreak_toList {α : Type} (caught : Bool) (s : Option (Stmt α)) :
    listHasStrayBreak caught s.toList = optionHasStrayBreak caught s := by
  cases s with
  | none => rfl
  | some s => exact Bool.or_false _

namespace Task

/-- Whether some `break` in a task is not inside the body of a loop. -/
def hasStrayBreak (caught : Bool) : Task → Bool
  | .one s => s.hasStrayBreak caught
  | .sequence ss => listHasStrayBreak caught ss
  | .loop _ body => body.hasStrayBreak true

/-- How control leaves a task, as it is computed. -/
def completion : Task → Reach Completion
  | .one s => s.completion
  | .sequence ss => blockCompletion .ordinary ss
  | .loop condition body => loopCompletion condition body body.completion

end Task

/-! ## §2 Endings are computed -/

theorem blockCompletion_toList (s : Option (Stmt Mark)) :
    blockCompletion .ordinary s.toList = optionalCompletion s := by
  cases s with
  | none => rfl
  | some s =>
    show (s.completion >>= fun c => blockCompletion ⟨c.normal, false || c.breaks⟩ []) =
      s.completion
    cases s.completion <;> rfl

/-- A way to end a task that the computed completion allows for. -/
def Completion.Allows (c : Completion) (caught : Bool) : Ending → Prop
  | .normal => c.normal = true
  | .broken => c.breaks = true ∧ caught = true
  | _ => True

namespace Completion.Allows

variable {c d : Completion} {caught : Bool} {ending : Ending}

theorem join_left (h : c.Allows caught ending) : (c.join d).Allows caught ending := by
  cases ending with
  | normal => exact Bool.or_eq_true_iff.mpr (.inl h)
  | broken => exact ⟨Bool.or_eq_true_iff.mpr (.inl h.1), h.2⟩
  | _ => trivial

theorem join_right (h : d.Allows caught ending) : (c.join d).Allows caught ending := by
  cases ending with
  | normal => exact Bool.or_eq_true_iff.mpr (.inr h)
  | broken => exact ⟨Bool.or_eq_true_iff.mpr (.inr h.1), h.2⟩
  | _ => trivial

/-- Statements behind one that may break. -/
theorem behind (h : d.Allows caught ending) (breaks : Bool) :
    Allows ⟨d.normal, breaks || d.breaks⟩ caught ending := by
  cases ending with
  | normal => exact h
  | broken => exact ⟨Bool.or_eq_true_iff.mpr (.inr h.1), h.2⟩
  | _ => trivial

/-- A statement that ends what it stands in. -/
theorem of_breaks (h : c.Allows caught ending) (hending : ending ≠ .normal)
    (hbreaks : c.breaks = true → d.breaks = true) : d.Allows caught ending := by
  cases ending with
  | normal => exact absurd rfl hending
  | broken => exact ⟨hbreaks h.1, h.2⟩
  | _ => trivial

/-- The body of a loop that ends the loop. -/
theorem ofLoop (h : c.Allows true ending) (hending : ending ≠ .normal)
    (hbreaks : c.breaks = true → d.normal = true) : d.Allows caught ending.ofLoop := by
  cases ending with
  | normal => exact absurd rfl hending
  | broken => exact hbreaks h.1
  | _ => trivial

/-- A break that nothing catches does not take place. -/
theorem of_uncaught (h : c.Allows false ending) (hending : ending ≠ .normal) :
    d.Allows caught ending := by
  cases ending with
  | normal => exact absurd rfl hending
  | broken => cases h.2
  | _ => trivial

/-- A statement without statements inside it. -/
theorem of_simple {s : Stmt Mark} (hs : s.simpleEnding? = some ending)
    (hstray : s.hasStrayBreak caught = false) (hc : s.completion = .ok c) :
    c.Allows caught ending := by
  cases s with
  | block | branch | whileLoop | forLoop => cases hs
  | breakLoop =>
    cases hs
    cases hc
    exact ⟨rfl, by simpa [Stmt.hasStrayBreak] using hstray⟩
  | _ =>
    cases hs
    cases hc
    trivial

end Completion.Allows

/-- The completion of a sequence is computed from that of its first statement. -/
theorem exists_of_blockCompletion_cons {s : Stmt Mark} {ss : List (Stmt Mark)} {c : Completion}
    (h : blockCompletion .ordinary (s :: ss) = .ok c) :
    ∃ first, s.completion = .ok first ∧ (first.breaks = true → c.breaks = true) ∧
      (first.normal = true → ∃ rest, blockCompletion .ordinary ss = .ok rest ∧
        c = ⟨rest.normal, first.breaks || rest.breaks⟩) := by
  rw [blockCompletion_cons] at h
  obtain ⟨first, hfirst, h⟩ := bind_eq_ok.mp h
  refine ⟨first, hfirst, ?_⟩
  split at h
  · cases hrest : blockCompletion .ordinary ss with
    | error part =>
      rw [hrest] at h
      cases h
    | ok rest =>
      rw [hrest] at h
      cases h
      exact ⟨fun hbreaks => Bool.or_eq_true_iff.mpr (.inl hbreaks), fun _ => ⟨rest, rfl, rfl⟩⟩
  · rename_i hnormal
    cases ss with
    | nil =>
      cases h
      exact ⟨id, fun hfirst => absurd hfirst hnormal⟩
    | cons next ss => cases h

/-- A loop completes when its condition may be false or its body breaks. -/
theorem exists_of_loopCompletion {condition : Option Constant} {body : Stmt Mark}
    {bodyCompletion : Reach Completion} {c : Completion}
    (h : loopCompletion condition body bodyCompletion = .ok c) :
    ∃ inner, bodyCompletion = .ok inner ∧ (MayBe condition false → c.normal = true) ∧
      (inner.breaks = true → c.normal = true) := by
  unfold loopCompletion at h
  split at h
  · cases h
  · cases bodyCompletion with
    | error part => cases h
    | ok inner =>
      cases h
      exact ⟨inner, rfl, fun hfalse => absurd rfl hfalse, id⟩
  · cases bodyCompletion with
    | error part => cases h
    | ok inner =>
      cases h
      exact ⟨inner, rfl, fun _ => rfl, fun _ => rfl⟩

/-- An execution ends in a way that the computed completion allows for, if the breaks that
leave the task are caught. -/
theorem Executes.completion_sound {task : Task} {reached : List (Stmt Mark)} {ending : Ending}
    (h : Executes task reached ending) {caught : Bool} {c : Completion}
    (hstray : task.hasStrayBreak caught = false) (hc : task.completion = .ok c) :
    c.Allows caught ending := by
  induction h generalizing caught c with
  | start | test => trivial
  | simple hs => exact .of_simple hs hstray hc
  | block _ ih => exact ih hstray hc
  | thenBranch _ ih =>
    obtain ⟨hthen, -⟩ := Bool.or_eq_false_iff.mp hstray
    obtain ⟨first, hfirst, hc⟩ := bind_eq_ok.mp hc
    obtain ⟨second, -, hc⟩ := bind_eq_ok.mp hc
    cases hc
    have hallows : first.Allows _ _ := ih hthen hfirst
    exact hallows.join_left
  | elseBranch _ ih =>
    obtain ⟨-, helse⟩ := Bool.or_eq_false_iff.mp hstray
    obtain ⟨first, -, hc⟩ := bind_eq_ok.mp hc
    obtain ⟨second, hsecond, hc⟩ := bind_eq_ok.mp hc
    cases hc
    have hallows : second.Allows _ _ := ih ((listHasStrayBreak_toList _ _).trans helse)
      ((blockCompletion_toList _).trans hsecond)
    exact hallows.join_right
  | whileLoop _ ih => exact ih hstray hc
  | forInit _ hending ih =>
    obtain ⟨hinit, -⟩ := Bool.or_eq_false_iff.mp hstray
    obtain ⟨first, hfirst, -⟩ := bind_eq_ok.mp hc
    -- Nothing catches a `break` in the initializer, and there is none.
    have hallows : first.Allows false _ := ih ((listHasStrayBreak_toList _ _).trans hinit)
      ((blockCompletion_toList _).trans hfirst)
    exact hallows.of_uncaught hending
  | forLoop _ _ _ ih =>
    obtain ⟨-, hbody⟩ := Bool.or_eq_false_iff.mp hstray
    obtain ⟨_, -, hc⟩ := bind_eq_ok.mp hc
    exact ih hbody hc
  | finished =>
    cases hc
    rfl
  | next _ _ ihs ih =>
    obtain ⟨hfirst, hrest⟩ := Bool.or_eq_false_iff.mp hstray
    obtain ⟨first, hs, -, hnext⟩ := exists_of_blockCompletion_cons hc
    obtain ⟨rest, hss, rfl⟩ := hnext (ihs hfirst hs)
    have hallows : rest.Allows _ _ := ih hrest hss
    exact hallows.behind _
  | last _ hending ihs =>
    obtain ⟨hfirst, -⟩ := Bool.or_eq_false_iff.mp hstray
    obtain ⟨first, hs, hbreaks, -⟩ := exists_of_blockCompletion_cons hc
    have hallows : first.Allows _ _ := ihs hfirst hs
    exact hallows.of_breaks hending hbreaks
  | exit hfalse =>
    obtain ⟨inner, -, hnormal, -⟩ := exists_of_loopCompletion hc
    exact hnormal hfalse
  | again _ _ _ _ ih => exact ih hstray hc
  | leave _ _ hending ih =>
    obtain ⟨inner, hinner, -, hbreaks⟩ := exists_of_loopCompletion hc
    have hallows : inner.Allows true _ := ih hstray hinner
    exact hallows.ofLoop hending hbreaks

/-! ## §3 Values that are returned -/

/-- An execution that ends with a `return` reaches it. -/
theorem Executes.exists_return {task : Task} {reached : List (Stmt Mark)} {ending : Ending}
    (h : Executes task reached ending) {withValue : Bool} (hending : ending = .returned withValue) :
    ∃ mark value, .returnValue mark value ∈ reached ∧ value.isSome = withValue := by
  induction h with
  | start | finished | test | exit => cases hending
  | @simple s ending hs =>
    subst hending
    cases s with
    | returnValue mark value =>
      cases hs
      exact ⟨mark, value, List.mem_singleton_self _, rfl⟩
    | _ => cases hs
  | block _ ih | thenBranch _ ih | elseBranch _ ih | whileLoop _ ih | forInit _ _ ih =>
    obtain ⟨mark, value, hmem, hvalue⟩ := ih hending
    exact ⟨mark, value, List.mem_cons_of_mem _ hmem, hvalue⟩
  | forLoop _ _ _ ih =>
    obtain ⟨mark, value, hmem, hvalue⟩ := ih hending
    exact ⟨mark, value, List.mem_cons_of_mem _ (List.mem_append_right _ hmem), hvalue⟩
  | next _ _ _ ih | again _ _ _ _ ih =>
    obtain ⟨mark, value, hmem, hvalue⟩ := ih hending
    exact ⟨mark, value, List.mem_append_right _ hmem, hvalue⟩
  | last _ _ ih => exact ih hending
  | @leave _ _ _ ending _ _ _ ih =>
    refine ih ?_
    cases ending <;> first | exact hending | cases hending

variable {program : Program} {config : Configuration} {a : Analysis} {id : ClassId} {index : Nat}
  {body : Stmt Mark}

/-- Every `return` in a method with a result has a value. -/
theorem Passes.isSome_of_return (hp : Passes program config a)
    (hmember : a.HasMember id (.method index))
    (hbody : (a.classContext id).decl.methodTree? index = some body)
    (hresult : (a.linked.table.methodAt ⟨id, index⟩).returnType ≠ .void) {mark : Mark}
    {value : Option (Expr Mark)} (hmem : .returnValue mark value ∈ body.parts) :
    value.isSome = true := by
  have htyped := (hp.typed hmember.1).bodies (.method index) hmember.2
  have hstmt : .returnValue mark value ∈ (a.classContext id).decl.stmtsOf (.method index) := by
    rw [TypeDecl.stmtsOf, hbody]
    exact hmem
  rcases htyped.stmt hstmt with ⟨_, hrule⟩ | hhead
  · cases value with
    | none => exact absurd hrule hresult
    | some value => rfl
  · cases hhead

/-- In an accepted program every execution of a method with a result that comes to an end
returns a value or throws an exception, if every `break` of the method is inside the body
of a loop. -/
theorem executions_return (h : analyze program config = .accepted a)
    (hmember : a.HasMember id (.method index))
    (hbody : (a.classContext id).decl.methodTree? index = some body)
    (hresult : (a.linked.table.methodAt ⟨id, index⟩).returnType ≠ .void)
    (hstray : body.hasStrayBreak false = false) {reached : List (Stmt Mark)} {ending : Ending}
    (hrun : Executes (.one body) reached ending) (hending : ending ≠ .running) :
    ending = .returned true ∨ ending = .thrown := by
  have hp := analyze_eq_accepted_iff.mp h
  have hflow := ((Linked.checkFlow_eq_ok.mp hp.flow).2 id (List.mem_range.mpr hmember.1))
  have hmethod := (ClassContext.flowViolations_eq_nil.mp hflow).1 index hmember.2
  obtain ⟨c, hc, hvoid⟩ := ClassContext.methodFlow_eq_none.mp hmethod body hbody
  have hallows := hrun.completion_sound hstray hc
  cases ending with
  | normal => exact absurd (hvoid hallows) hresult
  | broken => cases hallows.2
  | returned withValue =>
    obtain ⟨mark, value, hmem, hvalue⟩ := hrun.exists_return rfl
    have hsome := hp.isSome_of_return hmember hbody hresult (hrun.subset_parts hmem)
    exact .inl (congrArg Ending.returned (hvalue.symm.trans hsome))
  | thrown => exact .inr rfl
  | running => exact absurd rfl hending

/-- A class with one method, whose result is an `int`. -/
def mainType (body : List (Stmt Unit)) : TypeBlueprint :=
  { Library.classNamed "Main" with
    methods := [{ Library.method "run" Library.int with body := some body }] }

def mainWith (body : List (Stmt Unit)) : Program :=
  { units := unitsOf [mainType body] ++ coreUnits }

/-- Whether an analysis has the method with its body. -/
def Analysis.hasMain (body : List (Stmt Unit)) (a : Analysis) : Bool :=
  decide (a.HasMember 0 (.method 0) ∧ (a.linked.table.methodAt ⟨0, 0⟩).returnType ≠ .void ∧
    (a.classContext 0).decl = (mainType body).toDecl)

theorem exists_main {body : List (Stmt Unit)} {tree : Stmt Mark}
    (h : acceptedWith (mainWith body) { includeStdlib := false } (Analysis.hasMain body) = true)
    (htree : (mainType body).toDecl.methodTree? 0 = some tree) :
    ∃ a, analyze (mainWith body) { includeStdlib := false } = .accepted a ∧
      a.HasMember 0 (.method 0) ∧ (a.linked.table.methodAt ⟨0, 0⟩).returnType ≠ .void ∧
      (a.classContext 0).decl.methodTree? 0 = some tree := by
  obtain ⟨a, haccepted, hmain⟩ := exists_accepted _ _ _ h
  obtain ⟨hmember, hresult, hdecl⟩ := of_decide_eq_true hmain
  exact ⟨a, haccepted, hmember, hresult, hdecl ▸ htree⟩

/-- A `break` ends an endless loop, and the method returns a value. -/
theorem main_returns_after_loop :
    ∃ a body reached, analyze (mainWith [.whileLoop () (.literal () (.bool true)) (.breakLoop ()),
          .returnValue () (some (.literal () (.int 0)))]) { includeStdlib := false } =
        .accepted a ∧
      a.HasMember 0 (.method 0) ∧ (a.classContext 0).decl.methodTree? 0 = some body ∧
      (a.linked.table.methodAt ⟨0, 0⟩).returnType ≠ .void ∧ body.hasStrayBreak false = false ∧
      Executes (.one body) reached (.returned true) ∧
      (Ending.returned true = .returned true ∨ Ending.returned true = .thrown) := by
  obtain ⟨a, haccepted, hmember, hresult, hbody⟩ := exists_main (by decide +kernel)
    (show (mainType [.whileLoop () (.literal () (.bool true)) (.breakLoop ()),
        .returnValue () (some (.literal () (.int 0)))]).toDecl.methodTree? 0 =
      some (.block ⟨3, {}⟩ [
        .whileLoop ⟨1, {}⟩ (.literal ⟨0, {}⟩ (.bool true)) (.breakLoop ⟨0, {}⟩),
        .returnValue ⟨2, {}⟩ (some (.literal ⟨1, {}⟩ (.int 0)))]) from rfl)
  have hbreak : Executes (.one (.breakLoop ⟨0, {}⟩)) _ .broken := .simple rfl
  have hrun : Executes (.one (.block ⟨3, {}⟩ [
      .whileLoop ⟨1, {}⟩ (.literal ⟨0, {}⟩ (.bool true)) (.breakLoop ⟨0, {}⟩),
      .returnValue ⟨2, {}⟩ (some (.literal ⟨1, {}⟩ (.int 0)))])) _ (.returned true) :=
    .block (.next (.whileLoop (.leave (by decide) hbreak (by decide))) (.last (.simple rfl) (by decide)))
  exact ⟨a, _, _, haccepted, hmember, hbody, hresult, rfl, hrun,
    executions_return haccepted hmember hbody hresult rfl hrun (by decide)⟩

/-- A `break` without a loop around it, and one in the initializer of a `for` loop: either
method is accepted and falls off its end. -/
theorem break_falls_off :
    (∃ a note mark, analyze (mainWith [.breakLoop ()]) { includeStdlib := false } = .accepted a ∧
      a.HasMember 0 (.method 0) ∧ (a.linked.table.methodAt ⟨0, 0⟩).returnType ≠ .void ∧
      (a.classContext 0).decl.methodTree? 0 = some (.block note [.breakLoop mark]) ∧
      (Task.one (.block note [.breakLoop mark])).MayEnd .broken) ∧
    ∃ a body, analyze (mainWith [.whileLoop () (.literal () (.bool true))
          (.forLoop () (some (.breakLoop ())) none none (.empty ()))]) { includeStdlib := false } =
        .accepted a ∧
      a.HasMember 0 (.method 0) ∧ (a.linked.table.methodAt ⟨0, 0⟩).returnType ≠ .void ∧
      (a.classContext 0).decl.methodTree? 0 = some body ∧ (Task.one body).MayEnd .normal := by
  constructor
  · obtain ⟨a, haccepted, hmember, hresult, hbody⟩ := exists_main (by decide +kernel)
      (show (mainType [.breakLoop ()]).toDecl.methodTree? 0 =
        some (.block ⟨1, {}⟩ [.breakLoop ⟨0, {}⟩]) from rfl)
    exact ⟨a, _, _, haccepted, hmember, hresult, hbody, _, .block (.last (.simple rfl) (by decide))⟩
  · obtain ⟨a, haccepted, hmember, hresult, hbody⟩ := exists_main (by decide +kernel)
      (show (mainType [.whileLoop () (.literal () (.bool true))
          (.forLoop () (some (.breakLoop ())) none none (.empty ()))]).toDecl.methodTree? 0 =
        some (.block ⟨4, {}⟩ [.whileLoop ⟨3, {}⟩ (.literal ⟨0, {}⟩ (.bool true))
          (.forLoop ⟨2, {}⟩ (some (.breakLoop ⟨0, {}⟩)) none none (.empty ⟨1, {}⟩))]) from rfl)
    -- The `break` leaves the `for` loop, which is the body of the other one.
    have hinner : Executes (.one (.forLoop ⟨2, {}⟩ (some (.breakLoop ⟨0, {}⟩)) none none
        (.empty ⟨1, {}⟩))) _ .broken := .forInit (.last (.simple rfl) (by decide)) (by decide)
    exact ⟨a, _, haccepted, hmember, hresult, hbody,
      _, .block (.next (.whileLoop (.leave (by decide) hinner (by decide))) .finished)⟩

end JoosStatics
