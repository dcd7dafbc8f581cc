/-
JoosStatics.Proofs.Typing.Statements — the check of a statement accepts every
statement inside it.

`BodyContext.Accepts` is what one statement of a body keeps by the recorded
facts, given the variables that are visible in front of it: its own rule, and
a type and an explanation for each of its operands.

* `checkStmt_establishes` — a successful check leaves facts by which each
  statement is accepted where `ClassContext.placed` puts it. The variables of
  the scope that is returned are those that the statement declares, in front
  of those that were visible before.
-/
import JoosStatics.Proofs.Typing.Expressions
import JoosStatics.Proofs.Typing.Scoping

namespace JoosStatics

/-! ## §1 Statements that are accepted -/

/-- The slots of everything inside a statement. -/
def Stmt.slots (s : Stmt Mark) : List Slot := s.exprIds.flatMap Slot.both

theorem Stmt.slots_eq (s : Stmt Mark) :
    s.slots = s.exprChildren.flatMap Expr.slots ++ s.stmtChildren.flatMap Stmt.slots := by
  unfold Stmt.slots Expr.slots
  rw [Stmt.exprIds_eq, List.flatMap_append, List.flatMap_assoc, List.flatMap_assoc]

/-- A statement without statements inside it. -/
theorem Stmt.slots_of_leaf {s : Stmt Mark} (h : s.stmtChildren = []) :
    s.slots = s.exprChildren.flatMap Expr.slots := by
  rw [slots_eq, h, List.flatMap_nil, List.append_nil]

namespace BodyContext

/-- What the check of an expression at a place knows: there is no `this` among the
arguments of `this(...)` and `super(...)`. -/
def inPlace (ctx : BodyContext) (place : Place) : BodyContext :=
  match place.inInvocation with
  | true => { ctx with thisForbidden := true }
  | false => ctx

/-- An outermost expression has a type, and it is explained with the variables that
are visible at its place. -/
def Describes (ctx : BodyContext) (facts : ClassFacts) (place : Place) (e : Expr Mark) : Prop :=
  (∃ type, facts.typeOf? e = some type) ∧ ∃ scope : Scope, scope.vars = place.visible ∧
    scope.Within facts ∧ (ctx.inPlace place).ExplainsIn facts scope e

/-- A statement keeps its rule, and its operands are described, where the given
variables are visible in front of it. -/
structure Accepts (ctx : BodyContext) (facts : ClassFacts) (visible : List LocalVar)
    (s : Stmt Mark) : Prop where
  rule : ctx.Admits facts visible s
  operands : ∀ e ∈ s.exprChildren,
    ctx.Describes facts ⟨ctx.visibleInside visible s, s.isInvocation⟩ e

variable {ctx : BodyContext}

theorem Finds.describes {facts : ClassFacts} {scope : Scope} {e : Expr Mark} {type : Ty}
    (h : ctx.Finds scope e facts type) (hscope : scope.Within facts) :
    ctx.Describes facts ⟨scope.vars, false⟩ e :=
  ⟨⟨type, h.1⟩, scope, rfl, hscope, h.2⟩

/-- What the check of an operand finds out where a type is expected. -/
def Fits (ctx : BodyContext) (scope : Scope) (expected : Ty) (facts : ClassFacts)
    (e : Expr Mark) : Prop :=
  ctx.HasAssignable facts e expected ∧ ctx.ExplainsIn facts scope e

theorem Fits.describes {facts : ClassFacts} {scope : Scope} {e : Expr Mark} {expected : Ty}
    (h : ctx.Fits scope expected facts e) (hscope : scope.Within facts) :
    ctx.Describes facts ⟨scope.vars, false⟩ e := by
  obtain ⟨⟨found, hfound, -⟩, hin⟩ := h
  exact Finds.describes ⟨hfound, hin⟩ hscope

/-! ## §2 Operands -/

open Establishes

/-- The value of an operand may be assigned where a type is expected. -/
theorem inferAssignable_establishes (ctx : BodyContext) (scope : Scope) (expected : Ty)
    (e : Expr Mark) :
    Establishes ctx.symbols e.slots
      (inferExpr ctx scope e >>= fun found =>
        CheckM.rule (ctx.requireAssignable found expected e.range))
      (fun facts _ => ctx.Fits scope expected facts e) := by
  rw [← List.append_nil e.slots]
  refine (inferExpr_establishes ctx scope e).bind (fun found => rule.mono ?_)
  rintro facts _ hassign ⟨hfound, hin⟩
  exact ⟨⟨found, hfound, requireAssignable_eq_ok.mp hassign⟩, hin⟩

/-- An operand that may be missing. -/
theorem establishes_toList {e : Option (Expr Mark)} {x : CheckM Unit}
    {P : ClassFacts → Expr Mark → Prop} (hnone : e = none → x = Pure.pure ())
    (hsome : ∀ value, e = some value →
      Establishes ctx.symbols value.slots x (fun facts _ => P facts value)) :
    Establishes ctx.symbols (e.toList.flatMap Expr.slots) x
      (fun facts _ => ∀ value ∈ e.toList, P facts value) := by
  cases e with
  | none =>
    rw [hnone rfl]
    exact .pure _ (fun _ => List.forall_mem_nil _)
  | some value =>
    rw [Option.toList_some, List.flatMap_singleton]
    exact (hsome value rfl).mono (fun _ _ h => List.forall_mem_singleton.mpr h)

theorem checkInitializer_establishes (ctx : BodyContext) (scope : Scope) (expected : Ty)
    (initializer : Option (Expr Mark)) :
    Establishes ctx.symbols (initializer.toList.flatMap Expr.slots)
      (checkInitializer ctx scope expected initializer)
      (fun facts _ => ∀ value ∈ initializer.toList, ctx.Fits scope expected facts value) := by
  refine establishes_toList (fun h => h ▸ rfl) ?_
  rintro value rfl
  exact inferAssignable_establishes ctx scope expected value

theorem checkConditionOption_establishes (ctx : BodyContext) (scope : Scope)
    (condition : Option (Expr Mark)) :
    Establishes ctx.symbols (condition.toList.flatMap Expr.slots)
      (checkConditionOption ctx scope condition)
      (fun facts _ => ∀ value ∈ condition.toList, ctx.Fits scope .boolean facts value) := by
  refine establishes_toList (fun h => h ▸ rfl) ?_
  rintro value rfl
  exact inferAssignable_establishes ctx scope .boolean value

theorem checkUpdate_establishes (ctx : BodyContext) (scope : Scope) (update : Option (Expr Mark)) :
    Establishes ctx.symbols (update.toList.flatMap Expr.slots) (checkUpdate ctx scope update)
      (fun facts _ => ∀ value ∈ update.toList, ∃ type, ctx.Finds scope value facts type) := by
  refine establishes_toList (fun h => h ▸ rfl) ?_
  rintro value rfl
  exact (inferExpr_establishes ctx scope value).bind_pure (fun _ type hfinds => ⟨type, hfinds⟩)

/-- A return statement keeps its rule. -/
theorem checkReturn_establishes (ctx : BodyContext) (scope : Scope) (mark : Mark)
    (value : Option (Expr Mark)) :
    Establishes ctx.symbols (value.toList.flatMap Expr.slots)
      (checkReturn ctx scope mark.range value)
      (fun facts _ => ctx.Admits facts scope.vars (.returnValue mark value) ∧
        ∀ e ∈ value.toList, ∃ type, ctx.Finds scope e facts type) := by
  cases value with
  | none =>
    simp only [checkReturn]
    split
    · rename_i hvoid
      exact .pure _ (fun _ => ⟨hvoid, List.forall_mem_nil _⟩)
    · exact .rule_fails
  | some value =>
    rw [Option.toList_some, List.flatMap_singleton]
    by_cases hvoid : ctx.expectedReturn = .void
    · simp only [checkReturn, if_pos hvoid]
      rw [← List.append_nil value.slots]
      exact (inferExpr_establishes ctx scope value).bind (fun _ => .rule_fails)
    · simp only [checkReturn, if_neg hvoid]
      refine (inferAssignable_establishes ctx scope ctx.expectedReturn value).mono ?_
      rintro facts _ ⟨⟨found, hfound, hassign⟩, hin⟩
      exact ⟨⟨hvoid, found, hfound, hassign⟩, List.forall_mem_singleton.mpr ⟨found, hfound, hin⟩⟩

/-- A variable becomes visible when no visible one has its name. -/
theorem declare_establishes (ctx : BodyContext) (scope : Scope) (var : LocalVar) :
    Establishes ctx.symbols [] (ctx.declare scope var)
      (fun facts after => (∀ other ∈ scope.vars, other.name ≠ var.name) ∧
        ∃ id : LocalId, after = (id, var) :: scope ∧ facts.locals[id]? = some var) := by
  unfold declare
  split
  · exact .rule_fails
  · rename_i hnone
    refine (recordLocal var).bind_pure (fun _ id hid => ⟨?_, id, rfl, hid⟩)
    have hfresh := List.find?_eq_none.mp hnone
    exact List.forall_mem_map.mpr (fun entry hentry => by simpa using hfresh entry hentry)

/-! ## §3 Statements -/

/-- What the check of statements finds out, given the variables that they declare and
where they stand. -/
def Passed (ctx : BodyContext) (scope : Scope) (declared : List LocalVar)
    (placed : List (List LocalVar × Stmt Mark)) (facts : ClassFacts) (after : Scope) : Prop :=
  after.vars = declared ++ scope.vars ∧ (scope.Within facts →
    after.Within facts ∧ ∀ entry ∈ placed, ctx.Accepts facts entry.1 entry.2)

/-- A statement without statements inside it, which declares nothing. -/
theorem Passed.leaf {scope : Scope} {s : Stmt Mark} {facts : ClassFacts}
    (hdeclared : ctx.declared s = []) (hplaced : ctx.placed scope.vars s = [(scope.vars, s)])
    (h : scope.Within facts → ctx.Accepts facts scope.vars s) :
    ctx.Passed scope (ctx.declared s) (ctx.placed scope.vars s) facts scope := by
  refine ⟨by rw [hdeclared]; rfl, fun hscope => ⟨hscope, ?_⟩⟩
  rw [hplaced]
  exact List.forall_mem_singleton.mpr (h hscope)

/-- A variable is declared behind its initializer. -/
theorem checkLocalVar_establishes (ctx : BodyContext) (scope : Scope) (mark : Mark)
    (type : TypeSyntax) (name : Name) (initializer : Option (Expr Mark)) :
    Establishes ctx.symbols (Stmt.localVar mark type name initializer).slots
      (checkStmt ctx scope (.localVar mark type name initializer))
      (ctx.Passed scope (ctx.declared (.localVar mark type name initializer))
        (ctx.placed scope.vars (.localVar mark type name initializer))) := by
  rw [Stmt.slots_of_leaf rfl]
  refine .lookup_bind (resolveType_answers type) (fun declared hdeclared => ?_)
  rw [← List.append_nil ((Stmt.localVar mark type name initializer).exprChildren.flatMap _)]
  refine (checkInitializer_establishes ctx scope declared initializer).bind (fun _ =>
    (declare_establishes ctx scope _).mono ?_)
  rintro facts after ⟨hfresh, id, rfl, hid⟩ hvalue
  refine ⟨?_, fun hscope => ⟨List.forall_mem_cons.mpr ⟨hid, hscope⟩, ?_⟩⟩
  · rw [hdeclared.2]
    rfl
  · refine List.forall_mem_singleton.mpr ⟨⟨hfresh, declared, hdeclared, ⟨id, hid⟩, ?_⟩, ?_⟩
    · exact fun value hmem => (hvalue value hmem).1
    · exact fun value hmem => (hvalue value hmem).describes hscope

/-- What the initializer of a loop declares is visible in all of the loop. -/
theorem checkForLoop_establishes {ctx : BodyContext} {scope : Scope} {init : Option (Stmt Mark)}
    {condition : Option (Expr Mark)} {body : Stmt Mark} (mark : Mark)
    (update : Option (Expr Mark))
    (hinit : Establishes ctx.symbols (init.toList.flatMap Stmt.slots)
      (checkStmtOption ctx scope init)
      (ctx.Passed scope (init.toList.flatMap ctx.declared) (ctx.optionPlaced scope.vars init)))
    (hbody : ∀ inner, Establishes ctx.symbols body.slots (checkStmt ctx inner body)
      (ctx.Passed inner (ctx.declared body) (ctx.placed inner.vars body))) :
    Establishes ctx.symbols (Stmt.forLoop mark init condition update body).slots
      (checkStmt ctx scope (.forLoop mark init condition update body))
      (ctx.Passed scope [] (ctx.placed scope.vars (.forLoop mark init condition update body))) := by
  have hchecks : Establishes ctx.symbols
      (init.toList.flatMap Stmt.slots ++ (condition.toList.flatMap Expr.slots ++
        (update.toList.flatMap Expr.slots ++ body.slots)))
      (checkStmt ctx scope (.forLoop mark init condition update body))
      (ctx.Passed scope [] (ctx.placed scope.vars (.forLoop mark init condition update body))) := by
    refine hinit.bind (fun inner => (checkConditionOption_establishes ctx inner condition).bind
      (fun _ => (checkUpdate_establishes ctx inner update).bind (fun _ =>
        (hbody inner).bind_pure ?_)))
    rintro facts _ ⟨-, hplacedBody⟩ hupdate hcondition ⟨hvars, hplaced⟩
    refine ⟨rfl, fun hscope => ⟨hscope, ?_⟩⟩
    obtain ⟨hinner, hplaced⟩ := hplaced hscope
    refine List.forall_mem_cons.mpr ⟨⟨fun e he => (hcondition e he).1, ?_⟩, ?_⟩
    · show ∀ e ∈ condition.toList ++ update.toList, ctx.Describes facts
        ⟨init.toList.flatMap ctx.declared ++ scope.vars, false⟩ e
      rw [← hvars]
      refine List.forall_mem_append.mpr ⟨fun e he => (hcondition e he).describes hinner,
        fun e he => ?_⟩
      obtain ⟨type, hfinds⟩ := hupdate e he
      exact hfinds.describes hinner
    · rw [← hvars]
      exact List.forall_mem_append.mpr ⟨hplaced, (hplacedBody hinner).2⟩
  refine hchecks.perm ?_
  rw [Stmt.slots_eq (.forLoop ..), Stmt.exprChildren, Stmt.stmtChildren, List.flatMap_append,
    List.flatMap_append, List.flatMap_singleton,
    ← List.append_assoc (condition.toList.flatMap Expr.slots)]
  exact List.perm_append_comm_assoc ..

end BodyContext

open BodyContext Establishes in
mutual

/-- A successful check of a statement accepts all statements inside it. -/
theorem checkStmt_establishes (ctx : BodyContext) (scope : Scope) (s : Stmt Mark) :
    Establishes ctx.symbols s.slots (checkStmt ctx scope s)
      (ctx.Passed scope (ctx.declared s) (ctx.placed scope.vars s)) := by
  match s with
  | .block mark stmts =>
    rw [Stmt.slots_eq]
    refine (checkStmts_establishes ctx scope stmts).bind_pure (fun facts _ hstmts =>
      ⟨rfl, fun hscope => ⟨hscope, ?_⟩⟩)
    exact List.forall_mem_cons.mpr ⟨⟨trivial, List.forall_mem_nil _⟩, hstmts hscope⟩
  | .localVar mark type name initializer =>
    exact checkLocalVar_establishes ctx scope mark type name initializer
  | .expression mark value =>
    rw [Stmt.slots_of_leaf rfl, Stmt.exprChildren, List.flatMap_singleton]
    refine (inferExpr_establishes ctx scope value).bind_pure (fun facts type hfinds =>
      .leaf rfl rfl (fun hscope => ⟨trivial, ?_⟩))
    exact List.forall_mem_singleton.mpr (hfinds.describes hscope)
  | .branch mark condition thenBranch elseBranch =>
    rw [Stmt.slots_eq, Stmt.exprChildren, List.flatMap_singleton, Stmt.stmtChildren,
      List.flatMap_cons]
    refine (inferAssignable_establishes ctx scope .boolean condition).bind (fun _ =>
      (checkStmt_establishes ctx scope thenBranch).bind (fun _ =>
        (checkStmtOption_establishes ctx scope elseBranch).bind_pure ?_))
    rintro facts _ ⟨-, helse⟩ ⟨-, hthen⟩ hcondition
    refine ⟨rfl, fun hscope => ⟨hscope, List.forall_mem_cons.mpr ⟨⟨hcondition.1, ?_⟩, ?_⟩⟩⟩
    · exact List.forall_mem_singleton.mpr (hcondition.describes hscope)
    · exact List.forall_mem_append.mpr ⟨(hthen hscope).2, (helse hscope).2⟩
  | .whileLoop mark condition body =>
    rw [Stmt.slots_eq, Stmt.exprChildren, List.flatMap_singleton, Stmt.stmtChildren,
      List.flatMap_singleton]
    refine (inferAssignable_establishes ctx scope .boolean condition).bind (fun _ =>
      (checkStmt_establishes ctx scope body).bind_pure ?_)
    rintro facts _ ⟨-, hbody⟩ hcondition
    refine ⟨rfl, fun hscope => ⟨hscope, List.forall_mem_cons.mpr ⟨⟨hcondition.1, ?_⟩, ?_⟩⟩⟩
    · exact List.forall_mem_singleton.mpr (hcondition.describes hscope)
    · exact (hbody hscope).2
  | .forLoop mark init condition update body =>
    exact checkForLoop_establishes mark update
      (checkStmtOption_establishes ctx scope init) (fun inner => checkStmt_establishes ctx inner body)
  | .returnValue mark value =>
    rw [Stmt.slots_of_leaf rfl]
    refine (checkReturn_establishes ctx scope mark value).bind_pure ?_
    rintro facts _ ⟨hrule, hvalue⟩
    refine .leaf rfl rfl (fun hscope => ⟨hrule, fun e he => ?_⟩)
    obtain ⟨type, hfinds⟩ := hvalue e he
    exact hfinds.describes hscope
  | .throwValue mark value =>
    rw [Stmt.slots_of_leaf rfl, Stmt.exprChildren, List.flatMap_singleton,
      ← List.append_nil value.slots]
    refine (inferExpr_establishes ctx scope value).bind (fun found => rule.bind_pure ?_)
    rintro facts _ hthrown hfinds
    refine .leaf rfl rfl (fun hscope => ⟨⟨found, hfinds.1, hthrown⟩, ?_⟩)
    exact List.forall_mem_singleton.mpr (hfinds.describes hscope)
  | .breakLoop mark =>
    exact .pure _ (fun _ => .leaf rfl rfl (fun _ => ⟨trivial, List.forall_mem_nil _⟩))
  | .empty mark =>
    exact .pure _ (fun _ => .leaf rfl rfl (fun _ => ⟨trivial, List.forall_mem_nil _⟩))
  | .constructorCall mark call args => exact .rule_fails
termination_by structural s

/-- Statements one after the other are accepted. -/
theorem checkStmts_establishes (ctx : BodyContext) (scope : Scope) (ss : List (Stmt Mark)) :
    Establishes ctx.symbols (ss.flatMap Stmt.slots) (checkStmts ctx scope ss)
      (fun facts _ => scope.Within facts → ∀ entry ∈ ctx.listPlaced scope.vars ss,
        ctx.Accepts facts entry.1 entry.2) := by
  match ss with
  | [] => exact .pure _ (fun _ _ => List.forall_mem_nil _)
  | s :: ss =>
    rw [List.flatMap_cons]
    refine (checkStmt_establishes ctx scope s).bind (fun after =>
      (checkStmts_establishes ctx after ss).mono ?_)
    rintro facts _ hothers ⟨hvars, hfirst⟩ hscope
    obtain ⟨hafter, hplaced⟩ := hfirst hscope
    rw [hvars] at hothers
    exact List.forall_mem_append.mpr ⟨hplaced, hothers hafter⟩
termination_by structural ss

/-- A statement that may be missing is accepted. -/
theorem checkStmtOption_establishes (ctx : BodyContext) (scope : Scope) (s : Option (Stmt Mark)) :
    Establishes ctx.symbols (s.toList.flatMap Stmt.slots) (checkStmtOption ctx scope s)
      (ctx.Passed scope (s.toList.flatMap ctx.declared) (ctx.optionPlaced scope.vars s)) := by
  match s with
  | none => exact .pure _ (fun _ => ⟨rfl, fun hscope => ⟨hscope, List.forall_mem_nil _⟩⟩)
  | some s =>
    rw [Option.toList_some, List.flatMap_singleton, List.flatMap_singleton]
    exact checkStmt_establishes ctx scope s
termination_by structural s

end

end JoosStatics
