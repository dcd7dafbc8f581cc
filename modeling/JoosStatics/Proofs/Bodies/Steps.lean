/-
JoosStatics.Proofs.Bodies.Steps — a body check step by step.

A body check is made of few kinds of steps: it applies rules, looks names
up, and records variables, types and resolutions. `CheckSteps` says that a
property of computations holds of these steps, where they stand at
expressions and statements of given sets, and passes on to sequences;
`ExprSteps` leaves out the steps of declarations, which expressions never
take. Then it holds of the check of every tree within the sets:

* `inferExpr_has`, `checkStmt_has` — expressions and statements.
* `checkSuperInvocation_has`, `checkConstructorBody_has` — constructors.
-/
import JoosStatics.Proofs.Bodies.Content
import JoosStatics.Proofs.Bodies.Rules
import JoosStatics.Proofs.Syntax.Trees

namespace JoosStatics

/-! ## §1 Steps -/

/-- A property of computations holds of the steps of checking expressions. Rules may
assume that the rule before them was kept; the steps of an expression are those at
members of the given set. -/
structure ExprSteps (ctx : BodyContext) (exprs : Expr Mark → Prop)
    (P : ∀ {α : Type}, CheckM α → Prop) : Prop where
  pure : ∀ {α : Type} (a : α), P (pure a : CheckM α)
  bind : ∀ {α β : Type} {x : CheckM α} {f : α → CheckM β}, P x → (∀ a, P (f a)) → P (x >>= f)
  rule : ∀ {α β : Type} {result : Except Violation α} {f : α → CheckM β}, IsBodyRule result →
    (∀ a, result = .ok a → P (f a)) → P (CheckM.rule result >>= f)
  exprType : ∀ {e : Expr Mark} {type : TypeSyntax}, exprs e → e.writtenType? = some type →
    P (ctx.resolveType type)
  createdType : ∀ {mark : Mark} {type : TypeRef} {args : List (Expr Mark)},
    exprs (.create mark type args) → P (CheckM.lookup (ctx.symbols.resolveRef ctx.classId type))
  firstName : ∀ {mark : Mark} {path : QualifiedName} {first : Name}, exprs (.named mark path) →
    path.first? = some first →
    P (CheckM.lookup (ctx.symbols.lookupSimple ctx.classId first mark.range))
  recordType : ∀ {e : Expr Mark}, exprs e → ∀ type, P (CheckM.recordType e.note type)
  recordResolution : ∀ {e : Expr Mark} {res : Resolution}, exprs e → ctx.Allows res →
    P (CheckM.recordResolution e.note res)

/-- A property of computations holds of the steps of a body check, where they stand at
expressions and statements of given sets. -/
structure CheckSteps (ctx : BodyContext) (exprs : Expr Mark → Prop) (stmts : Stmt Mark → Prop)
    (P : ∀ {α : Type}, CheckM α → Prop) : Prop extends ExprSteps ctx exprs P where
  localType : ∀ {mark : Mark} {type : TypeSyntax} {name : Name} {initializer : Option (Expr Mark)},
    stmts (.localVar mark type name initializer) → P (ctx.resolveType type)
  recordLocal : ∀ var, P (CheckM.recordLocal var)

variable {ctx : BodyContext} {exprs : Expr Mark → Prop} {stmts : Stmt Mark → Prop}
  {P : ∀ {α : Type}, CheckM α → Prop}

namespace ExprSteps

/-- Arguments of an invocation are checked against the same throws clause. -/
theorem forbidThis (hP : ExprSteps ctx exprs P) :
    ExprSteps { ctx with thisForbidden := true } exprs P where
  pure := hP.pure
  bind := hP.bind
  rule := hP.rule
  exprType := hP.exprType
  createdType := hP.createdType
  firstName := hP.firstName
  recordType := hP.recordType
  recordResolution {_ res} he hallows := hP.recordResolution he (by cases res <;> exact hallows)

/-- A rule at the end of a check. -/
theorem lastRule (hP : ExprSteps ctx exprs P) {α : Type} {result : Except Violation α}
    (h : IsBodyRule result) : P (CheckM.rule result) := by
  have hrule := hP.rule h (fun a _ => hP.pure a)
  rwa [bind_pure] at hrule

end ExprSteps

/-- The steps of fewer expressions and statements have the property as well. -/
theorem CheckSteps.mono {exprs' : Expr Mark → Prop} {stmts' : Stmt Mark → Prop}
    (hP : CheckSteps ctx exprs stmts P) (hexprs : ∀ e, exprs' e → exprs e)
    (hstmts : ∀ s, stmts' s → stmts s) : CheckSteps ctx exprs' stmts' P where
  pure := hP.pure
  bind := hP.bind
  rule := hP.rule
  exprType he := hP.exprType (hexprs _ he)
  createdType he := hP.createdType (hexprs _ he)
  localType hs := hP.localType (hstmts _ hs)
  firstName he := hP.firstName (hexprs _ he)
  recordType he := hP.recordType (hexprs _ he)
  recordResolution he := hP.recordResolution (hexprs _ he)
  recordLocal := hP.recordLocal

/-! ## §2 Names, accesses and invocations -/

namespace BodyContext

theorem classifySimple_has (hP : ExprSteps ctx exprs P) (scope : Scope) {name : Name}
    {range : Span} (hname : P (CheckM.lookup (ctx.symbols.lookupSimple ctx.classId name range))) :
    P (ctx.classifySimple scope name range) := by
  unfold classifySimple
  split
  · exact hP.pure _
  · split
    · dsimp only
      split
      · exact hP.rule (ctx.requireThis_isBodyRule range) (fun _ _ => hP.pure _)
      · exact hP.pure _
    · refine hP.bind hname (fun found => ?_)
      cases found with
      | none => exact hP.pure _
      | some id => exact hP.pure _

theorem classify_has (hP : ExprSteps ctx exprs P) (scope : Scope) {mark : Mark}
    {path : QualifiedName} (he : exprs (.named mark path)) :
    P (ctx.classify scope path mark.range) := by
  unfold classify
  split
  · exact hP.lastRule (.broken nofun)
  · rename_i first rest heq
    have hfirst : path.first? = some first := congrArg List.head? heq
    refine hP.bind (classifySimple_has hP scope (hP.firstName he hfirst)) (fun meaning => ?_)
    exact hP.lastRule (ctx.extendAll_isBodyRule mark.range meaning rest)

theorem inferName_has (hP : ExprSteps ctx exprs P) (scope : Scope) {mark : Mark}
    {path : QualifiedName} (he : exprs (.named mark path)) :
    P (ctx.inferName scope mark path) := by
  refine hP.bind (classify_has hP scope he) (fun meaning => ?_)
  split
  · exact hP.bind (hP.recordResolution he (allows_valueKind _)) (fun _ => hP.pure _)
  · exact hP.lastRule (.broken nofun)

theorem inferAssignedName_has (hP : ExprSteps ctx exprs P) (scope : Scope) {mark : Mark}
    {path : QualifiedName} (he : exprs (.named mark path)) :
    P (ctx.inferAssignedName scope mark path) := by
  refine hP.bind (classify_has hP scope he) (fun meaning => ?_)
  split
  · exact hP.bind (hP.recordResolution he (allows_valueKind _)) (fun _ => hP.pure _)
  · exact hP.lastRule (.broken nofun)
  · exact hP.lastRule (.broken nofun)

theorem inferReceiverName_has (hP : ExprSteps ctx exprs P) (scope : Scope) {mark : Mark}
    {path : QualifiedName} (he : exprs (.named mark path)) :
    P (ctx.inferReceiverName scope mark path) := by
  refine hP.bind (classify_has hP scope he) (fun meaning => ?_)
  split
  · exact hP.bind (hP.recordResolution he trivial) (fun _ => hP.pure _)
  · refine hP.bind (hP.recordResolution he (allows_valueKind _)) (fun _ => ?_)
    exact hP.bind (hP.recordType he _) (fun _ => hP.pure _)
  · exact hP.lastRule (.broken nofun)

theorem inferAccess_has (hP : ExprSteps ctx exprs P) {e : Expr Mark} (he : exprs e)
    (receiver : Receiver) (name : Name) : P (ctx.inferAccess e.note receiver name) := by
  refine hP.rule (ctx.selectField_isBodyRule _ receiver name) (fun found _ => ?_)
  exact hP.bind (hP.recordResolution he (allows_valueKind _)) (fun _ => hP.pure _)

theorem inferCall_has (hP : ExprSteps ctx exprs P) {e : Expr Mark} (he : exprs e)
    (id : ClassId) (kind : CallKind) (name : Name) (args : List Ty) :
    P (ctx.inferCall e.note id kind name args) := by
  refine hP.rule (ctx.calledMethod_isBodyRule _ id kind name args) (fun ref href => ?_)
  exact hP.bind (hP.recordResolution he (calledMethod_eq_ok href)) (fun _ => hP.pure _)

theorem inferCreation_has (hP : ExprSteps ctx exprs P) {e : Expr Mark} (he : exprs e)
    (id : ClassId) (args : List Ty) : P (ctx.inferCreation e.note id args) := by
  refine hP.rule (ctx.invokedConstructor_isBodyRule _ id args) (fun ref href => ?_)
  exact hP.bind (hP.recordResolution he (invokedConstructor_eq_ok href).2) (fun _ => hP.pure _)

theorem createdClass_has (hP : ExprSteps ctx exprs P) {mark : Mark} {type : TypeRef}
    {args : List (Expr Mark)} (he : exprs (.create mark type args)) :
    P (ctx.createdClass mark type) := by
  refine hP.bind (hP.createdType he) (fun id => ?_)
  split
  · exact hP.lastRule (.broken nofun)
  · exact hP.pure _

theorem declare_has (hP : CheckSteps ctx exprs stmts P) (scope : Scope) (var : LocalVar) :
    P (ctx.declare scope var) := by
  unfold declare
  split
  · exact hP.lastRule (.broken nofun)
  · exact hP.bind (hP.recordLocal var) (fun _ => hP.pure _)

/-- A receiver is a name, or a value that `value` computes. -/
theorem inferReceiver_has (hP : ExprSteps ctx exprs P) (scope : Scope)
    {receiver : Expr Mark} (he : exprs receiver) {value : CheckM Ty} (hvalue : P value) :
    P (ctx.inferReceiver scope receiver value) := by
  unfold inferReceiver
  split
  · exact inferReceiverName_has hP scope he
  · exact hP.bind hvalue (fun _ => hP.pure _)

theorem inferArrayAccess_has (hP : ExprSteps ctx exprs P) {e : Expr Mark} (he : exprs e)
    (indexRange : Span) {array index : CheckM Ty} (harray : P array) (hindex : P index) :
    P (ctx.inferArrayAccess e.note indexRange array index) := by
  refine hP.bind harray (fun arrayType => ?_)
  refine hP.bind hindex (fun indexType => ?_)
  refine hP.rule (ctx.elementType_isBodyRule _ arrayType indexType indexRange) (fun element _ => ?_)
  exact hP.recordType he element

end BodyContext

/-! ## §3 Expressions -/

/-- Whatever holds inside an expression holds inside its operands. -/
theorem Expr.parts_of_mem_children {D : Expr Mark → Prop} {e : Expr Mark}
    (h : ∀ part ∈ e.parts, D part) {child : Expr Mark} (hchild : child ∈ e.children) :
    ∀ part ∈ child.parts, D part := by
  intro part hpart
  rw [Expr.parts_eq] at h
  exact h part (List.mem_cons_of_mem _ (List.mem_flatMap.mpr ⟨child, hchild, hpart⟩))

open BodyContext in
mutual

/-- The check of an expression has the property of its steps. -/
theorem inferExpr_has (hP : ExprSteps ctx exprs P) (scope : Scope) (e : Expr Mark)
    (he : ∀ part ∈ e.parts, exprs part) : P (inferExpr ctx scope e) := by
  have hroot : exprs e := he e e.self_mem_parts
  have hchild (child : Expr Mark) (h : child ∈ e.children) := Expr.parts_of_mem_children he h
  match e with
  | .literal mark value => exact hP.recordType hroot _
  | .named mark path =>
    exact hP.bind (inferName_has hP scope hroot) (fun _ => hP.recordType hroot _)
  | .this mark =>
    exact hP.rule (ctx.requireThis_isBodyRule _) (fun _ _ => hP.recordType hroot _)
  | .fieldAccess mark receiver name =>
    have hreceiver := hchild receiver (by simp [Expr.children])
    refine hP.bind (inferReceiver_has hP scope (hreceiver _ receiver.self_mem_parts)
      (inferExpr_has hP scope receiver hreceiver)) (fun left => ?_)
    exact hP.bind (inferAccess_has hP hroot left name) (fun _ => hP.recordType hroot _)
  | .call mark name args =>
    refine hP.bind (inferExprs_has hP scope args hchild) (fun argTypes => ?_)
    exact hP.bind (inferCall_has hP hroot _ _ name argTypes) (fun _ => hP.recordType hroot _)
  | .callOn mark receiver name args =>
    have hreceiver := hchild receiver (by simp [Expr.children])
    refine hP.bind (inferReceiver_has hP scope (hreceiver _ receiver.self_mem_parts)
      (inferExpr_has hP scope receiver hreceiver)) (fun left => ?_)
    refine hP.rule (ctx.callee_isBodyRule _ left) (fun target _ => ?_)
    refine hP.bind (inferExprs_has hP scope args
      (fun arg h => hchild arg (List.mem_cons_of_mem _ h))) (fun argTypes => ?_)
    exact hP.bind (inferCall_has hP hroot _ _ name argTypes) (fun _ => hP.recordType hroot _)
  | .create mark type args =>
    refine hP.bind (createdClass_has hP hroot) (fun id => ?_)
    refine hP.bind (inferExprs_has hP scope args hchild) (fun argTypes => ?_)
    exact hP.bind (inferCreation_has hP hroot id argTypes) (fun _ => hP.recordType hroot _)
  | .createArray mark element dims =>
    refine hP.bind (hP.exprType hroot rfl) (fun base => ?_)
    refine hP.bind (inferDims_has hP scope dims hchild) (fun _ => ?_)
    exact hP.recordType hroot _
  | .arrayAccess mark array index =>
    exact inferArrayAccess_has hP hroot _
      (inferExpr_has hP scope array (hchild array (by simp [Expr.children])))
      (inferExpr_has hP scope index (hchild index (by simp [Expr.children])))
  | .cast mark type operand =>
    refine hP.bind (hP.exprType hroot rfl) (fun target => ?_)
    refine hP.bind (inferExpr_has hP scope operand (hchild operand (by simp [Expr.children])))
      (fun found => ?_)
    exact hP.rule (ctx.checkCast_isBodyRule _ found target) (fun _ _ => hP.recordType hroot _)
  | .instanceOf mark operand type =>
    refine hP.bind (inferExpr_has hP scope operand (hchild operand (by simp [Expr.children])))
      (fun found => ?_)
    refine hP.bind (hP.exprType hroot rfl) (fun target => ?_)
    exact hP.rule (ctx.checkInstanceOf_isBodyRule _ found target)
      (fun _ _ => hP.recordType hroot _)
  | .binary mark op lhs rhs =>
    refine hP.bind (inferExpr_has hP scope lhs (hchild lhs (by simp [Expr.children])))
      (fun lhsType => ?_)
    refine hP.bind (inferExpr_has hP scope rhs (hchild rhs (by simp [Expr.children])))
      (fun rhsType => ?_)
    exact hP.rule (ctx.binaryType_isBodyRule _ op lhsType rhsType)
      (fun _ _ => hP.recordType hroot _)
  | .unary mark op operand =>
    refine hP.bind (inferExpr_has hP scope operand (hchild operand (by simp [Expr.children])))
      (fun found => ?_)
    exact hP.rule (ctx.unaryType_isBodyRule _ op found) (fun _ _ => hP.recordType hroot _)
  | .incDec mark op operand =>
    refine hP.bind (inferTarget_has hP scope operand (hchild operand (by simp [Expr.children])))
      (fun found => ?_)
    exact hP.rule (ctx.checkIncDec_isBodyRule _ found) (fun _ _ => hP.recordType hroot _)
  | .assign mark target value =>
    refine hP.bind (inferTarget_has hP scope target (hchild target (by simp [Expr.children])))
      (fun expected => ?_)
    refine hP.bind (inferExpr_has hP scope value (hchild value (by simp [Expr.children])))
      (fun found => ?_)
    exact hP.rule (ctx.requireAssignable_isBodyRule _ found expected)
      (fun _ _ => hP.recordType hroot _)
termination_by structural e

theorem inferTarget_has (hP : ExprSteps ctx exprs P) (scope : Scope) (e : Expr Mark)
    (he : ∀ part ∈ e.parts, exprs part) : P (inferTarget ctx scope e) := by
  have hroot : exprs e := he e e.self_mem_parts
  have hchild (child : Expr Mark) (h : child ∈ e.children) := Expr.parts_of_mem_children he h
  match e with
  | .named mark path =>
    refine hP.bind (inferAssignedName_has hP scope hroot) (fun found => ?_)
    exact hP.rule (ctx.requireWritable_isBodyRule _ _) (fun _ _ => hP.recordType hroot _)
  | .fieldAccess mark receiver name =>
    have hreceiver := hchild receiver (by simp [Expr.children])
    refine hP.bind (inferReceiver_has hP scope (hreceiver _ receiver.self_mem_parts)
      (inferExpr_has hP scope receiver hreceiver)) (fun left => ?_)
    refine hP.bind (inferAccess_has hP hroot left name) (fun found => ?_)
    exact hP.rule (ctx.requireWritable_isBodyRule _ _) (fun _ _ => hP.recordType hroot _)
  | .arrayAccess mark array index =>
    exact inferArrayAccess_has hP hroot _
      (inferExpr_has hP scope array (hchild array (by simp [Expr.children])))
      (inferExpr_has hP scope index (hchild index (by simp [Expr.children])))
  | .literal .. | .this _ | .call .. | .callOn .. | .create .. | .createArray .. | .cast .. |
    .instanceOf .. | .binary .. | .unary .. | .incDec .. | .assign .. =>
    exact hP.lastRule (.broken nofun)
termination_by structural e

theorem inferExprs_has (hP : ExprSteps ctx exprs P) (scope : Scope) (es : List (Expr Mark))
    (hes : ∀ e ∈ es, ∀ part ∈ e.parts, exprs part) : P (inferExprs ctx scope es) := by
  match es with
  | [] => exact hP.pure _
  | e :: es =>
    refine hP.bind (inferExpr_has hP scope e (hes e (List.mem_cons_self ..))) (fun _ => ?_)
    exact hP.bind (inferExprs_has hP scope es (fun e h => hes e (List.mem_cons_of_mem _ h)))
      (fun _ => hP.pure _)
termination_by structural es

theorem inferDims_has (hP : ExprSteps ctx exprs P) (scope : Scope) (es : List (Expr Mark))
    (hes : ∀ e ∈ es, ∀ part ∈ e.parts, exprs part) : P (inferDims ctx scope es) := by
  match es with
  | [] => exact hP.pure _
  | e :: es =>
    refine hP.bind (inferExpr_has hP scope e (hes e (List.mem_cons_self ..))) (fun type => ?_)
    refine hP.rule (ctx.requireNumeric_isBodyRule _ type) (fun _ _ => ?_)
    exact inferDims_has hP scope es (fun e h => hes e (List.mem_cons_of_mem _ h))
termination_by structural es

end

/-! ## §4 Statements -/

theorem checkCondition_has (hP : ExprSteps ctx exprs P) (scope : Scope)
    (condition : Expr Mark) (he : ∀ part ∈ condition.parts, exprs part) :
    P (checkCondition ctx scope condition) := by
  refine hP.bind (inferExpr_has hP scope condition he) (fun found => ?_)
  exact hP.lastRule (ctx.requireAssignable_isBodyRule _ found .boolean)

theorem checkConditionOption_has (hP : ExprSteps ctx exprs P) (scope : Scope)
    (condition : Option (Expr Mark)) (he : ∀ e ∈ condition.toList, ∀ part ∈ e.parts, exprs part) :
    P (checkConditionOption ctx scope condition) := by
  cases condition with
  | none => exact hP.pure ()
  | some condition => exact checkCondition_has hP scope condition (he condition (by simp))

theorem checkUpdate_has (hP : ExprSteps ctx exprs P) (scope : Scope)
    (update : Option (Expr Mark)) (he : ∀ e ∈ update.toList, ∀ part ∈ e.parts, exprs part) :
    P (checkUpdate ctx scope update) := by
  cases update with
  | none => exact hP.pure ()
  | some update =>
    exact hP.bind (inferExpr_has hP scope update (he update (by simp))) (fun _ => hP.pure ())

theorem checkInitializer_has (hP : ExprSteps ctx exprs P) (scope : Scope) (expected : Ty)
    (initializer : Option (Expr Mark))
    (he : ∀ e ∈ initializer.toList, ∀ part ∈ e.parts, exprs part) :
    P (checkInitializer ctx scope expected initializer) := by
  cases initializer with
  | none => exact hP.pure ()
  | some value =>
    refine hP.bind (inferExpr_has hP scope value (he value (by simp))) (fun found => ?_)
    exact hP.lastRule (ctx.requireAssignable_isBodyRule _ found expected)

theorem checkReturn_has (hP : ExprSteps ctx exprs P) (scope : Scope) (range : Span)
    (value : Option (Expr Mark)) (he : ∀ e ∈ value.toList, ∀ part ∈ e.parts, exprs part) :
    P (checkReturn ctx scope range value) := by
  cases value with
  | none =>
    simp only [checkReturn]
    split
    · exact hP.pure ()
    · exact hP.lastRule (.broken nofun)
  | some value =>
    refine hP.bind (inferExpr_has hP scope value (he value (by simp))) (fun found => ?_)
    split
    · exact hP.lastRule (.broken nofun)
    · exact hP.lastRule (ctx.requireAssignable_isBodyRule _ found _)

/-- A statement, the statements inside it and the expressions inside it belong to
the sets. -/
structure Stmt.Within (exprs : Expr Mark → Prop) (stmts : Stmt Mark → Prop) (s : Stmt Mark) :
    Prop where
  parts : ∀ part ∈ s.parts, stmts part
  exprs : ∀ e ∈ s.exprs, exprs e

namespace Stmt.Within

variable {s : Stmt Mark}

theorem root (hs : s.Within exprs stmts) : stmts s := hs.parts s s.self_mem_parts

theorem exprChild (hs : s.Within exprs stmts) {e : Expr Mark} (he : e ∈ s.exprChildren) :
    ∀ part ∈ e.parts, exprs part := by
  intro part hpart
  have hmem := hs.exprs
  rw [Stmt.exprs_eq] at hmem
  exact hmem part (List.mem_append_left _ (List.mem_flatMap.mpr ⟨e, he, hpart⟩))

theorem stmtChild (hs : s.Within exprs stmts) {child : Stmt Mark} (hchild : child ∈ s.stmtChildren) :
    child.Within exprs stmts where
  parts part hpart := by
    have hmem := hs.parts
    rw [Stmt.parts_eq] at hmem
    exact hmem part (List.mem_cons_of_mem _ (List.mem_flatMap.mpr ⟨child, hchild, hpart⟩))
  exprs e he := by
    have hmem := hs.exprs
    rw [Stmt.exprs_eq] at hmem
    exact hmem e (List.mem_append_right _ (List.mem_flatMap.mpr ⟨child, hchild, he⟩))

end Stmt.Within

theorem TypeDecl.within_of_methodTree? {d : TypeDecl} {index : Nat} {body : Stmt Mark}
    (h : d.methodTree? index = some body) :
    body.Within (· ∈ d.exprsOf (.method index)) (· ∈ d.stmtsOf (.method index)) := by
  rw [exprsOf, stmtsOf, h]
  exact ⟨fun _ h => h, fun _ h => h⟩

theorem TypeDecl.within_of_constructorTree? {d : TypeDecl} {index : Nat} {body : Stmt Mark}
    (h : d.constructorTree? index = some body) :
    body.Within (· ∈ d.exprsOf (.constructor index)) (· ∈ d.stmtsOf (.constructor index)) := by
  rw [exprsOf, stmtsOf, h]
  exact ⟨fun _ h => h, fun _ h => h⟩

open BodyContext in
mutual

/-- The check of a statement has the property of its steps. -/
theorem checkStmt_has (hP : CheckSteps ctx exprs stmts P) (scope : Scope) (s : Stmt Mark)
    (hs : s.Within exprs stmts) : P (checkStmt ctx scope s) := by
  have hexpr (e : Expr Mark) (he : e ∈ s.exprChildren) := hs.exprChild he
  have hstmt (child : Stmt Mark) (hchild : child ∈ s.stmtChildren) := hs.stmtChild hchild
  match s with
  | .block mark ss => exact hP.bind (checkStmts_has hP scope ss hstmt) (fun _ => hP.pure _)
  | .localVar mark type name initializer =>
    refine hP.bind (hP.localType hs.root) (fun declared => ?_)
    refine hP.bind (checkInitializer_has hP.toExprSteps scope declared initializer hexpr) (fun _ => ?_)
    exact declare_has hP scope _
  | .expression mark value =>
    exact hP.bind (inferExpr_has hP.toExprSteps scope value (hexpr value (by simp [Stmt.exprChildren])))
      (fun _ => hP.pure _)
  | .branch mark condition thenBranch elseBranch =>
    refine hP.bind (checkCondition_has hP.toExprSteps scope condition
      (hexpr condition (by simp [Stmt.exprChildren]))) (fun _ => ?_)
    refine hP.bind (checkStmt_has hP scope thenBranch
      (hstmt thenBranch (by simp [Stmt.stmtChildren]))) (fun _ => ?_)
    exact hP.bind (checkStmtOption_has hP scope elseBranch
      (fun s hs => hstmt s (List.mem_cons_of_mem _ hs))) (fun _ => hP.pure _)
  | .whileLoop mark condition body =>
    refine hP.bind (checkCondition_has hP.toExprSteps scope condition
      (hexpr condition (by simp [Stmt.exprChildren]))) (fun _ => ?_)
    exact hP.bind (checkStmt_has hP scope body (hstmt body (by simp [Stmt.stmtChildren])))
      (fun _ => hP.pure _)
  | .forLoop mark init condition update body =>
    refine hP.bind (checkStmtOption_has hP scope init
      (fun s hs => hstmt s (List.mem_append_left _ hs))) (fun inner => ?_)
    refine hP.bind (checkConditionOption_has hP.toExprSteps inner condition
      (fun e he => hexpr e (List.mem_append_left _ he))) (fun _ => ?_)
    refine hP.bind (checkUpdate_has hP.toExprSteps inner update
      (fun e he => hexpr e (List.mem_append_right _ he))) (fun _ => ?_)
    exact hP.bind (checkStmt_has hP inner body (hstmt body (by simp [Stmt.stmtChildren])))
      (fun _ => hP.pure _)
  | .returnValue mark value =>
    exact hP.bind (checkReturn_has hP.toExprSteps scope mark.range value hexpr) (fun _ => hP.pure _)
  | .throwValue mark value =>
    refine hP.bind (inferExpr_has hP.toExprSteps scope value (hexpr value (by simp [Stmt.exprChildren])))
      (fun found => ?_)
    exact hP.rule (checkThrown_isBodyRule ctx found _) (fun _ _ => hP.pure _)
  | .breakLoop mark => exact hP.pure _
  | .empty mark => exact hP.pure _
  | .constructorCall mark call args => exact hP.lastRule (.broken nofun)
termination_by structural s

theorem checkStmts_has (hP : CheckSteps ctx exprs stmts P) (scope : Scope) (ss : List (Stmt Mark))
    (hss : ∀ s ∈ ss, s.Within exprs stmts) : P (checkStmts ctx scope ss) := by
  match ss with
  | [] => exact hP.pure _
  | s :: ss =>
    refine hP.bind (checkStmt_has hP scope s (hss s (List.mem_cons_self ..))) (fun inner => ?_)
    exact checkStmts_has hP inner ss (fun s hs => hss s (List.mem_cons_of_mem _ hs))
termination_by structural ss

theorem checkStmtOption_has (hP : CheckSteps ctx exprs stmts P) (scope : Scope)
    (s : Option (Stmt Mark)) (hs : ∀ child ∈ s.toList, child.Within exprs stmts) :
    P (checkStmtOption ctx scope s) := by
  match s with
  | none => exact hP.pure _
  | some s => exact checkStmt_has hP scope s (hs s (by simp))
termination_by structural s

end

/-! ## §5 Members -/

theorem declareParams_has (hP : CheckSteps ctx exprs stmts P) (scope : Scope)
    (params : List (Param × Ty)) : P (declareParams ctx scope params) := by
  induction params generalizing scope with
  | nil => exact hP.pure scope
  | cons entry params ih => exact hP.bind (BodyContext.declare_has hP scope _) ih

theorem checkSuperInvocation_has (hP : ExprSteps ctx exprs P) (scope : Scope)
    (args : List (Expr Mark)) (range : Span) (hargs : ∀ e ∈ args, ∀ part ∈ e.parts, exprs part) :
    P (checkSuperInvocation ctx scope args range) := by
  refine hP.bind (inferExprs_has hP.forbidThis scope args hargs) (fun argTypes => ?_)
  split
  · split
    · exact hP.pure ()
    · exact hP.lastRule (.broken nofun)
  · rename_i superclass _
    exact hP.rule (ctx.invokedConstructor_isBodyRule range superclass argTypes)
      (fun _ _ => hP.pure ())

/-- A target is recorded once it passes the throws clause. -/
theorem checkThisInvocation_has (hP : ExprSteps ctx exprs P) (scope : Scope)
    {constructor : ConstructorRef} (args : List (Expr Mark)) (range : Span)
    (hargs : ∀ e ∈ args, ∀ part ∈ e.parts, exprs part)
    (htarget : ∀ target, ctx.Allows (.constructor target) →
      P (CheckM.recordTarget constructor target)) :
    P (checkThisInvocation ctx scope constructor args range) := by
  refine hP.bind (inferExprs_has hP.forbidThis scope args hargs) (fun argTypes => ?_)
  refine hP.rule (ctx.invokedConstructor_isBodyRule range ctx.classId argTypes)
    (fun target hok => ?_)
  exact htarget target (BodyContext.invokedConstructor_eq_ok hok).2

theorem Stmt.Within.statements {body : Stmt Mark} (h : body.Within exprs stmts) :
    ∀ s ∈ body.statements, s.Within exprs stmts := by
  cases body with
  | block mark ss => exact fun s hs => h.stmtChild hs
  | _ => exact List.forall_mem_singleton.mpr h

theorem checkConstructorBody_has (hP : CheckSteps ctx exprs stmts P) (scope : Scope)
    {constructor : ConstructorRef} (body : Stmt Mark) (hbody : body.Within exprs stmts)
    (htarget : ∀ {mark : Mark} {args : List (Expr Mark)} {rest : List (Stmt Mark)},
      body.statements = .constructorCall mark .this args :: rest →
      ∀ target, ctx.Allows (.constructor target) → P (CheckM.recordTarget constructor target)) :
    P (checkConstructorBody ctx scope constructor body) := by
  have hstmts := hbody.statements
  unfold checkConstructorBody
  split
  · rename_i mark call args rest heq
    rw [heq] at hstmts
    have hargs (e : Expr Mark) (he : e ∈ args) := (hstmts (.constructorCall mark call args)
      (List.mem_cons_self ..)).exprChild he
    have hrest := checkStmts_has hP scope rest (fun s hs => hstmts s (List.mem_cons_of_mem _ hs))
    cases call with
    | this =>
      refine hP.bind (checkThisInvocation_has hP.toExprSteps scope args _ hargs (htarget heq)) (fun _ => ?_)
      exact hP.bind hrest (fun _ => hP.pure ())
    | super =>
      refine hP.bind (checkSuperInvocation_has hP.toExprSteps scope args _ hargs) (fun _ => ?_)
      exact hP.bind hrest (fun _ => hP.pure ())
  · refine hP.bind (checkSuperInvocation_has hP.toExprSteps scope [] _ (List.forall_mem_nil _)) (fun _ => ?_)
    exact hP.bind (checkStmts_has hP scope _ hstmts) (fun _ => hP.pure ())

end JoosStatics
