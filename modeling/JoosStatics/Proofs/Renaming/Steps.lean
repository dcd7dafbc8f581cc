/-
JoosStatics.Proofs.Renaming.Steps — two body checks step by step.

Two accounts of a program are checked side by side: a tree in one context,
and the tree with the spans of the other account in the other context.
`PairedSteps` says that the two runs agree on each step: on lookups, on
rules, and on what is recorded. Then they agree on the check of every tree
within the given sets (`inferExpr_simulates`, `checkStmt_simulates`,
`checkConstructorBody_simulates`).
-/
import JoosStatics.Proofs.Bodies.Steps
import JoosStatics.Proofs.Renaming.Rules

namespace JoosStatics

/-- The same type in two accounts. -/
abbrev SameType (ρ : Renaming) (found found' : Ty) : Prop := found' = found.rename ρ.type

/-- The same types in two accounts. -/
abbrev SameTypes (ρ : Renaming) (found found' : List Ty) : Prop :=
  found' = found.map (Ty.rename ρ.type)

/-! ## §1 Steps -/

/-- Two runs agree on the steps of a body check: from states related by `I` they
reach such states again, with the same results up to the renaming, or with
errors related by `E`. -/
structure PairedSteps (ρ : Renaming) (I : CheckState → CheckState → Prop)
    (E : Violation → Violation → Prop) (ctx ctx' : BodyContext) (exprs : Expr Mark → Prop)
    (stmts : Stmt Mark → Prop) : Prop where
  context : ctx.Renames ρ ctx'
  rule : ∀ v : Violation, v.phase ≠ .typeLinking → E v (v.mapSpan ρ.span)
  exprType : ∀ {e : Expr Mark} {type : TypeSyntax}, exprs e → e.writtenType? = some type →
    Simulates I E (SameType ρ) (ctx.resolveType type) (ctx'.resolveType (type.mapSpans ρ.span))
  createdType : ∀ {mark : Mark} {type : TypeRef} {args : List (Expr Mark)},
    exprs (.create mark type args) → Simulates I E (fun id id' => id' = ρ.type id)
      (CheckM.lookup (ctx.symbols.resolveRef ctx.classId type))
      (CheckM.lookup (ctx'.symbols.resolveRef ctx'.classId (type.mapSpan ρ.span)))
  localType : ∀ {mark : Mark} {type : TypeSyntax} {name : Name} {initializer : Option (Expr Mark)},
    stmts (.localVar mark type name initializer) →
    Simulates I E (SameType ρ) (ctx.resolveType type) (ctx'.resolveType (type.mapSpans ρ.span))
  firstName : ∀ {mark : Mark} {path : QualifiedName} {first : Name}, exprs (.named mark path) →
    path.first? = some first → Simulates I E (fun found found' => found' = found.map ρ.type)
      (CheckM.lookup (ctx.symbols.lookupSimple ctx.classId first mark.range))
      (CheckM.lookup (ctx'.symbols.lookupSimple ctx'.classId first (ρ.span mark.range)))
  recordType : ∀ {e : Expr Mark}, exprs e → ∀ type : Ty, Simulates I E (SameType ρ)
    (CheckM.recordType e.note type)
    (CheckM.recordType (e.note.mapSpan ρ.span) (type.rename ρ.type))
  recordResolution : ∀ {e : Expr Mark} {res res' : Resolution}, exprs e → res.Renames ρ res' →
    Simulates I E (fun _ _ => True) (CheckM.recordResolution e.note res)
      (CheckM.recordResolution (e.note.mapSpan ρ.span) res')
  recordLocal : ∀ var : LocalVar, Simulates I E ρ.sameLocal (CheckM.recordLocal var)
    (CheckM.recordLocal (var.rename ρ))

variable {ρ : Renaming} {I : CheckState → CheckState → Prop} {E : Violation → Violation → Prop}
  {ctx ctx' : BodyContext} {exprs : Expr Mark → Prop} {stmts : Stmt Mark → Prop}
  {scope scope' : Scope}

namespace PairedSteps

variable {α α' β β' : Type} {R : α → α' → Prop} {S : β → β' → Prop}

/-- The arguments of an invocation are checked alike as well. -/
theorem forbidThis (hP : PairedSteps ρ I E ctx ctx' exprs stmts) :
    PairedSteps ρ I E { ctx with thisForbidden := true } { ctx' with thisForbidden := true }
      exprs stmts where
  context := hP.context.forbidThis
  rule := hP.rule
  exprType := hP.exprType
  createdType := hP.createdType
  localType := hP.localType
  firstName := hP.firstName
  recordType := hP.recordType
  recordResolution := hP.recordResolution
  recordLocal := hP.recordLocal

/-- A rule has the same outcome in both accounts. -/
theorem lastRule (hP : PairedSteps ρ I E ctx ctx' exprs stmts) {result : Except Violation α}
    {result' : Except Violation α'} (hrule : IsBodyRule result) (h : ρ.Matches R result result') :
    Simulates I E R (CheckM.rule result) (CheckM.rule result') := by
  intro st st' hI
  refine ⟨hI, ?_⟩
  cases h with
  | ok h => exact .ok h
  | error h =>
    subst h
    exact .error (hP.rule _ (hrule _ rfl))

theorem bindRule (hP : PairedSteps ρ I E ctx ctx' exprs stmts) {result : Except Violation α}
    {result' : Except Violation α'} {f : α → CheckM β} {f' : α' → CheckM β'}
    (hrule : IsBodyRule result) (h : ρ.Matches R result result')
    (hf : ∀ a a', R a a' → Simulates I E S (f a) (f' a')) :
    Simulates I E S (CheckM.rule result >>= f) (CheckM.rule result' >>= f') :=
  .bind (hP.lastRule hrule h) hf

/-- A violation of a rule in both accounts. -/
theorem broken (hP : PairedSteps ρ I E ctx ctx' exprs stmts) {cause : Cause} (range : Span)
    (h : cause.phase ≠ .typeLinking) :
    Simulates I E R (CheckM.rule (ctx.broken cause range))
      (CheckM.rule (ctx'.broken cause (ρ.span range))) :=
  hP.lastRule (.broken h) (hP.context.broken range cause)

end PairedSteps

/-! ## §2 Names, accesses and invocations -/

namespace BodyContext

theorem classifySimple_simulates (hP : PairedSteps ρ I E ctx ctx' exprs stmts)
    (hscope : scope.Renames ρ scope') {name : Name} {range : Span}
    (hname : Simulates I E (fun found found' => found' = found.map ρ.type)
      (CheckM.lookup (ctx.symbols.lookupSimple ctx.classId name range))
      (CheckM.lookup (ctx'.symbols.lookupSimple ctx'.classId name (ρ.span range)))) :
    Simulates I E (NameMeaning.Renames ρ) (ctx.classifySimple scope name range)
      (ctx'.classifySimple scope' name (ρ.span range)) := by
  unfold classifySimple
  rcases hscope.find? name with ⟨hnone, hnone'⟩ | ⟨id, id', var, hsome, hsome', hlocal⟩
  · rw [hnone, hnone', hP.context.classId, hP.context.field?]
    cases (ctx.hierarchy.members ctx.classId).field? name with
    | some ref =>
      simp only [Option.map_some, hP.context.table.fieldAt, FieldDef.rename]
      split
      · refine hP.bindRule (ctx.requireThis_isBodyRule range) (hP.context.requireThis range)
          (fun _ _ _ => ?_)
        exact .pure (.value _ (.field ref))
      · exact .pure (.value _ (.field ref))
    | none =>
      rw [← hP.context.classId]
      refine .bind hname (fun found found' hfound => ?_)
      subst hfound
      cases found with
      | none => exact .pure (.package _)
      | some id => exact .pure (.type id)
  · rw [hsome, hsome']
    exact .pure (.value _ (.localVar hlocal))

theorem classify_simulates (hP : PairedSteps ρ I E ctx ctx' exprs stmts)
    (hscope : scope.Renames ρ scope') {mark : Mark} {path : QualifiedName}
    (he : exprs (.named mark path)) :
    Simulates I E (NameMeaning.Renames ρ) (ctx.classify scope path mark.range)
      (ctx'.classify scope' path (ρ.span mark.range)) := by
  unfold classify
  split
  · exact hP.broken _ (by simp [Cause.phase])
  · rename_i first rest heq
    have hfirst : path.first? = some first := congrArg List.head? heq
    refine .bind (classifySimple_simulates hP hscope (hP.firstName he hfirst))
      (fun meaning meaning' hmeaning => ?_)
    exact hP.lastRule (ctx.extendAll_isBodyRule _ meaning rest)
      (hP.context.extendAll _ hmeaning rest)

theorem inferName_simulates (hP : PairedSteps ρ I E ctx ctx' exprs stmts)
    (hscope : scope.Renames ρ scope') {mark : Mark} {path : QualifiedName}
    (he : exprs (.named mark path)) :
    Simulates I E (SameValue ρ) (ctx.inferName scope mark path)
      (ctx'.inferName scope' (mark.mapSpan ρ.span) path) := by
  refine .bind (classify_simulates hP hscope he) (fun meaning meaning' hmeaning => ?_)
  cases hmeaning with
  | value type hkind =>
    exact .bind (hP.recordResolution he hkind.resolution) (fun _ _ _ => .pure ⟨rfl, hkind⟩)
  | type id => exact hP.broken _ (by simp [Cause.phase])
  | package name => exact hP.broken _ (by simp [Cause.phase])

theorem inferAssignedName_simulates (hP : PairedSteps ρ I E ctx ctx' exprs stmts)
    (hscope : scope.Renames ρ scope') {mark : Mark} {path : QualifiedName}
    (he : exprs (.named mark path)) :
    Simulates I E (SameValue ρ) (ctx.inferAssignedName scope mark path)
      (ctx'.inferAssignedName scope' (mark.mapSpan ρ.span) path) := by
  refine .bind (classify_simulates hP hscope he) (fun meaning meaning' hmeaning => ?_)
  cases hmeaning with
  | value type hkind =>
    exact .bind (hP.recordResolution he hkind.resolution) (fun _ _ _ => .pure ⟨rfl, hkind⟩)
  | type id => exact hP.broken _ (by simp [Cause.phase])
  | package name => exact hP.broken _ (by simp [Cause.phase])

theorem inferReceiverName_simulates (hP : PairedSteps ρ I E ctx ctx' exprs stmts)
    (hscope : scope.Renames ρ scope') {mark : Mark} {path : QualifiedName}
    (he : exprs (.named mark path)) :
    Simulates I E (fun left left' => left' = left.rename ρ.type)
      (ctx.inferReceiverName scope mark path)
      (ctx'.inferReceiverName scope' (mark.mapSpan ρ.span) path) := by
  refine .bind (classify_simulates hP hscope he) (fun meaning meaning' hmeaning => ?_)
  cases hmeaning with
  | value type hkind =>
    refine .bind (hP.recordResolution he hkind.resolution) (fun _ _ _ => ?_)
    refine .bind (hP.recordType he type) (fun found found' hfound => ?_)
    exact .pure (congrArg Receiver.value hfound)
  | type id => exact .bind (hP.recordResolution he (.type id)) (fun _ _ _ => .pure rfl)
  | package name => exact hP.broken _ (by simp [Cause.phase])

theorem inferAccess_simulates (hP : PairedSteps ρ I E ctx ctx' exprs stmts) {e : Expr Mark}
    (he : exprs e) (receiver : Receiver) (name : Name) :
    Simulates I E (SameValue ρ) (ctx.inferAccess e.note receiver name)
      (ctx'.inferAccess (e.note.mapSpan ρ.span) (receiver.rename ρ.type) name) := by
  refine hP.bindRule (ctx.selectField_isBodyRule _ receiver name)
    (hP.context.selectField _ receiver name) (fun found found' hfound => ?_)
  exact .bind (hP.recordResolution he hfound.2.resolution) (fun _ _ _ => .pure hfound)

theorem inferCall_simulates (hP : PairedSteps ρ I E ctx ctx' exprs stmts) {e : Expr Mark}
    (he : exprs e) (id : ClassId) (kind : CallKind) (name : Name) (args : List Ty) :
    Simulates I E (SameType ρ) (ctx.inferCall e.note id kind name args)
      (ctx'.inferCall (e.note.mapSpan ρ.span) (ρ.type id) kind name
        (args.map (Ty.rename ρ.type))) := by
  refine hP.bindRule (ctx.calledMethod_isBodyRule _ id kind name args)
    (hP.context.calledMethod _ id kind name args) (fun ref ref' href => ?_)
  subst href
  refine .bind (hP.recordResolution he (.method ref)) (fun _ _ _ => .pure ?_)
  rw [hP.context.table.methodAt]
  rfl

theorem inferCreation_simulates (hP : PairedSteps ρ I E ctx ctx' exprs stmts) {e : Expr Mark}
    (he : exprs e) (id : ClassId) (args : List Ty) :
    Simulates I E (SameType ρ) (ctx.inferCreation e.note id args)
      (ctx'.inferCreation (e.note.mapSpan ρ.span) (ρ.type id) (args.map (Ty.rename ρ.type))) := by
  refine hP.bindRule (ctx.invokedConstructor_isBodyRule _ id args)
    (hP.context.invokedConstructor _ id args) (fun ref ref' href => ?_)
  subst href
  exact .bind (hP.recordResolution he (.constructor ref)) (fun _ _ _ => .pure rfl)

theorem createdClass_simulates (hP : PairedSteps ρ I E ctx ctx' exprs stmts) {mark : Mark}
    {type : TypeRef} {args : List (Expr Mark)} (he : exprs (.create mark type args)) :
    Simulates I E (fun id id' => id' = ρ.type id) (ctx.createdClass mark type)
      (ctx'.createdClass (mark.mapSpan ρ.span) (type.mapSpan ρ.span)) := by
  refine .bind (hP.createdType he) (fun id id' hid => ?_)
  subst hid
  rw [hP.context.table.isAbstract, hP.context.table.nameOf]
  split
  · exact hP.broken _ (by simp [Cause.phase])
  · exact .pure rfl

theorem declare_simulates (hP : PairedSteps ρ I E ctx ctx' exprs stmts)
    (hscope : scope.Renames ρ scope') (var : LocalVar) :
    Simulates I E (Scope.Renames ρ) (ctx.declare scope var)
      (ctx'.declare scope' (var.rename ρ)) := by
  unfold declare
  have hname : (var.rename ρ).name = var.name := rfl
  rw [hname]
  rcases hscope.find? var.name with ⟨hnone, hnone'⟩ | ⟨id, id', other, hsome, hsome', -⟩
  · rw [hnone, hnone']
    exact .bind (hP.recordLocal var) (fun _ _ hlocal => .pure (.cons ⟨hlocal, rfl⟩ hscope))
  · rw [hsome, hsome']
    exact hP.broken _ (by simp [Cause.phase])

/-- A receiver is a name, or a value that `value` computes. -/
theorem inferReceiver_simulates (hP : PairedSteps ρ I E ctx ctx' exprs stmts)
    (hscope : scope.Renames ρ scope') {receiver : Expr Mark} (he : exprs receiver)
    {value value' : CheckM Ty} (hvalue : Simulates I E (SameType ρ) value value') :
    Simulates I E (fun left left' => left' = left.rename ρ.type)
      (ctx.inferReceiver scope receiver value)
      (ctx'.inferReceiver scope' (receiver.mapSpans ρ.span) value') := by
  have hheld : Simulates I E (fun left left' : Receiver => left' = left.rename ρ.type)
      (do return .value (← value)) (do return .value (← value')) :=
    .bind hvalue (fun _ _ hfound => .pure (congrArg Receiver.value hfound))
  cases receiver with
  | named mark path => exact inferReceiverName_simulates hP hscope he
  | _ => exact hheld

theorem inferArrayAccess_simulates (hP : PairedSteps ρ I E ctx ctx' exprs stmts) {e : Expr Mark}
    (he : exprs e) (indexRange : Span) {array array' index index' : CheckM Ty}
    (harray : Simulates I E (SameType ρ) array array')
    (hindex : Simulates I E (SameType ρ) index index') :
    Simulates I E (SameType ρ) (ctx.inferArrayAccess e.note indexRange array index)
      (ctx'.inferArrayAccess (e.note.mapSpan ρ.span) (ρ.span indexRange) array' index') := by
  refine .bind harray (fun arrayType _ harrayType => ?_)
  refine .bind hindex (fun indexType _ hindexType => ?_)
  subst harrayType hindexType
  refine hP.bindRule (ctx.elementType_isBodyRule _ arrayType indexType indexRange)
    (hP.context.elementType _ arrayType indexType indexRange) (fun element _ helement => ?_)
  subst helement
  exact hP.recordType he element

end BodyContext

/-! ## §3 Expressions -/

open BodyContext in
mutual

/-- The two checks of an expression agree. -/
theorem inferExpr_simulates (hP : PairedSteps ρ I E ctx ctx' exprs stmts)
    (hscope : scope.Renames ρ scope') (e : Expr Mark) (he : ∀ part ∈ e.parts, exprs part) :
    Simulates I E (SameType ρ) (inferExpr ctx scope e)
      (inferExpr ctx' scope' (e.mapSpans ρ.span)) := by
  have hroot : exprs e := he e e.self_mem_parts
  have hchild (child : Expr Mark) (h : child ∈ e.children) := Expr.parts_of_mem_children he h
  match e with
  | .literal mark value =>
    have hrecord := hP.recordType hroot (ctx.literalType value)
    rw [← hP.context.literalType] at hrecord
    exact hrecord
  | .named mark path =>
    refine .bind (inferName_simulates hP hscope hroot) (fun found found' hfound => ?_)
    have hrecord := hP.recordType hroot found.1
    rw [← hfound.1] at hrecord
    exact hrecord
  | .this mark =>
    have hrecord := hP.recordType hroot (.declared ctx.classId)
    refine hP.bindRule (ctx.requireThis_isBodyRule _) (hP.context.requireThis _)
      (fun _ _ _ => ?_)
    simp only [hP.context.classId]
    exact hrecord
  | .fieldAccess mark receiver name =>
    have hreceiver := hchild receiver (by simp [Expr.children])
    refine .bind (inferReceiver_simulates hP hscope (hreceiver _ receiver.self_mem_parts)
      (inferExpr_simulates hP hscope receiver hreceiver)) (fun left _ hleft => ?_)
    subst hleft
    refine .bind (inferAccess_simulates hP hroot left name) (fun found found' hfound => ?_)
    have hrecord := hP.recordType hroot found.1
    rw [← hfound.1] at hrecord
    exact hrecord
  | .call mark name args =>
    refine .bind (inferExprs_simulates hP hscope args hchild) (fun argTypes _ hargs => ?_)
    subst hargs
    rw [hP.context.classId]
    refine .bind (inferCall_simulates hP hroot ctx.classId _ name argTypes)
      (fun type _ htype => ?_)
    subst htype
    exact hP.recordType hroot type
  | .callOn mark receiver name args =>
    have hreceiver := hchild receiver (by simp [Expr.children])
    refine .bind (inferReceiver_simulates hP hscope (hreceiver _ receiver.self_mem_parts)
      (inferExpr_simulates hP hscope receiver hreceiver)) (fun left _ hleft => ?_)
    subst hleft
    refine hP.bindRule (ctx.callee_isBodyRule _ left) (hP.context.callee _ left)
      (fun target _ htarget => ?_)
    subst htarget
    refine .bind (inferExprs_simulates hP hscope args
      (fun arg h => hchild arg (List.mem_cons_of_mem _ h))) (fun argTypes _ hargs => ?_)
    subst hargs
    refine .bind (inferCall_simulates hP hroot _ _ name argTypes) (fun type _ htype => ?_)
    subst htype
    exact hP.recordType hroot type
  | .create mark type args =>
    refine .bind (createdClass_simulates hP hroot) (fun id _ hid => ?_)
    refine .bind (inferExprs_simulates hP hscope args hchild) (fun argTypes _ hargs => ?_)
    subst hid hargs
    refine .bind (inferCreation_simulates hP hroot id argTypes) (fun created _ hcreated => ?_)
    subst hcreated
    exact hP.recordType hroot created
  | .createArray mark element dims =>
    refine .bind (hP.exprType hroot rfl) (fun base _ hbase => ?_)
    refine .bind (inferDims_simulates hP hscope dims hchild) (fun _ _ _ => ?_)
    subst hbase
    rw [Expr.listMapSpans_eq, List.length_map, ← Ty.arrayOf_rename]
    exact hP.recordType hroot _
  | .arrayAccess mark array index =>
    rw [Expr.mapSpans, inferExpr, inferExpr, index.range_mapSpans]
    exact inferArrayAccess_simulates hP hroot _
      (inferExpr_simulates hP hscope array (hchild array (by simp [Expr.children])))
      (inferExpr_simulates hP hscope index (hchild index (by simp [Expr.children])))
  | .cast mark type operand =>
    refine .bind (hP.exprType hroot rfl) (fun target _ htarget => ?_)
    refine .bind (inferExpr_simulates hP hscope operand (hchild operand (by simp [Expr.children])))
      (fun found _ hfound => ?_)
    subst htarget hfound
    exact hP.bindRule (ctx.checkCast_isBodyRule _ found target)
      (hP.context.checkCast _ found target) (fun _ _ _ => hP.recordType hroot target)
  | .instanceOf mark operand type =>
    refine .bind (inferExpr_simulates hP hscope operand (hchild operand (by simp [Expr.children])))
      (fun found _ hfound => ?_)
    refine .bind (hP.exprType hroot rfl) (fun target _ htarget => ?_)
    subst htarget hfound
    exact hP.bindRule (ctx.checkInstanceOf_isBodyRule _ found target)
      (hP.context.checkInstanceOf _ found target) (fun _ _ _ => hP.recordType hroot .boolean)
  | .binary mark op lhs rhs =>
    refine .bind (inferExpr_simulates hP hscope lhs (hchild lhs (by simp [Expr.children])))
      (fun lhsType _ hlhs => ?_)
    refine .bind (inferExpr_simulates hP hscope rhs (hchild rhs (by simp [Expr.children])))
      (fun rhsType _ hrhs => ?_)
    subst hlhs hrhs
    refine hP.bindRule (ctx.binaryType_isBodyRule _ op lhsType rhsType)
      (hP.context.binaryType _ op lhsType rhsType) (fun type _ htype => ?_)
    subst htype
    exact hP.recordType hroot type
  | .unary mark op operand =>
    refine .bind (inferExpr_simulates hP hscope operand (hchild operand (by simp [Expr.children])))
      (fun found _ hfound => ?_)
    subst hfound
    refine hP.bindRule (ctx.unaryType_isBodyRule _ op found) (hP.context.unaryType _ op found)
      (fun type _ htype => ?_)
    subst htype
    exact hP.recordType hroot type
  | .incDec mark op operand =>
    refine .bind (inferTarget_simulates hP hscope operand
      (hchild operand (by simp [Expr.children]))) (fun found _ hfound => ?_)
    subst hfound
    exact hP.bindRule (ctx.checkIncDec_isBodyRule _ found) (hP.context.checkIncDec _ found)
      (fun _ _ _ => hP.recordType hroot found)
  | .assign mark target value =>
    refine .bind (inferTarget_simulates hP hscope target (hchild target (by simp [Expr.children])))
      (fun expected _ hexpected => ?_)
    refine .bind (inferExpr_simulates hP hscope value (hchild value (by simp [Expr.children])))
      (fun found _ hfound => ?_)
    subst hexpected hfound
    rw [value.range_mapSpans]
    exact hP.bindRule (ctx.requireAssignable_isBodyRule _ found expected)
      (hP.context.requireAssignable _ found expected) (fun _ _ _ => hP.recordType hroot expected)
termination_by structural e

theorem inferTarget_simulates (hP : PairedSteps ρ I E ctx ctx' exprs stmts)
    (hscope : scope.Renames ρ scope') (e : Expr Mark) (he : ∀ part ∈ e.parts, exprs part) :
    Simulates I E (SameType ρ) (inferTarget ctx scope e)
      (inferTarget ctx' scope' (e.mapSpans ρ.span)) := by
  have hroot : exprs e := he e e.self_mem_parts
  have hchild (child : Expr Mark) (h : child ∈ e.children) := Expr.parts_of_mem_children he h
  match e with
  | .named mark path =>
    refine .bind (inferAssignedName_simulates hP hscope hroot) (fun found found' hfound => ?_)
    refine hP.bindRule (ctx.requireWritable_isBodyRule _ _) (hP.context.requireWritable _ hfound.2)
      (fun _ _ _ => ?_)
    have hrecord := hP.recordType hroot found.1
    rw [← hfound.1] at hrecord
    exact hrecord
  | .fieldAccess mark receiver name =>
    have hreceiver := hchild receiver (by simp [Expr.children])
    refine .bind (inferReceiver_simulates hP hscope (hreceiver _ receiver.self_mem_parts)
      (inferExpr_simulates hP hscope receiver hreceiver)) (fun left _ hleft => ?_)
    subst hleft
    refine .bind (inferAccess_simulates hP hroot left name) (fun found found' hfound => ?_)
    refine hP.bindRule (ctx.requireWritable_isBodyRule _ _) (hP.context.requireWritable _ hfound.2)
      (fun _ _ _ => ?_)
    have hrecord := hP.recordType hroot found.1
    rw [← hfound.1] at hrecord
    exact hrecord
  | .arrayAccess mark array index =>
    rw [Expr.mapSpans, inferTarget, inferTarget, index.range_mapSpans]
    exact inferArrayAccess_simulates hP hroot _
      (inferExpr_simulates hP hscope array (hchild array (by simp [Expr.children])))
      (inferExpr_simulates hP hscope index (hchild index (by simp [Expr.children])))
  | .literal .. | .this _ | .call .. | .callOn .. | .create .. | .createArray .. | .cast .. |
    .instanceOf .. | .binary .. | .unary .. | .incDec .. | .assign .. =>
    exact hP.broken _ (by simp [Cause.phase])
termination_by structural e

theorem inferExprs_simulates (hP : PairedSteps ρ I E ctx ctx' exprs stmts)
    (hscope : scope.Renames ρ scope') (es : List (Expr Mark))
    (hes : ∀ e ∈ es, ∀ part ∈ e.parts, exprs part) :
    Simulates I E (SameTypes ρ) (inferExprs ctx scope es)
      (inferExprs ctx' scope' (Expr.listMapSpans ρ.span es)) := by
  match es with
  | [] => exact .pure rfl
  | e :: es =>
    refine .bind (inferExpr_simulates hP hscope e (hes e (List.mem_cons_self ..)))
      (fun type _ htype => ?_)
    refine .bind (inferExprs_simulates hP hscope es
      (fun e h => hes e (List.mem_cons_of_mem _ h))) (fun types _ htypes => ?_)
    subst htype htypes
    exact .pure rfl
termination_by structural es

theorem inferDims_simulates (hP : PairedSteps ρ I E ctx ctx' exprs stmts)
    (hscope : scope.Renames ρ scope') (es : List (Expr Mark))
    (hes : ∀ e ∈ es, ∀ part ∈ e.parts, exprs part) :
    Simulates I E (fun _ _ => True) (inferDims ctx scope es)
      (inferDims ctx' scope' (Expr.listMapSpans ρ.span es)) := by
  match es with
  | [] => exact .pure trivial
  | e :: es =>
    refine .bind (inferExpr_simulates hP hscope e (hes e (List.mem_cons_self ..)))
      (fun type _ htype => ?_)
    subst htype
    rw [e.range_mapSpans]
    refine hP.bindRule (ctx.requireNumeric_isBodyRule _ type) (hP.context.requireNumeric _ type)
      (fun _ _ _ => ?_)
    exact inferDims_simulates hP hscope es (fun e h => hes e (List.mem_cons_of_mem _ h))
termination_by structural es

end

/-! ## §4 Statements -/

section Statements

variable (hP : PairedSteps ρ I E ctx ctx' exprs stmts) (hscope : scope.Renames ρ scope')
include hP hscope

theorem checkCondition_simulates (condition : Expr Mark)
    (he : ∀ part ∈ condition.parts, exprs part) :
    Simulates I E (fun _ _ => True) (checkCondition ctx scope condition)
      (checkCondition ctx' scope' (condition.mapSpans ρ.span)) := by
  refine .bind (inferExpr_simulates hP hscope condition he) (fun found _ hfound => ?_)
  subst hfound
  rw [condition.range_mapSpans]
  exact hP.lastRule (ctx.requireAssignable_isBodyRule _ found .boolean)
    (hP.context.requireAssignable _ found .boolean)

theorem checkConditionOption_simulates (condition : Option (Expr Mark))
    (he : ∀ e ∈ condition.toList, ∀ part ∈ e.parts, exprs part) :
    Simulates I E (fun _ _ => True) (checkConditionOption ctx scope condition)
      (checkConditionOption ctx' scope' (condition.map (Expr.mapSpans ρ.span))) := by
  cases condition with
  | none => exact .pure trivial
  | some condition => exact checkCondition_simulates hP hscope condition (he condition (by simp))

theorem checkUpdate_simulates (update : Option (Expr Mark))
    (he : ∀ e ∈ update.toList, ∀ part ∈ e.parts, exprs part) :
    Simulates I E (fun _ _ => True) (checkUpdate ctx scope update)
      (checkUpdate ctx' scope' (update.map (Expr.mapSpans ρ.span))) := by
  cases update with
  | none => exact .pure trivial
  | some update =>
    exact .bind (inferExpr_simulates hP hscope update (he update (by simp)))
      (fun _ _ _ => .pure trivial)

theorem checkInitializer_simulates (expected : Ty) (initializer : Option (Expr Mark))
    (he : ∀ e ∈ initializer.toList, ∀ part ∈ e.parts, exprs part) :
    Simulates I E (fun _ _ => True) (checkInitializer ctx scope expected initializer)
      (checkInitializer ctx' scope' (expected.rename ρ.type)
        (initializer.map (Expr.mapSpans ρ.span))) := by
  cases initializer with
  | none => exact .pure trivial
  | some value =>
    refine .bind (inferExpr_simulates hP hscope value (he value (by simp)))
      (fun found _ hfound => ?_)
    subst hfound
    rw [value.range_mapSpans]
    exact hP.lastRule (ctx.requireAssignable_isBodyRule _ found expected)
      (hP.context.requireAssignable _ found expected)

theorem checkReturn_simulates (range : Span) (value : Option (Expr Mark))
    (he : ∀ e ∈ value.toList, ∀ part ∈ e.parts, exprs part) :
    Simulates I E (fun _ _ => True) (checkReturn ctx scope range value)
      (checkReturn ctx' scope' (ρ.span range) (value.map (Expr.mapSpans ρ.span))) := by
  cases value with
  | none =>
    simp only [checkReturn, Option.map_none, hP.context.expectedReturn, Ty.rename_eq_void,
      hP.context.table.display]
    split
    · exact .pure trivial
    · exact hP.broken _ (by simp [Cause.phase])
  | some value =>
    refine .bind (inferExpr_simulates hP hscope value (he value (by simp)))
      (fun found _ hfound => ?_)
    subst hfound
    simp only [hP.context.expectedReturn, Ty.rename_eq_void, hP.context.table.display,
      value.range_mapSpans]
    split
    · exact hP.broken _ (by simp [Cause.phase])
    · exact hP.lastRule (ctx.requireAssignable_isBodyRule _ found _)
        (hP.context.requireAssignable _ found _)

end Statements

open BodyContext in
mutual

/-- The two checks of a statement agree. -/
theorem checkStmt_simulates (hP : PairedSteps ρ I E ctx ctx' exprs stmts)
    {scope scope' : Scope} (hscope : scope.Renames ρ scope') (s : Stmt Mark)
    (hs : s.Within exprs stmts) :
    Simulates I E (Scope.Renames ρ) (checkStmt ctx scope s)
      (checkStmt ctx' scope' (s.mapSpans ρ.span)) := by
  have hexpr (e : Expr Mark) (he : e ∈ s.exprChildren) := hs.exprChild he
  have hstmt (child : Stmt Mark) (hchild : child ∈ s.stmtChildren) := hs.stmtChild hchild
  match s with
  | .block mark ss =>
    exact .bind (checkStmts_simulates hP hscope ss hstmt) (fun _ _ _ => .pure hscope)
  | .localVar mark type name initializer =>
    refine .bind (hP.localType hs.root) (fun declared _ hdeclared => ?_)
    subst hdeclared
    refine .bind (checkInitializer_simulates hP hscope declared initializer hexpr)
      (fun _ _ _ => ?_)
    exact declare_simulates hP hscope
      { name, type := declared, span := mark.range, isParam := false }
  | .expression mark value =>
    exact .bind (inferExpr_simulates hP hscope value (hexpr value (by simp [Stmt.exprChildren])))
      (fun _ _ _ => .pure hscope)
  | .branch mark condition thenBranch elseBranch =>
    refine .bind (checkCondition_simulates hP hscope condition
      (hexpr condition (by simp [Stmt.exprChildren]))) (fun _ _ _ => ?_)
    refine .bind (checkStmt_simulates hP hscope thenBranch
      (hstmt thenBranch (by simp [Stmt.stmtChildren]))) (fun _ _ _ => ?_)
    exact .bind (checkStmtOption_simulates hP hscope elseBranch
      (fun s hs => hstmt s (List.mem_cons_of_mem _ hs))) (fun _ _ _ => .pure hscope)
  | .whileLoop mark condition body =>
    refine .bind (checkCondition_simulates hP hscope condition
      (hexpr condition (by simp [Stmt.exprChildren]))) (fun _ _ _ => ?_)
    exact .bind (checkStmt_simulates hP hscope body (hstmt body (by simp [Stmt.stmtChildren])))
      (fun _ _ _ => .pure hscope)
  | .forLoop mark init condition update body =>
    refine .bind (checkStmtOption_simulates hP hscope init
      (fun s hs => hstmt s (List.mem_append_left _ hs))) (fun inner inner' hinner => ?_)
    refine .bind (checkConditionOption_simulates hP hinner condition
      (fun e he => hexpr e (List.mem_append_left _ he))) (fun _ _ _ => ?_)
    refine .bind (checkUpdate_simulates hP hinner update
      (fun e he => hexpr e (List.mem_append_right _ he))) (fun _ _ _ => ?_)
    exact .bind (checkStmt_simulates hP hinner body (hstmt body (by simp [Stmt.stmtChildren])))
      (fun _ _ _ => .pure hscope)
  | .returnValue mark value =>
    exact .bind (checkReturn_simulates hP hscope mark.range value hexpr)
      (fun _ _ _ => .pure hscope)
  | .throwValue mark value =>
    refine .bind (inferExpr_simulates hP hscope value (hexpr value (by simp [Stmt.exprChildren])))
      (fun found _ hfound => ?_)
    subst hfound
    exact hP.bindRule (checkThrown_isBodyRule ctx found _) (hP.context.checkThrown _ found)
      (fun _ _ _ => .pure hscope)
  | .breakLoop mark => exact .pure hscope
  | .empty mark => exact .pure hscope
  | .constructorCall mark call args => exact hP.broken _ (by simp [Cause.phase])
termination_by structural s

theorem checkStmts_simulates (hP : PairedSteps ρ I E ctx ctx' exprs stmts)
    {scope scope' : Scope} (hscope : scope.Renames ρ scope') (ss : List (Stmt Mark))
    (hss : ∀ s ∈ ss, s.Within exprs stmts) :
    Simulates I E (Scope.Renames ρ) (checkStmts ctx scope ss)
      (checkStmts ctx' scope' (Stmt.listMapSpans ρ.span ss)) := by
  match ss with
  | [] => exact .pure hscope
  | s :: ss =>
    refine .bind (checkStmt_simulates hP hscope s (hss s (List.mem_cons_self ..)))
      (fun inner inner' hinner => ?_)
    exact checkStmts_simulates hP hinner ss (fun s hs => hss s (List.mem_cons_of_mem _ hs))
termination_by structural ss

theorem checkStmtOption_simulates (hP : PairedSteps ρ I E ctx ctx' exprs stmts)
    {scope scope' : Scope} (hscope : scope.Renames ρ scope') (s : Option (Stmt Mark))
    (hs : ∀ child ∈ s.toList, child.Within exprs stmts) :
    Simulates I E (Scope.Renames ρ) (checkStmtOption ctx scope s)
      (checkStmtOption ctx' scope' (Stmt.optionMapSpans ρ.span s)) := by
  match s with
  | none => exact .pure hscope
  | some s => exact checkStmt_simulates hP hscope s (hs s (by simp))
termination_by structural s

end

/-! ## §5 Members -/

theorem declareParams_simulates (hP : PairedSteps ρ I E ctx ctx' exprs stmts)
    (hscope : scope.Renames ρ scope') (params : List (Param × Ty)) :
    Simulates I E (Scope.Renames ρ) (declareParams ctx scope params)
      (declareParams ctx' scope'
        (params.map (Prod.map (Param.mapSpans ρ.span) (Ty.rename ρ.type)))) := by
  induction params generalizing scope scope' with
  | nil => exact .pure hscope
  | cons entry params ih =>
    exact .bind (BodyContext.declare_simulates hP hscope
      { name := entry.1.name, type := entry.2, span := entry.1.range, isParam := true })
      (fun _ _ hinner => ih hinner)

theorem checkSuperInvocation_simulates (hP : PairedSteps ρ I E ctx ctx' exprs stmts)
    (hscope : scope.Renames ρ scope') (args : List (Expr Mark)) (range : Span)
    (hargs : ∀ e ∈ args, ∀ part ∈ e.parts, exprs part) :
    Simulates I E (fun _ _ => True) (checkSuperInvocation ctx scope args range)
      (checkSuperInvocation ctx' scope' (Expr.listMapSpans ρ.span args) (ρ.span range)) := by
  refine .bind (inferExprs_simulates hP.forbidThis hscope args hargs)
    (fun argTypes _ hargTypes => ?_)
  subst hargTypes
  rw [hP.context.classId, hP.context.table.superclass]
  cases (ctx.table.classAt ctx.classId).superclass with
  | none =>
    simp only [Option.map_none, Expr.listMapSpans_eq, List.isEmpty_map,
      hP.context.table.displayList]
    split
    · exact .pure trivial
    · exact hP.broken _ (by simp [Cause.phase])
  | some superclass =>
    exact hP.bindRule (ctx.invokedConstructor_isBodyRule range superclass argTypes)
      (hP.context.invokedConstructor range superclass argTypes) (fun _ _ _ => .pure trivial)

/-- Both runs record the same target. -/
theorem checkThisInvocation_simulates (hP : PairedSteps ρ I E ctx ctx' exprs stmts)
    (hscope : scope.Renames ρ scope') {constructor : ConstructorRef} (args : List (Expr Mark))
    (range : Span) (hargs : ∀ e ∈ args, ∀ part ∈ e.parts, exprs part)
    (htarget : ∀ target, Simulates I E (fun _ _ => True) (CheckM.recordTarget constructor target)
      (CheckM.recordTarget (ρ.constructor constructor) (ρ.constructor target))) :
    Simulates I E (fun _ _ => True) (checkThisInvocation ctx scope constructor args range)
      (checkThisInvocation ctx' scope' (ρ.constructor constructor)
        (Expr.listMapSpans ρ.span args) (ρ.span range)) := by
  refine .bind (inferExprs_simulates hP.forbidThis hscope args hargs)
    (fun argTypes _ hargTypes => ?_)
  subst hargTypes
  rw [hP.context.classId]
  refine hP.bindRule (ctx.invokedConstructor_isBodyRule range ctx.classId argTypes)
    (hP.context.invokedConstructor range ctx.classId argTypes) (fun target _ h => ?_)
  subst h
  exact htarget target

theorem Stmt.statements_mapSpans (f : Span → Span) (body : Stmt Mark) :
    (body.mapSpans f).statements = body.statements.map (Stmt.mapSpans f) := by
  cases body with
  | block mark ss => exact Stmt.listMapSpans_eq f ss
  | _ => rfl

theorem checkConstructorBody_simulates (hP : PairedSteps ρ I E ctx ctx' exprs stmts)
    (hscope : scope.Renames ρ scope') {constructor : ConstructorRef} (body : Stmt Mark)
    (hbody : body.Within exprs stmts)
    (htarget : ∀ target, Simulates I E (fun _ _ => True) (CheckM.recordTarget constructor target)
      (CheckM.recordTarget (ρ.constructor constructor) (ρ.constructor target))) :
    Simulates I E (fun _ _ => True) (checkConstructorBody ctx scope constructor body)
      (checkConstructorBody ctx' scope' (ρ.constructor constructor)
        (body.mapSpans ρ.span)) := by
  have hstmts := hbody.statements
  have hplain (ss : List (Stmt Mark)) (hss : ∀ s ∈ ss, s.Within exprs stmts) :
      Simulates I E (fun _ _ => True)
        (do
          checkSuperInvocation ctx scope [] body.range
          let _ ← checkStmts ctx scope ss)
        (do
          checkSuperInvocation ctx' scope' [] (ρ.span body.range)
          let _ ← checkStmts ctx' scope' (Stmt.listMapSpans ρ.span ss)) :=
    .bind (checkSuperInvocation_simulates hP hscope [] _ (List.forall_mem_nil _)) (fun _ _ _ =>
      .bind (checkStmts_simulates hP hscope ss hss) (fun _ _ _ => .pure trivial))
  unfold checkConstructorBody
  rw [Stmt.statements_mapSpans, body.range_mapSpans, ← Stmt.listMapSpans_eq]
  revert hstmts
  match body.statements with
  | .constructorCall mark call args :: rest =>
    intro hstmts
    have hargs (e : Expr Mark) (he : e ∈ args) := (hstmts (.constructorCall mark call args)
      (List.mem_cons_self ..)).exprChild he
    have hrest := checkStmts_simulates hP hscope rest
      (fun s hs => hstmts s (List.mem_cons_of_mem _ hs))
    cases call with
    | this =>
      refine .bind (checkThisInvocation_simulates hP hscope args _ hargs htarget)
        (fun _ _ _ => ?_)
      exact .bind hrest (fun _ _ _ => .pure trivial)
    | super =>
      refine .bind (checkSuperInvocation_simulates hP hscope args _ hargs) (fun _ _ _ => ?_)
      exact .bind hrest (fun _ _ _ => .pure trivial)
  | [] => exact fun hstmts => hplain [] hstmts
  | .block .. :: _ | .localVar .. :: _ | .expression .. :: _ | .branch .. :: _ |
    .whileLoop .. :: _ | .forLoop .. :: _ | .returnValue .. :: _ | .throwValue .. :: _ |
    .breakLoop _ :: _ | .empty _ :: _ => exact fun hstmts => hplain _ hstmts

end JoosStatics
