/-
JoosStatics.Proofs.Typing.Expressions — the check of an expression explains
it.

* `classify_establishes` — names are classified as they denote.
* `inferExpr_establishes`, `inferTarget_establishes` — a successful check
  leaves facts that explain the expression and everything inside it, and
  returns the type that it has recorded for the expression.
-/
import JoosStatics.Proofs.Typing.Establishing

namespace JoosStatics

/-! ## §1 Lookups -/

namespace SymbolTable

variable {s : SymbolTable} {α : Type}

theorem Denotes.ensures {x : LookupM α} {keys : List (ClassId × Name)} {valid : Prop} {value : α}
    (h : s.Denotes x keys valid value) : Ensures s.Recorded x (fun a => valid ∧ a = value) := by
  intro st a st' hst hrun
  obtain ⟨hst', ⟨hvalid, hok, -⟩ | ⟨-, v, herror⟩⟩ := h st hst
  · rw [hrun] at hst' hok
    exact ⟨hst', hvalid, Except.ok.inj hok⟩
  · rw [hrun] at herror
    cases herror

theorem lookupSimple_answers (ctx : ClassId) (name : Name) (range : Span) :
    Ensures s.Recorded (s.lookupSimple ctx name range)
      (fun found => found = s.simpleType? ctx name) := by
  intro st a st' hst hrun
  have hst' := (lookupSimple_recorded ctx name range hst).1
  rw [hrun] at hst'
  exact ⟨hst', (simpleType?_of_lookupSimple hst.found (congrArg Prod.fst hrun)).symm⟩

theorem resolveRef_answers (id : ClassId) (ref : TypeRef) :
    Ensures s.Recorded (s.resolveRef id ref)
      (fun found => s.namedType? id ref.name = some found) := by
  refine (resolveRef_denotes id ref).ensures.mono ?_
  rintro found ⟨hname, rfl⟩
  have hsome := hname ref.name (List.mem_singleton_self _)
  obtain ⟨found, hfound⟩ := Option.isSome_iff_exists.mp hsome
  unfold denotation
  rw [hfound]
  rfl

end SymbolTable

variable {ctx : BodyContext}

theorem resolveType_answers (type : TypeSyntax) :
    Ensures ctx.symbols.Recorded (ctx.symbols.resolveType ctx.classId type)
      (ctx.DenotesType type) :=
  (SymbolTable.resolveType_denotes ctx.classId type).ensures

/-! ## §2 Names and invocations -/

namespace BodyContext

open Establishes

theorem classifySimple_establishes (scope : Scope) (name : Name) (range : Span) :
    Establishes ctx.symbols [] (ctx.classifySimple scope name range)
      (fun _ meaning => ctx.DenotesFirst scope name meaning) := by
  unfold classifySimple
  split
  · rename_i id var hvar
    exact .pure _ (fun _ => .localVar hvar)
  · rename_i hvar
    split
    · rename_i ref hfield
      dsimp only
      split
      · refine .rule_bind (fun _ hthis => .pure _ (fun _ => ?_))
        exact .field hvar hfield (fun _ => requireThis_eq_ok.mp hthis)
      · rename_i hstatic
        refine .pure _ (fun _ => .field hvar hfield (fun hinstance => ?_))
        simp [hinstance] at hstatic
    · rename_i hfield
      refine .lookup_bind (SymbolTable.lookupSimple_answers ctx.classId name range) ?_
      intro found htype
      cases found with
      | none => exact .pure _ (fun _ => .package hvar hfield htype.symm)
      | some id => exact .pure _ (fun _ => .type hvar hfield htype.symm)

/-- A name is classified as it denotes. -/
theorem classify_establishes (scope : Scope) (path : QualifiedName) (range : Span) :
    Establishes ctx.symbols [] (ctx.classify scope path range)
      (fun _ meaning => ctx.Denotes scope path.segments meaning) := by
  unfold classify
  split
  · exact rule.mono (fun _ _ h => nomatch h)
  · rename_i first rest hsegments
    rw [hsegments]
    refine (classifySimple_establishes scope first range).bind (fun before =>
      rule.mono (fun _ _ hextend hfirst => (Denotes.first hfirst).extendAll hextend))

theorem inferName_establishes (scope : Scope) (mark : Mark) (path : QualifiedName) :
    Establishes ctx.symbols [.resolution mark.id] (ctx.inferName scope mark path)
      (fun facts found => ctx.Denotes scope path.segments (.value found.1 found.2) ∧
        facts.resolutions.find? mark.id = some found.2.resolution) := by
  refine (classify_establishes scope path mark.range).bind (fun meaning => ?_)
  split
  · exact (recordResolution mark _).bind_pure (fun _ _ hrecorded hname => ⟨hname, hrecorded⟩)
  · exact .rule_fails

theorem inferAssignedName_establishes (scope : Scope) (mark : Mark) (path : QualifiedName) :
    Establishes ctx.symbols [.resolution mark.id] (ctx.inferAssignedName scope mark path)
      (fun facts found => ctx.Denotes scope path.segments (.value found.1 found.2) ∧
        facts.resolutions.find? mark.id = some found.2.resolution) := by
  refine (classify_establishes scope path mark.range).bind (fun meaning => ?_)
  split
  · exact (recordResolution mark _).bind_pure (fun _ _ hrecorded hname => ⟨hname, hrecorded⟩)
  · exact .rule_fails
  · exact .rule_fails

/-- A name to the left of a selection is that of a type or of a variable. -/
theorem inferReceiverName_establishes (scope : Scope) (mark : Mark) (path : QualifiedName) :
    Establishes ctx.symbols (Slot.both mark.id) (ctx.inferReceiverName scope mark path)
      (fun facts left => facts.Receives (.named mark path) left ∧
        ctx.Explains facts scope (.named mark path)) := by
  refine (classify_establishes scope path mark.range).bind (fun meaning => ?_)
  split
  · rename_i id
    refine ((recordResolution mark (.type id)).append_blank [.type mark.id]).bind_pure ?_
    rintro facts _ ⟨hrecorded, hblank⟩ hname
    have htold : facts.Says mark none (some (.type id)) :=
      ⟨hblank _ (List.mem_singleton_self _), hrecorded⟩
    exact ⟨htold, .typeName hname htold⟩
  · refine (recordResolution mark _).bind (fun _ => ?_)
    refine (recordType mark _).bind_pure ?_
    rintro facts _ ⟨rfl, htype⟩ hrecorded hname
    exact ⟨htype, .valueName hname ⟨htype, hrecorded⟩⟩
  · exact .rule_fails

theorem inferAccess_establishes (mark : Mark) (left : Receiver) (name : Name) :
    Establishes ctx.symbols [.resolution mark.id] (ctx.inferAccess mark left name)
      (fun facts found => ctx.selectField left name mark.range = .ok found ∧
        facts.resolutions.find? mark.id = some found.2.resolution) := by
  refine .rule_bind (fun found hselect => ?_)
  exact (recordResolution mark _).bind_pure (fun _ _ hrecorded => ⟨hselect, hrecorded⟩)

theorem inferCall_establishes (mark : Mark) (id : ClassId) (kind : CallKind) (name : Name)
    (args : List Ty) :
    Establishes ctx.symbols [.resolution mark.id] (ctx.inferCall mark id kind name args)
      (fun facts type => ∃ ref, ctx.calledMethod id kind name args mark.range = .ok ref ∧
        type = (ctx.table.methodAt ref).returnType ∧
        facts.resolutions.find? mark.id = some (.method ref)) := by
  refine .rule_bind (fun ref hcall => ?_)
  exact (recordResolution mark _).bind_pure (fun _ _ hrecorded => ⟨ref, hcall, rfl, hrecorded⟩)

theorem inferCreation_establishes (mark : Mark) (id : ClassId) (args : List Ty) :
    Establishes ctx.symbols [.resolution mark.id] (ctx.inferCreation mark id args)
      (fun facts type => ∃ ref, ctx.invokedConstructor id args mark.range = .ok ref ∧
        type = .declared id ∧ facts.resolutions.find? mark.id = some (.constructor ref)) := by
  refine .rule_bind (fun ref hcreate => ?_)
  exact (recordResolution mark _).bind_pure (fun _ _ hrecorded => ⟨ref, hcreate, rfl, hrecorded⟩)

theorem createdClass_establishes (mark : Mark) (type : TypeRef) :
    Establishes ctx.symbols [] (ctx.createdClass mark type)
      (fun _ id => ctx.symbols.namedType? ctx.classId type.name = some id ∧
        (ctx.table.classAt id).isAbstract = false) := by
  refine .lookup_bind (SymbolTable.resolveRef_answers ctx.classId type) (fun id hid => ?_)
  split
  · exact .rule_fails
  · rename_i hconcrete
    exact .pure _ (fun _ => ⟨hid, Bool.eq_false_iff.mpr hconcrete⟩)

end BodyContext

/-! ## §3 Expressions -/

/-- The slots of everything inside an expression. -/
def Expr.slots (e : Expr Mark) : List Slot := e.ids.flatMap Slot.both

theorem Expr.slots_eq (e : Expr Mark) :
    e.slots = Slot.both e.note.id ++ e.children.flatMap Expr.slots := by
  unfold Expr.slots
  rw [Expr.ids_eq, List.flatMap_cons, List.flatMap_assoc]

namespace Establishes

variable {α : Type} {s : SymbolTable} {S : List Slot} {x : CheckM α} {P : ClassFacts → α → Prop}

/-- The check of an expression records facts at its operands, then at the
expression itself. -/
theorem node {e : Expr Mark} (hx : Establishes s S x P)
    (hS : S = e.children.flatMap Expr.slots ++ Slot.both e.note.id) :
    Establishes s e.slots x P := by
  subst hS
  rw [Expr.slots_eq]
  exact hx.perm List.perm_append_comm

end Establishes

/-- What the check of an expression finds out. -/
def BodyContext.Finds (ctx : BodyContext) (scope : Scope) (e : Expr Mark) (facts : ClassFacts)
    (type : Ty) : Prop :=
  facts.typeOf? e = some type ∧ ctx.ExplainsIn facts scope e

namespace BodyContext

open Establishes

/-- What stands to the left of a selection is a name, or a value that `value`
computes. -/
theorem inferReceiver_establishes (scope : Scope) {receiver : Expr Mark} {value : CheckM Ty}
    (hvalue : Establishes ctx.symbols receiver.slots value (ctx.Finds scope receiver)) :
    Establishes ctx.symbols receiver.slots (ctx.inferReceiver scope receiver value)
      (fun facts left => facts.Receives receiver left ∧ ctx.ExplainsIn facts scope receiver) := by
  unfold inferReceiver
  split
  · rename_i mark path
    refine .node ((inferReceiverName_establishes scope mark path).mono ?_)
      (by simp [Expr.children, Expr.note])
    exact fun _ _ ⟨hleft, hname⟩ => ⟨hleft, .intro hname (List.forall_mem_nil _)⟩
  · exact hvalue.bind_pure (fun _ _ hfinds => hfinds)

theorem inferArrayAccess_establishes {scope : Scope} {mark : Mark} {array index : Expr Mark}
    {arrayCheck indexCheck : CheckM Ty}
    (harray : Establishes ctx.symbols array.slots arrayCheck (ctx.Finds scope array))
    (hindex : Establishes ctx.symbols index.slots indexCheck (ctx.Finds scope index)) :
    Establishes ctx.symbols (Expr.arrayAccess mark array index).slots
      (ctx.inferArrayAccess mark index.range arrayCheck indexCheck)
      (ctx.Finds scope (.arrayAccess mark array index)) := by
  refine .node (harray.bind (fun arrayType => hindex.bind (fun indexType =>
    .rule_bind (fun element helement => (recordType_alone mark element).mono ?_))))
    (by simp [Expr.children, Expr.note])
  rintro facts _ ⟨rfl, htold⟩ ⟨hindexType, hindexIn⟩ ⟨harrayType, harrayIn⟩
  exact ⟨htold.type, .intro (.arrayAccess harrayType hindexType helement htold)
    (List.forall_mem_cons.mpr ⟨harrayIn, List.forall_mem_singleton.mpr hindexIn⟩)⟩

end BodyContext

open BodyContext Establishes in
mutual

/-- A successful check of an expression explains it. -/
theorem inferExpr_establishes (ctx : BodyContext) (scope : Scope) (e : Expr Mark) :
    Establishes ctx.symbols e.slots (inferExpr ctx scope e) (ctx.Finds scope e) := by
  match e with
  | .literal mark value =>
    refine .node ((recordType_alone mark _).mono ?_)
      (by simp [Expr.children, Expr.note])
    rintro facts _ ⟨rfl, htold⟩
    exact ⟨htold.type, .intro (.literal htold) (List.forall_mem_nil _)⟩
  | .named mark path =>
    refine .node ((inferName_establishes scope mark path).bind (fun found =>
      (recordType mark found.1).mono ?_)) (by simp [Expr.children, Expr.note, Slot.both])
    rintro facts _ ⟨rfl, htype⟩ ⟨hname, hrecorded⟩
    exact ⟨htype, .intro (.valueName hname ⟨htype, hrecorded⟩) (List.forall_mem_nil _)⟩
  | .this mark =>
    refine .node (.rule_bind (fun _ hthis => (recordType_alone mark _).mono ?_))
      (by simp [Expr.children, Expr.note])
    rintro facts _ ⟨rfl, htold⟩
    exact ⟨htold.type, .intro (.this (requireThis_eq_ok.mp hthis) htold) (List.forall_mem_nil _)⟩
  | .fieldAccess mark receiver name =>
    refine .node ((inferReceiver_establishes scope (inferExpr_establishes ctx scope receiver)).bind
      (fun left => (inferAccess_establishes mark left name).bind (fun found =>
        (recordType mark found.1).mono ?_))) (by simp [Expr.children, Expr.note, Slot.both])
    rintro facts _ ⟨rfl, htype⟩ ⟨hselect, hrecorded⟩ ⟨hleft, hreceiver⟩
    exact ⟨htype, .intro (.fieldAccess hleft hselect ⟨htype, hrecorded⟩)
      (List.forall_mem_singleton.mpr hreceiver)⟩
  | .call mark name args =>
    refine .node ((inferExprs_establishes ctx scope args).bind (fun argTypes =>
      (inferCall_establishes mark _ _ name argTypes).bind (fun type =>
        (recordType mark type).mono ?_))) (by simp [Expr.children, Expr.note, Slot.both])
    rintro facts _ ⟨rfl, htype⟩ ⟨ref, hcall, rfl, hrecorded⟩ ⟨hargs, hin⟩
    exact ⟨htype, .intro (.call hargs hcall ⟨htype, hrecorded⟩) hin⟩
  | .callOn mark receiver name args =>
    refine .node ((inferReceiver_establishes scope (inferExpr_establishes ctx scope receiver)).bind
      (fun left => .rule_bind (fun target hcallee => (inferExprs_establishes ctx scope args).bind
        (fun argTypes => (inferCall_establishes mark _ _ name argTypes).bind (fun type =>
          (recordType mark type).mono ?_))))) (by simp [Expr.children, Expr.note, Slot.both])
    rintro facts _ ⟨rfl, htype⟩ ⟨ref, hcall, rfl, hrecorded⟩ ⟨hargs, hin⟩ ⟨hleft, hreceiver⟩
    exact ⟨htype, .intro (.callOn hleft hcallee hargs hcall ⟨htype, hrecorded⟩)
      (List.forall_mem_cons.mpr ⟨hreceiver, hin⟩)⟩
  | .create mark type args =>
    refine .node ((createdClass_establishes mark type).bind (fun id =>
      (inferExprs_establishes ctx scope args).bind (fun argTypes =>
        (inferCreation_establishes mark id argTypes).bind (fun type =>
          (recordType mark type).mono ?_)))) (by simp [Expr.children, Expr.note, Slot.both])
    rintro facts _ ⟨rfl, htype⟩ ⟨ref, hcreate, rfl, hrecorded⟩ ⟨hargs, hin⟩ ⟨hname, hconcrete⟩
    exact ⟨htype, .intro (.create hname hconcrete hargs hcreate ⟨htype, hrecorded⟩) hin⟩
  | .createArray mark element dims =>
    refine .node (.lookup_bind (resolveType_answers element) (fun base hbase =>
      (inferDims_establishes ctx scope dims).bind (fun _ => (recordType_alone mark _).mono ?_)))
      (by simp [Expr.children, Expr.note])
    rintro facts _ ⟨rfl, htold⟩ ⟨hdims, hin⟩
    exact ⟨htold.type, .intro (.createArray hbase hdims htold) hin⟩
  | .arrayAccess mark array index =>
    exact inferArrayAccess_establishes (inferExpr_establishes ctx scope array)
      (inferExpr_establishes ctx scope index)
  | .cast mark type operand =>
    refine .node (.lookup_bind (resolveType_answers type) (fun target htarget =>
      (inferExpr_establishes ctx scope operand).bind (fun found => .rule_bind (fun _ hcast =>
        (recordType_alone mark _).mono ?_)))) (by simp [Expr.children, Expr.note])
    rintro facts _ ⟨rfl, htold⟩ ⟨hfound, hin⟩
    exact ⟨htold.type, .intro (.cast htarget hfound hcast htold)
      (List.forall_mem_singleton.mpr hin)⟩
  | .instanceOf mark operand type =>
    refine .node ((inferExpr_establishes ctx scope operand).bind (fun found =>
      .lookup_bind (resolveType_answers type) (fun target htarget => .rule_bind (fun _ htest =>
        (recordType_alone mark _).mono ?_)))) (by simp [Expr.children, Expr.note])
    rintro facts _ ⟨rfl, htold⟩ ⟨hfound, hin⟩
    exact ⟨htold.type, .intro (.instanceOf hfound htarget htest htold)
      (List.forall_mem_singleton.mpr hin)⟩
  | .binary mark op lhs rhs =>
    refine .node ((inferExpr_establishes ctx scope lhs).bind (fun lhsType =>
      (inferExpr_establishes ctx scope rhs).bind (fun rhsType => .rule_bind (fun type hop =>
        (recordType_alone mark _).mono ?_)))) (by simp [Expr.children, Expr.note])
    rintro facts _ ⟨rfl, htold⟩ ⟨hrhs, hrhsIn⟩ ⟨hlhs, hlhsIn⟩
    exact ⟨htold.type, .intro (.binary hlhs hrhs hop htold)
      (List.forall_mem_cons.mpr ⟨hlhsIn, List.forall_mem_singleton.mpr hrhsIn⟩)⟩
  | .unary mark op operand =>
    refine .node ((inferExpr_establishes ctx scope operand).bind (fun found =>
      .rule_bind (fun type hop => (recordType_alone mark _).mono ?_)))
      (by simp [Expr.children, Expr.note])
    rintro facts _ ⟨rfl, htold⟩ ⟨hfound, hin⟩
    exact ⟨htold.type, .intro (.unary hfound hop htold) (List.forall_mem_singleton.mpr hin)⟩
  | .incDec mark op operand =>
    refine .node ((inferTarget_establishes ctx scope operand).bind (fun found =>
      .rule_bind (fun _ hnumeric => (recordType_alone mark _).mono ?_)))
      (by simp [Expr.children, Expr.note])
    rintro facts _ ⟨rfl, htold⟩ ⟨⟨hfound, hin⟩, htarget⟩
    exact ⟨htold.type, .intro (.incDec hfound htarget hnumeric htold)
      (List.forall_mem_singleton.mpr hin)⟩
  | .assign mark target value =>
    refine .node ((inferTarget_establishes ctx scope target).bind (fun expected =>
      (inferExpr_establishes ctx scope value).bind (fun found => .rule_bind (fun _ hassign =>
        (recordType_alone mark _).mono ?_)))) (by simp [Expr.children, Expr.note])
    rintro facts _ ⟨rfl, htold⟩ ⟨hfound, hvalueIn⟩ ⟨⟨hexpected, htargetIn⟩, htarget⟩
    exact ⟨htold.type, .intro (.assign hexpected htarget hfound hassign htold)
      (List.forall_mem_cons.mpr ⟨htargetIn, List.forall_mem_singleton.mpr hvalueIn⟩)⟩
termination_by structural e

/-- An expression that is assigned is explained as well, and may be assigned. -/
theorem inferTarget_establishes (ctx : BodyContext) (scope : Scope) (e : Expr Mark) :
    Establishes ctx.symbols e.slots (inferTarget ctx scope e)
      (fun facts type => ctx.Finds scope e facts type ∧ ctx.MayAssign facts e) := by
  match e with
  | .named mark path =>
    refine .node ((inferAssignedName_establishes scope mark path).bind (fun found =>
      .rule_bind (fun _ hwritable => (recordType mark found.1).mono ?_)))
      (by simp [Expr.children, Expr.note, Slot.both])
    rintro facts _ ⟨rfl, htype⟩ ⟨hname, hrecorded⟩
    exact ⟨⟨htype, .intro (.valueName hname ⟨htype, hrecorded⟩) (List.forall_mem_nil _)⟩,
      _, hrecorded, hwritable⟩
  | .fieldAccess mark receiver name =>
    refine .node ((inferReceiver_establishes scope (inferExpr_establishes ctx scope receiver)).bind
      (fun left => (inferAccess_establishes mark left name).bind (fun found =>
        .rule_bind (fun _ hwritable => (recordType mark found.1).mono ?_))))
      (by simp [Expr.children, Expr.note, Slot.both])
    rintro facts _ ⟨rfl, htype⟩ ⟨hselect, hrecorded⟩ ⟨hleft, hreceiver⟩
    exact ⟨⟨htype, .intro (.fieldAccess hleft hselect ⟨htype, hrecorded⟩)
      (List.forall_mem_singleton.mpr hreceiver)⟩, _, hrecorded, hwritable⟩
  | .arrayAccess mark array index =>
    exact (inferArrayAccess_establishes (inferExpr_establishes ctx scope array)
      (inferExpr_establishes ctx scope index)).mono (fun _ _ h => ⟨h, trivial⟩)
  | .literal .. | .this _ | .call .. | .callOn .. | .create .. | .createArray .. | .cast .. |
    .instanceOf .. | .binary .. | .unary .. | .incDec .. | .assign .. => exact .rule_fails
termination_by structural e

/-- Expressions are explained one by one. -/
theorem inferExprs_establishes (ctx : BodyContext) (scope : Scope) (es : List (Expr Mark)) :
    Establishes ctx.symbols (es.flatMap Expr.slots) (inferExprs ctx scope es)
      (fun facts types => es.map facts.typeOf? = types.map some ∧
        ∀ e ∈ es, ctx.ExplainsIn facts scope e) := by
  match es with
  | [] => exact .pure _ (fun _ => ⟨rfl, List.forall_mem_nil _⟩)
  | e :: es =>
    rw [List.flatMap_cons]
    refine (inferExpr_establishes ctx scope e).bind (fun type =>
      (inferExprs_establishes ctx scope es).bind_pure ?_)
    rintro facts types ⟨htypes, hothers⟩ ⟨htype, hin⟩
    refine ⟨?_, List.forall_mem_cons.mpr ⟨hin, hothers⟩⟩
    rw [List.map_cons, List.map_cons, htype, htypes]
termination_by structural es

/-- The dimensions of an array are numbers. -/
theorem inferDims_establishes (ctx : BodyContext) (scope : Scope) (es : List (Expr Mark)) :
    Establishes ctx.symbols (es.flatMap Expr.slots) (inferDims ctx scope es)
      (fun facts _ => (∀ e ∈ es, ∃ type, facts.typeOf? e = some type ∧ type.isNumeric = true) ∧
        ∀ e ∈ es, ctx.ExplainsIn facts scope e) := by
  match es with
  | [] => exact .pure _ (fun _ => ⟨List.forall_mem_nil _, List.forall_mem_nil _⟩)
  | e :: es =>
    rw [List.flatMap_cons]
    refine (inferExpr_establishes ctx scope e).bind (fun type => .rule_bind (fun _ hnumeric =>
      (inferDims_establishes ctx scope es).mono ?_))
    rintro facts _ ⟨htypes, hothers⟩ ⟨htype, hin⟩
    exact ⟨List.forall_mem_cons.mpr ⟨⟨type, htype, requireNumeric_eq_ok.mp hnumeric⟩, htypes⟩,
      List.forall_mem_cons.mpr ⟨hin, hothers⟩⟩
termination_by structural es

end

end JoosStatics
