/-
JoosStatics.Proofs.Places.Syntax — declarations with other spans.

`mapSpans f` puts `f span` in the place of every span of an arena, a
declaration or a unit. What does not depend on spans stays the same: the
positions in an arena (`isWellFormed_mapSpans`), full names, and the trees
that an arena holds, up to their own spans (`expr?_mapSpans`,
`stmt?_mapSpans`).
-/
import JoosStatics.Linking.Lowering
import JoosStatics.Bodies.Members
import JoosStatics.Proofs.Renaming.Spans

namespace JoosStatics

variable (f : Span → Span)

/-! ## §1 Arenas -/

/-- The same expression with other spans in its types. -/
def ExprForm.mapSpans : ExprForm → ExprForm
  | .create type args => .create (type.mapSpan f) args
  | .createArray element dims => .createArray (element.mapSpans f) dims
  | .cast type operand => .cast (type.mapSpans f) operand
  | .instanceOf operand type => .instanceOf operand (type.mapSpans f)
  | form => form

/-- The same statement with other spans in its types. -/
def StmtForm.mapSpans : StmtForm → StmtForm
  | .localVar type name initializer => .localVar (type.mapSpans f) name initializer
  | form => form

/-- The same node at another place. -/
def ExprNode.mapSpans (node : ExprNode) : ExprNode := ⟨node.form.mapSpans f, f node.range⟩

/-- The same node at another place. -/
def StmtNode.mapSpans (node : StmtNode) : StmtNode := ⟨node.form.mapSpans f, f node.range⟩

@[simp] theorem ExprForm.children_mapSpans (form : ExprForm) :
    (form.mapSpans f).children = form.children := by
  cases form <;> rfl

@[simp] theorem StmtForm.stmtChildren_mapSpans (form : StmtForm) :
    (form.mapSpans f).stmtChildren = form.stmtChildren := by
  cases form <;> rfl

@[simp] theorem StmtForm.exprChildren_mapSpans (form : StmtForm) :
    (form.mapSpans f).exprChildren = form.exprChildren := by
  cases form <;> rfl

@[simp] theorem ExprForm.writtenType?_mapSpans (form : ExprForm) :
    (form.mapSpans f).writtenType? = form.writtenType?.map (TypeSyntax.mapSpans f) := by
  cases form <;> rfl

@[simp] theorem StmtForm.writtenType?_mapSpans (form : StmtForm) :
    (form.mapSpans f).writtenType? = form.writtenType?.map (TypeSyntax.mapSpans f) := by
  cases form <;> rfl

namespace BodyArena

/-- The same nodes at other places. -/
def mapSpans (a : BodyArena) : BodyArena where
  stmts := a.stmts.map (StmtNode.mapSpans f)
  exprs := a.exprs.map (ExprNode.mapSpans f)

variable (a : BodyArena)

@[simp] theorem hasStmt_mapSpans : (a.mapSpans f).hasStmt = a.hasStmt := by
  funext id
  simp [hasStmt, mapSpans]

@[simp] theorem hasExpr_mapSpans : (a.mapSpans f).hasExpr = a.hasExpr := by
  funext id
  simp [hasExpr, mapSpans]

theorem isWellFormed_mapSpans : (a.mapSpans f).isWellFormed = a.isWellFormed := by
  unfold isWellFormed
  rw [hasStmt_mapSpans, hasExpr_mapSpans]
  simp only [mapSpans, Array.toList_map, List.all_map, Function.comp_def, StmtNode.mapSpans,
    ExprNode.mapSpans, StmtForm.stmtChildren_mapSpans, StmtForm.exprChildren_mapSpans,
    ExprForm.children_mapSpans]

theorem stmtChildrenOf_mapSpans (id : StmtId) :
    (a.mapSpans f).stmtChildrenOf id = a.stmtChildrenOf id := by
  unfold stmtChildrenOf mapSpans
  rw [Array.getElem?_map]
  cases a.stmts[id]? with
  | none => rfl
  | some node => exact node.form.stmtChildren_mapSpans f

theorem stmtOperandsOf_mapSpans (id : StmtId) :
    (a.mapSpans f).stmtOperandsOf id = a.stmtOperandsOf id := by
  unfold stmtOperandsOf mapSpans
  rw [Array.getElem?_map]
  cases a.stmts[id]? with
  | none => rfl
  | some node => exact node.form.exprChildren_mapSpans f

theorem operandsOf_mapSpans (id : ExprId) : (a.mapSpans f).operandsOf id = a.operandsOf id := by
  unfold operandsOf mapSpans
  rw [Array.getElem?_map]
  cases a.exprs[id]? with
  | none => rfl
  | some node => exact node.form.children_mapSpans f

theorem visitsOnce_mapSpans (fuel : Nat) (stmts : List StmtId) (exprs : List ExprId)
    (seenStmts : List StmtId) (seenExprs : List ExprId) :
    (a.mapSpans f).visitsOnce fuel stmts exprs seenStmts seenExprs =
      a.visitsOnce fuel stmts exprs seenStmts seenExprs := by
  induction fuel generalizing stmts exprs seenStmts seenExprs with
  | zero => rfl
  | succ fuel ih =>
    match stmts, exprs with
    | id :: stmts, exprs =>
      simp only [visitsOnce, ih, stmtChildrenOf_mapSpans, stmtOperandsOf_mapSpans]
    | [], id :: exprs => simp only [visitsOnce, ih, operandsOf_mapSpans]
    | [], [] => rfl

theorem formsTrees_mapSpans (stmts : List StmtId) (exprs : List ExprId) :
    (a.mapSpans f).formsTrees stmts exprs = a.formsTrees stmts exprs := by
  unfold formsTrees
  rw [visitsOnce_mapSpans]
  simp [mapSpans]

theorem writtenTypes_mapSpans :
    (a.mapSpans f).writtenTypes = a.writtenTypes.map (TypeSyntax.mapSpans f) := by
  unfold writtenTypes mapSpans
  simp [List.filterMap_map, List.map_filterMap, Function.comp_def, StmtNode.mapSpans,
    ExprNode.mapSpans]

end BodyArena

/-! ## §2 Trees -/

/-- Reading and then changing every item is reading what is changed. -/
theorem mapM_option_map {α β γ : Type} (read : α → Option β) (g : β → γ) (items : List α) :
    items.mapM (fun a => (read a).map g) = (items.mapM read).map (List.map g) := by
  induction items with
  | nil => rfl
  | cons a items ih =>
    rw [List.mapM_cons, List.mapM_cons, ih]
    cases read a with
    | none => rfl
    | some b => cases items.mapM read <;> rfl

namespace BodyArena

variable (a : BodyArena)

theorem readExpr?_mapSpans (depth : Nat) (id : ExprId) :
    (a.mapSpans f).readExpr? depth id = (a.readExpr? depth id).map (Expr.mapSpans f) := by
  induction depth generalizing id with
  | zero => rfl
  | succ depth ih =>
    have hlist (ids : List ExprId) : ids.mapM ((a.mapSpans f).readExpr? depth) =
        (ids.mapM (a.readExpr? depth)).map (Expr.listMapSpans f) := by
      rw [funext ih, mapM_option_map, funext (Expr.listMapSpans_eq f)]
    unfold readExpr?
    rw [show (a.mapSpans f).exprs[id]? = (a.exprs[id]?).map (ExprNode.mapSpans f) from
      Array.getElem?_map]
    cases a.exprs[id]? with
    | none => rfl
    | some node =>
      obtain ⟨form, range⟩ := node
      cases form with
      | literal value => rfl
      | named path => rfl
      | this => rfl
      | methodCall receiver name args =>
        cases receiver with
        | none =>
          simp only [Option.map_some, ExprNode.mapSpans, ExprForm.mapSpans, hlist]
          cases args.mapM (a.readExpr? depth) <;> rfl
        | some receiver =>
          simp only [Option.map_some, ExprNode.mapSpans, ExprForm.mapSpans, hlist, ih]
          cases a.readExpr? depth receiver with
          | none => rfl
          | some receiver => cases args.mapM (a.readExpr? depth) <;> rfl
      | create type args | createArray type args =>
        simp only [Option.map_some, ExprNode.mapSpans, ExprForm.mapSpans, hlist]
        cases args.mapM (a.readExpr? depth) <;> rfl
      | arrayAccess lhs rhs | binary op lhs rhs | assign lhs rhs =>
        simp only [Option.map_some, ExprNode.mapSpans, ExprForm.mapSpans, ih]
        cases a.readExpr? depth lhs with
        | none => rfl
        | some lhs => cases a.readExpr? depth rhs <;> rfl
      | cast _ operand | instanceOf operand _ | unary _ operand | incDec _ operand
      | fieldAccess operand _ =>
        simp only [Option.map_some, ExprNode.mapSpans, ExprForm.mapSpans, ih]
        cases a.readExpr? depth operand <;> rfl

theorem expr?_mapSpans (id : ExprId) :
    (a.mapSpans f).expr? id = (a.expr? id).map (Expr.mapSpans f) := by
  unfold expr?
  rw [readExpr?_mapSpans]
  simp [mapSpans]

theorem exprOption?_mapSpans (id : Option ExprId) :
    (a.mapSpans f).exprOption? id = (a.exprOption? id).map (Option.map (Expr.mapSpans f)) := by
  cases id with
  | none => rfl
  | some id =>
    show ((a.mapSpans f).expr? id).map some = _
    rw [expr?_mapSpans, exprOption?, Option.map_map, Option.map_map]
    rfl

theorem readStmt?_mapSpans (depth : Nat) (id : StmtId) :
    (a.mapSpans f).readStmt? depth id = (a.readStmt? depth id).map (Stmt.mapSpans f) := by
  induction depth generalizing id with
  | zero => rfl
  | succ depth ih =>
    have hlist (ids : List StmtId) : ids.mapM ((a.mapSpans f).readStmt? depth) =
        (ids.mapM (a.readStmt? depth)).map (Stmt.listMapSpans f) := by
      rw [funext ih, mapM_option_map, funext (Stmt.listMapSpans_eq f)]
    have hargs (ids : List ExprId) : ids.mapM (a.mapSpans f).expr? =
        (ids.mapM a.expr?).map (Expr.listMapSpans f) := by
      rw [funext (a.expr?_mapSpans f), mapM_option_map, funext (Expr.listMapSpans_eq f)]
    unfold readStmt?
    rw [show (a.mapSpans f).stmts[id]? = (a.stmts[id]?).map (StmtNode.mapSpans f) from
      Array.getElem?_map]
    cases a.stmts[id]? with
    | none => rfl
    | some node =>
      obtain ⟨form, range⟩ := node
      cases form with
      | breakLoop => rfl
      | empty => rfl
      | block stmts =>
        simp only [Option.map_some, StmtNode.mapSpans, StmtForm.mapSpans, hlist]
        cases stmts.mapM (a.readStmt? depth) <;> rfl
      | localVar type name value =>
        simp only [Option.map_some, StmtNode.mapSpans, StmtForm.mapSpans, exprOption?_mapSpans]
        cases a.exprOption? value <;> rfl
      | returnValue value =>
        simp only [Option.map_some, StmtNode.mapSpans, StmtForm.mapSpans, exprOption?_mapSpans]
        cases a.exprOption? value <;> rfl
      | expression value | throwValue value =>
        simp only [Option.map_some, StmtNode.mapSpans, StmtForm.mapSpans, expr?_mapSpans]
        cases a.expr? value <;> rfl
      | branch condition thenBranch elseBranch =>
        cases elseBranch with
        | none =>
          simp only [Option.map_some, StmtNode.mapSpans, StmtForm.mapSpans, expr?_mapSpans, ih]
          cases a.expr? condition with
          | none => rfl
          | some condition => cases a.readStmt? depth thenBranch <;> rfl
        | some elseBranch =>
          simp only [Option.map_some, StmtNode.mapSpans, StmtForm.mapSpans, expr?_mapSpans, ih]
          cases a.expr? condition with
          | none => rfl
          | some condition =>
            cases a.readStmt? depth thenBranch with
            | none => rfl
            | some thenBranch => cases a.readStmt? depth elseBranch <;> rfl
      | whileLoop condition body =>
        simp only [Option.map_some, StmtNode.mapSpans, StmtForm.mapSpans, expr?_mapSpans, ih]
        cases a.expr? condition with
        | none => rfl
        | some condition => cases a.readStmt? depth body <;> rfl
      | forLoop init condition update body =>
        cases init with
        | none =>
          simp only [Option.map_some, StmtNode.mapSpans, StmtForm.mapSpans, exprOption?_mapSpans,
            ih]
          cases a.exprOption? condition with
          | none => rfl
          | some condition =>
            cases a.exprOption? update with
            | none => rfl
            | some update => cases a.readStmt? depth body <;> rfl
        | some init =>
          simp only [Option.map_some, StmtNode.mapSpans, StmtForm.mapSpans, exprOption?_mapSpans,
            ih]
          cases a.readStmt? depth init with
          | none => rfl
          | some init =>
            cases a.exprOption? condition with
            | none => rfl
            | some condition =>
              cases a.exprOption? update with
              | none => rfl
              | some update => cases a.readStmt? depth body <;> rfl
      | constructorCall call args =>
        simp only [Option.map_some, StmtNode.mapSpans, StmtForm.mapSpans, hargs]
        cases args.mapM a.expr? <;> rfl

theorem stmt?_mapSpans (id : StmtId) :
    (a.mapSpans f).stmt? id = (a.stmt? id).map (Stmt.mapSpans f) := by
  unfold stmt?
  rw [readStmt?_mapSpans]
  simp [mapSpans]

end BodyArena

/-! ## §3 Declarations -/

/-- The same field at another place. -/
def FieldDecl.mapSpans (d : FieldDecl) : FieldDecl :=
  { d with type := d.type.mapSpans f, range := f d.range }

/-- The same method at another place. -/
def MethodDecl.mapSpans (d : MethodDecl) : MethodDecl :=
  { d with
    returnType := d.returnType.map (TypeSyntax.mapSpans f)
    params := d.params.map (Param.mapSpans f)
    throws := d.throws.map (TypeRef.mapSpan f)
    range := f d.range }

/-- The same constructor at another place. -/
def ConstructorDecl.mapSpans (d : ConstructorDecl) : ConstructorDecl :=
  { d with
    params := d.params.map (Param.mapSpans f)
    throws := d.throws.map (TypeRef.mapSpan f)
    range := f d.range }

theorem FieldDecl.mapSpans_id (d : FieldDecl) : d.mapSpans id = d := by
  rw [mapSpans, d.type.mapSpans_id]
  rfl

theorem MethodDecl.mapSpans_id (d : MethodDecl) : d.mapSpans id = d := by
  have hresult : d.returnType.map (TypeSyntax.mapSpans id) = d.returnType := by
    rw [funext TypeSyntax.mapSpans_id]
    exact Option.map_id_apply
  have hthrows : d.throws.map (TypeRef.mapSpan id) = d.throws := List.map_id _
  rw [mapSpans, hresult, Param.map_mapSpans_id, hthrows]
  rfl

theorem ConstructorDecl.mapSpans_id (d : ConstructorDecl) : d.mapSpans id = d := by
  have hthrows : d.throws.map (TypeRef.mapSpan id) = d.throws := List.map_id _
  rw [mapSpans, Param.map_mapSpans_id, hthrows]
  rfl

namespace TypeDecl

/-- The same declaration with other spans. -/
def mapSpans (d : TypeDecl) : TypeDecl :=
  { d with
    superclass := d.superclass.map (TypeRef.mapSpan f)
    interfaces := d.interfaces.map (TypeRef.mapSpan f)
    fields := d.fields.map (FieldDecl.mapSpans f)
    constructors := d.constructors.map (ConstructorDecl.mapSpans f)
    methods := d.methods.map (MethodDecl.mapSpans f)
    bodies := d.bodies.mapSpans f
    range := f d.range }

variable (d : TypeDecl)

@[simp] theorem isInterface_mapSpans : (d.mapSpans f).isInterface = d.isInterface := rfl

theorem isWellFormed_mapSpans : (d.mapSpans f).isWellFormed = d.isWellFormed := by
  have hexprs : (d.mapSpans f).exprRoots = d.exprRoots := by
    simp [exprRoots, mapSpans, List.filterMap_map, Function.comp_def, FieldDecl.mapSpans]
  have hstmts : (d.mapSpans f).stmtRoots = d.stmtRoots := by
    simp [stmtRoots, mapSpans, List.filterMap_map, Function.comp_def, MethodDecl.mapSpans,
      ConstructorDecl.mapSpans]
  unfold isWellFormed
  rw [hexprs, hstmts]
  simp only [mapSpans, BodyArena.isWellFormed_mapSpans, BodyArena.hasExpr_mapSpans,
    BodyArena.hasStmt_mapSpans, BodyArena.formsTrees_mapSpans]

theorem initializerTree?_mapSpans (index : Nat) :
    (d.mapSpans f).initializerTree? index =
      (d.initializerTree? index).map (Expr.mapSpans f) := by
  unfold initializerTree? mapSpans
  rw [List.getElem?_map]
  cases d.fields[index]? with
  | none => rfl
  | some field =>
    cases hroot : field.initializer with
    | none => simp [FieldDecl.mapSpans, hroot]
    | some root => simp [FieldDecl.mapSpans, hroot, BodyArena.expr?_mapSpans]

theorem methodTree?_mapSpans (index : Nat) :
    (d.mapSpans f).methodTree? index = (d.methodTree? index).map (Stmt.mapSpans f) := by
  unfold methodTree? mapSpans
  rw [List.getElem?_map]
  cases d.methods[index]? with
  | none => rfl
  | some method =>
    cases hroot : method.body with
    | none => simp [MethodDecl.mapSpans, hroot]
    | some root => simp [MethodDecl.mapSpans, hroot, BodyArena.stmt?_mapSpans]

theorem constructorTree?_mapSpans (index : Nat) :
    (d.mapSpans f).constructorTree? index =
      (d.constructorTree? index).map (Stmt.mapSpans f) := by
  unfold constructorTree? mapSpans
  rw [List.getElem?_map]
  cases d.constructors[index]? with
  | none => rfl
  | some constructor => exact d.bodies.stmt?_mapSpans f constructor.body

theorem methodParams_mapSpans (index : Nat) :
    (d.mapSpans f).methodParams index = (d.methodParams index).map (Param.mapSpans f) := by
  unfold methodParams mapSpans
  rw [List.getElem?_map]
  cases d.methods[index]? <;> rfl

theorem constructorParams_mapSpans (index : Nat) :
    (d.mapSpans f).constructorParams index =
      (d.constructorParams index).map (Param.mapSpans f) := by
  unfold constructorParams mapSpans
  rw [List.getElem?_map]
  cases d.constructors[index]? <;> rfl

end TypeDecl

/-! ## §4 Units -/

/-- The same import at another place. -/
def ImportDecl.mapSpan : ImportDecl → ImportDecl
  | .single path range => .single path (f range)
  | .onDemand package range => .onDemand package (f range)

namespace CompilationUnit

/-- The same unit with other spans, and without its file. -/
def mapSpans (u : CompilationUnit) : CompilationUnit where
  package := u.package
  imports := u.imports.map (ImportDecl.mapSpan f)
  decl := u.decl.mapSpans f

variable (u : CompilationUnit)

@[simp] theorem packageName_mapSpans : (u.mapSpans f).packageName = u.packageName := rfl

@[simp] theorem typeName_mapSpans : (u.mapSpans f).typeName = u.typeName := rfl

end CompilationUnit

end JoosStatics
