/-
JoosStatics.Proofs.Walks.Members — validation is enough for every later stage.

§1 gives the walk over the arena that each stage makes for a member or a
unit, from the declaration on: the declaration of a member is looked up by
the position of the member in its signature. §2 shows that in a well-formed
declaration these walks follow the computations on trees. §3 is the result
for whole programs, `walks_areSafe`: no walk leaves the arena, misses a
declaration or goes on deeper than its arena has nodes, and none visits a
node twice.
-/
import JoosStatics.Flow.Check
import JoosStatics.Proofs.Hierarchy.Accepted
import JoosStatics.Proofs.Linking.Alignment
import JoosStatics.Proofs.Walks.Flow
import JoosStatics.Proofs.Walks.Statements

namespace JoosStatics

/-! ## §1 The walks of the stages -/

/-- The type written in a node, if there is one. -/
def resolveWritten (s : SymbolTable) (id : ClassId) : Option TypeSyntax → LookupM Unit
  | none => return ()
  | some type => do let _ ← s.resolveType id type

/-- The walk of `SymbolTable.linkBodies`, over all nodes of a program unit. -/
def linkBodiesAt (s : SymbolTable) (id : ClassId) (decl : TypeDecl) : Walking LookupState Unit :=
  if s.isLibrary id then return ()
  else do
    (List.range decl.bodies.stmts.size).forM (fun stmt => do
      let node ← Walking.reading (.visitStmt decl.bodies stmt)
      .step (resolveWritten s id node.form.writtenType?))
    (List.range decl.bodies.exprs.size).forM (fun expr => do
      let node ← Walking.reading (.visitExpr decl.bodies expr)
      .step (resolveWritten s id node.form.writtenType?))

namespace ClassContext

/-- The walk of `checkField`. -/
def checkFieldAt (cls : ClassContext) (index : Nat) : CheckWalk Unit := do
  let field ← Walking.reading (.itemAt cls.decl.fields index)
  Walking.optional
    (requireValueAt cls.decl.bodies (cls.bodyContext (.field index)) []
      (cls.table.fieldAt ⟨cls.classId, index⟩).type)
    field.initializer

/-- The walk of `checkMethod`. -/
def checkMethodAt (cls : ClassContext) (index : Nat) : CheckWalk Unit := do
  let ctx := cls.bodyContext (.method index)
  let method ← Walking.reading (.itemAt cls.decl.methods index)
  match method.body with
  | none => return ()
  | some body => do
    let params := (cls.table.methodAt ⟨cls.classId, index⟩).params
    let scope ← Walking.step (declareParams ctx [] (method.params.zip params))
    let _ ← checkStmtAt cls.decl.bodies ctx cls.decl.bodies.stmts.size scope body

/-- The walk of `checkConstructor`. -/
def checkConstructorAt (cls : ClassContext) (index : Nat) : CheckWalk Unit :=
  let ctx := cls.bodyContext (.constructor index)
  let ref : ConstructorRef := ⟨cls.classId, index⟩
  let constructor := cls.table.constructorAt ref
  if constructor.isDefault then .step (checkSuperInvocation ctx [] [] constructor.span)
  else do
    let decl ← Walking.reading (.itemAt cls.decl.constructors index)
    let scope ← Walking.step (declareParams ctx [] (decl.params.zip constructor.params))
    checkConstructorBodyAt cls.decl.bodies ctx scope ref decl.body

/-- The walk of `checkBody`. -/
def checkBodyAt (cls : ClassContext) : BodyOwner → CheckWalk Unit
  | .field index => cls.checkFieldAt index
  | .method index => cls.checkMethodAt index
  | .constructor index => cls.checkConstructorAt index

/-- The violation of a statement that cannot be reached, in a member. -/
def unreachableMark (cls : ClassContext) (member : String) (mark : Mark) : Violation :=
  { cause := .unreachableStatement
    location := ((Location.ofType (cls.table.nameOf cls.classId)).inMember member).atSpan
      mark.range }

/-- The walk of `methodFlow`. -/
def methodFlowAt (cls : ClassContext) (index : Nat) : Walk (Option Violation) := do
  let method := cls.table.methodAt ⟨cls.classId, index⟩
  let signature := cls.table.methodSignature method
  let decl ← Walk.itemAt cls.decl.methods index
  match decl.body with
  | none => return none
  | some body =>
    match ← (completionAt cls.decl.bodies cls.decl.bodies.stmts.size body).run with
    | .error mark => return some (cls.unreachableMark signature mark)
    | .ok completion =>
      if completion.normal && method.returnType != .void then
        return some {
          cause := .missingReturn signature
          location := (Location.ofType (cls.table.nameOf cls.classId)).atSpan method.span }
      else return none

/-- The walk of `constructorFlow`; a default constructor has no declaration. -/
def constructorFlowAt (cls : ClassContext) (index : Nat) : Walk (Option Violation) := do
  let constructor := cls.table.constructorAt ⟨cls.classId, index⟩
  let d := cls.table.classAt cls.classId
  match cls.decl.constructors[index]? with
  | none => return none
  | some decl =>
    match ← (completionAt cls.decl.bodies cls.decl.bodies.stmts.size decl.body).run with
    | .error mark =>
      return some (cls.unreachableMark (cls.table.signature d.simpleName constructor.params) mark)
    | .ok _ => return none

/-- A member has a declaration at its position; a default constructor needs
none. -/
def IsDeclared (cls : ClassContext) : BodyOwner → Prop
  | .field index => index < cls.decl.fields.length
  | .method index => index < cls.decl.methods.length
  | .constructor index => (cls.table.constructorAt ⟨cls.classId, index⟩).isDefault = false →
    index < cls.decl.constructors.length

end ClassContext

/-! ## §2 The walks follow the stages -/

namespace TypeDecl

variable {d : TypeDecl} {index : Nat}

theorem read_initializer (hwf : d.isWellFormed = true) {field : FieldDecl}
    (hfield : d.fields[index]? = some field) :
    Option.Rel (fun id e => d.bodies.expr? id = some e) field.initializer
      (d.initializerTree? index) ∧
    d.bodies.AreDistinct ((d.initializerTree? index).toList.flatMap Expr.nodes) := by
  have htree : d.initializerTree? index = field.initializer.bind d.bodies.expr? := by
    rw [initializerTree?, hfield]
    rfl
  rw [htree]
  cases hroot : field.initializer with
  | none => exact ⟨.none, .nil⟩
  | some root =>
    have hmem : root ∈ d.exprRoots :=
      List.mem_filterMap.mpr ⟨field, List.mem_of_getElem? hfield, hroot⟩
    obtain ⟨e, hread, hdistinct⟩ := exists_expr hwf hmem
    rw [Option.bind_some, hread]
    exact ⟨.some hread, by simpa using hdistinct⟩

theorem read_methodBody (hwf : d.isWellFormed = true) {method : MethodDecl}
    (hmethod : d.methods[index]? = some method) :
    Option.Rel (fun id s => d.bodies.stmt? id = some s) method.body (d.methodTree? index) ∧
    d.bodies.AreDistinct ((d.methodTree? index).toList.flatMap Stmt.nodes) := by
  have htree : d.methodTree? index = method.body.bind d.bodies.stmt? := by
    rw [methodTree?, hmethod]
    rfl
  rw [htree]
  cases hroot : method.body with
  | none => exact ⟨.none, .nil⟩
  | some root =>
    have hmem : root ∈ d.stmtRoots := List.mem_append_right _
      (List.mem_filterMap.mpr ⟨method, List.mem_of_getElem? hmethod, hroot⟩)
    obtain ⟨s, hread, hdistinct⟩ := exists_stmt hwf hmem
    rw [Option.bind_some, hread]
    exact ⟨.some hread, by simpa using hdistinct⟩

theorem methodParams_eq {method : MethodDecl} (hmethod : d.methods[index]? = some method) :
    d.methodParams index = method.params := by
  rw [methodParams, hmethod]
  rfl

theorem constructorParams_eq {constructor : ConstructorDecl}
    (hconstructor : d.constructors[index]? = some constructor) :
    d.constructorParams index = constructor.params := by
  rw [constructorParams, hconstructor]
  rfl

theorem read_constructorBody (hwf : d.isWellFormed = true) {constructor : ConstructorDecl}
    (hconstructor : d.constructors[index]? = some constructor) :
    ∃ s, d.constructorTree? index = some s ∧ d.bodies.stmt? constructor.body = some s ∧
      d.bodies.AreDistinct s.nodes := by
  have hmem : constructor.body ∈ d.stmtRoots := List.mem_append_left _
    (List.mem_map_of_mem (List.mem_of_getElem? hconstructor))
  obtain ⟨s, hread, hdistinct⟩ := exists_stmt hwf hmem
  refine ⟨s, ?_, hread, hdistinct⟩
  rw [constructorTree?, hconstructor]
  exact hread

end TypeDecl

/-- Every position of an arena. -/
def BodyArena.allNodes (a : BodyArena) : List NodeId :=
  (List.range a.stmts.size).map .stmt ++ (List.range a.exprs.size).map .expr

/-- The walk over a list of nodes resolves the types written in them. -/
theorem follows_resolveWritten (s : SymbolTable) (id : ClassId) {α : Type}
    {visit : Nat → Walk α} (written : α → Option TypeSyntax) {mk : Nat → NodeId} {ids : List Nat}
    {nodes : List α}
    (h : List.Forall₂ (fun i node => (visit i).Yields node [mk i]) ids nodes) :
    (ids.forM (fun i => do
      let node ← Walking.reading (visit i)
      .step (resolveWritten s id (written node)))).Follows
      ((nodes.filterMap written).forM (fun type => do let _ ← s.resolveType id type))
      (ids.map mk) := by
  induction h with
  | nil => exact .pure _
  | @cons i node ids nodes hvisit _ ih =>
    have hnode : (do
        let node ← Walking.reading (visit i)
        .step (resolveWritten s id (written node)) : Walking LookupState Unit).Follows
        (resolveWritten s id (written node)) [mk i] := .visiting hvisit (.step _)
    have hresolve : ((node :: nodes).filterMap written).forM
          (fun type => do let _ ← s.resolveType id type) =
        resolveWritten s id (written node) >>= fun _ =>
          (nodes.filterMap written).forM (fun type => do let _ ← s.resolveType id type) := by
      rw [List.filterMap_cons]
      cases written node <;> rfl
    rw [hresolve]
    exact .bind hnode (fun _ => ih)

theorem forall₂_range {α : Type} (nodes : Array α) :
    List.Forall₂ (fun i node => nodes[i]? = some node) (List.range nodes.size) nodes.toList :=
  List.forall₂_iff_get.mpr ⟨by simp, fun i hi hi' => by simp⟩

theorem BodyArena.allNodes_distinct (a : BodyArena) : a.AreDistinct a.allNodes where
  nodup := by
    refine List.nodup_append.mpr ⟨?_, ?_, ?_⟩
    · exact List.nodup_range.map (fun _ _ h => NodeId.stmt.inj h)
    · exact List.nodup_range.map (fun _ _ h => NodeId.expr.inj h)
    · rintro n hstmt m hexpr rfl
      obtain ⟨i, -, rfl⟩ := List.mem_map.mp hstmt
      obtain ⟨j, -, heq⟩ := List.mem_map.mp hexpr
      cases heq
  inBounds := by
    intro n hn
    rcases List.mem_append.mp hn with hn | hn
    · obtain ⟨i, hi, rfl⟩ := List.mem_map.mp hn
      simpa [BodyArena.hasNode, BodyArena.hasStmt] using hi
    · obtain ⟨i, hi, rfl⟩ := List.mem_map.mp hn
      simpa [BodyArena.hasNode, BodyArena.hasExpr] using hi
  notSeen := fun _ _ => List.not_mem_nil

/-- Linking resolves what is written in the nodes of an arena, one after the
other. -/
theorem linkBodiesAt_isSafe (s : SymbolTable) (id : ClassId) (decl : TypeDecl)
    (lookups : LookupState) :
    (linkBodiesAt s id decl lookups : Walk _).IsSafe decl.bodies
      (s.linkBodies id decl lookups) := by
  have hfollows : (linkBodiesAt s id decl).Follows (s.linkBodies id decl)
      decl.bodies.allNodes := by
    unfold linkBodiesAt SymbolTable.linkBodies BodyArena.writtenTypes
    cases s.isLibrary id with
    | true => exact (Walking.Follows.pure _).within List.nil_subperm
    | false =>
      have hstmts := (forall₂_range decl.bodies.stmts).imp (fun _ _ h => Walk.Yields.visitStmt h)
      have hexprs := (forall₂_range decl.bodies.exprs).imp (fun _ _ h => Walk.Yields.visitExpr h)
      simp only [Bool.not_false, Bool.false_eq_true, if_true, if_false, forM_append]
      exact .bind (follows_resolveWritten s id _ hstmts)
        (fun _ => follows_resolveWritten s id _ hexprs)
  exact (hfollows lookups).isSafe decl.bodies.allNodes_distinct

namespace ClassContext

variable {cls : ClassContext} {index : Nat}

theorem checkFieldAt_isSafe (hwf : cls.decl.isWellFormed = true)
    (hlt : index < cls.decl.fields.length) (st : CheckState) :
    (cls.checkFieldAt index st : Walk _).IsSafe cls.decl.bodies (cls.checkField index st) := by
  have hfield := List.getElem?_eq_getElem hlt
  obtain ⟨hread, hdistinct⟩ := TypeDecl.read_initializer hwf hfield
  have hfollows : (cls.checkFieldAt index).Follows (cls.checkField index) _ :=
    .looking (.itemAt hfield) (follows_initializer hread)
  exact (hfollows st).isSafe hdistinct

theorem checkMethodAt_isSafe (hwf : cls.decl.isWellFormed = true)
    (hlt : index < cls.decl.methods.length) (st : CheckState) :
    (cls.checkMethodAt index st : Walk _).IsSafe cls.decl.bodies (cls.checkMethod index st) := by
  have hmethod := List.getElem?_eq_getElem hlt
  obtain ⟨hread, hdistinct⟩ := TypeDecl.read_methodBody hwf hmethod
  have hfollows : (cls.checkMethodAt index).Follows (cls.checkMethod index)
      ((cls.decl.methodTree? index).toList.flatMap Stmt.nodes) := by
    refine .looking (.itemAt hmethod) ?_
    unfold checkMethod
    rw [TypeDecl.methodParams_eq hmethod]
    revert hread
    generalize (cls.decl.methods[index]).body = root
    generalize cls.decl.methodTree? index = tree
    intro hread
    cases hread with
    | none => exact .pure ()
    | some hread =>
      rw [Option.toList_some, List.flatMap_singleton]
      exact .stepping (fun scope => .bind_last (follows_checkStmt hread scope) (fun _ => .pure ()))
  exact (hfollows st).isSafe hdistinct

theorem checkConstructorAt_isSafe (hwf : cls.decl.isWellFormed = true)
    (hdeclared : cls.IsDeclared (.constructor index)) (st : CheckState) :
    (cls.checkConstructorAt index st : Walk _).IsSafe cls.decl.bodies
      (cls.checkConstructor index st) := by
  cases hdefault : (cls.table.constructorAt ⟨cls.classId, index⟩).isDefault with
  | true =>
    have hfollows : (cls.checkConstructorAt index).Follows (cls.checkConstructor index) [] := by
      simp only [checkConstructorAt, checkConstructor, hdefault, if_true]
      exact .step _
    exact (hfollows st).isSafe .nil
  | false =>
    have hconstructor := List.getElem?_eq_getElem (hdeclared hdefault)
    obtain ⟨body, hbody, hread, hdistinct⟩ := TypeDecl.read_constructorBody hwf hconstructor
    have hfollows : (cls.checkConstructorAt index).Follows (cls.checkConstructor index)
        body.nodes := by
      simp only [checkConstructorAt, checkConstructor, hdefault, hbody,
        TypeDecl.constructorParams_eq hconstructor, Bool.false_eq_true, if_false]
      exact .looking (.itemAt hconstructor) (.stepping (fun _ => follows_checkConstructorBody hread))
    exact (hfollows st).isSafe hdistinct

/-- The check of a body is safe. -/
theorem checkBodyAt_isSafe (hwf : cls.decl.isWellFormed = true) {owner : BodyOwner}
    (hdeclared : cls.IsDeclared owner) (st : CheckState) :
    (cls.checkBodyAt owner st : Walk _).IsSafe cls.decl.bodies (cls.checkBody owner st) := by
  cases owner with
  | field index => exact checkFieldAt_isSafe hwf hdeclared st
  | method index => exact checkMethodAt_isSafe hwf hdeclared st
  | constructor index => exact checkConstructorAt_isSafe hwf hdeclared st

theorem methodFlowAt_isSafe (hwf : cls.decl.isWellFormed = true)
    (hlt : index < cls.decl.methods.length) :
    (cls.methodFlowAt index).IsSafe cls.decl.bodies (cls.methodFlow index) := by
  have hmethod := List.getElem?_eq_getElem hlt
  obtain ⟨hread, hdistinct⟩ := TypeDecl.read_methodBody hwf hmethod
  have hyields : (cls.methodFlowAt index).Yields (cls.methodFlow index)
      ((cls.decl.methodTree? index).toList.flatMap Stmt.nodes) := by
    refine .looking (.itemAt hmethod) ?_
    unfold methodFlow
    revert hread
    generalize (cls.decl.methods[index]).body = root
    generalize cls.decl.methodTree? index = tree
    intro hread
    cases hread with
    | none => exact .pure none
    | @some root body hread =>
      rw [Option.toList_some, List.flatMap_singleton]
      refine .bind_last (follows_completion hread le_rfl) ?_
      simp only [Option.bind_eq_bind, Option.bind_some]
      cases body.completion with
      | error stmt => exact .pure _
      | ok completion =>
        dsimp only [Except.mapError]
        split <;> exact .pure _
  exact hyields.isSafe hdistinct

theorem constructorFlowAt_isSafe (hwf : cls.decl.isWellFormed = true) (index : Nat) :
    (cls.constructorFlowAt index).IsSafe cls.decl.bodies (cls.constructorFlow index) := by
  unfold constructorFlowAt constructorFlow
  cases hconstructor : cls.decl.constructors[index]? with
  | none =>
    rw [TypeDecl.constructorTree?, hconstructor]
    exact (Walk.Yields.pure none).isSafe .nil
  | some constructor =>
    obtain ⟨body, hbody, hread, hdistinct⟩ := TypeDecl.read_constructorBody hwf hconstructor
    rw [hbody]
    refine Walk.Yields.isSafe (.bind_last (follows_completion hread le_rfl) ?_) hdistinct
    simp only [Option.bind_eq_bind, Option.bind_some]
    cases body.completion <;> exact .pure _

end ClassContext

/-! ## §3 Whole programs -/

namespace ClassContext

/-- The walks over the bodies of a type: each member has a declaration, and from
there every walk is safe. -/
structure IsWalkedSafely (cls : ClassContext) : Prop where
  declared : ∀ owner ∈ cls.owners, cls.IsDeclared owner
  checkBody : ∀ owner ∈ cls.owners, ∀ st,
    (cls.checkBodyAt owner st : Walk _).IsSafe cls.decl.bodies (cls.checkBody owner st)
  methodFlow : ∀ index < (cls.table.classAt cls.classId).methods.length,
    (cls.methodFlowAt index).IsSafe cls.decl.bodies (cls.methodFlow index)
  constructorFlow : ∀ index < (cls.table.classAt cls.classId).constructors.length,
    (cls.constructorFlowAt index).IsSafe cls.decl.bodies (cls.constructorFlow index)

end ClassContext

namespace Linked

variable {s : SymbolTable} {l : Linked} {id : ClassId}

/-- The members of a linked type are those of its declaration. -/
theorem isDeclared (hlink : s.link = .ok l) (hid : id < s.size) (hierarchy : Hierarchy)
    {owner : BodyOwner} (howner : owner ∈ (l.classContext hierarchy id).owners) :
    (l.classContext hierarchy id).IsDeclared owner := by
  have hsymbols := (SymbolTable.link_run hlink).1
  have hparallel := SymbolTable.link_parallelTo hlink hid
  rw [← hsymbols] at hparallel
  rcases ClassContext.mem_owners.mp howner with
    ⟨index, hlt, rfl⟩ | ⟨index, hlt, rfl⟩ | ⟨index, hlt, rfl⟩
  · exact Nat.lt_of_lt_of_eq hlt hparallel.fields_length
  · exact Nat.lt_of_lt_of_eq hlt hparallel.methods_length
  · intro hdefault
    have hat := List.getElem?_eq_getElem hlt
    have hconstructor : l.table.constructorAt ⟨id, index⟩ = _ :=
      TypeTable.constructorAt_of_getElem? hat
    exact hparallel.constructor_lt index _ hat (hconstructor ▸ hdefault)

end Linked

/-- Validation is enough for the later stages: when the units of a program are
well-formed, linking walks safely over every arena, and once the program is
linked, so do the stages that follow. -/
theorem walks_areSafe {program library : List CompilationUnit} {s : SymbolTable}
    (hwf : ∀ unit ∈ program, unit.decl.isWellFormed = true)
    (hbuild : SymbolTable.build program library = .ok s) :
    (∀ id ∈ s.programIds, ∀ lookups,
      (linkBodiesAt s id (s.unitAt id).decl lookups : Walk _).IsSafe (s.unitAt id).decl.bodies
        (s.linkBodies id (s.unitAt id).decl lookups)) ∧
    ∀ l, s.link = .ok l → ∀ hierarchy, ∀ id ∈ s.programIds,
      (l.classContext hierarchy id).IsWalkedSafely := by
  refine ⟨fun id _ lookups => linkBodiesAt_isSafe s id _ lookups, fun l hlink hierarchy id hid => ?_⟩
  have hlt : id < s.programSize := List.mem_range.mp hid
  have hwf : (l.classContext hierarchy id).decl.isWellFormed = true := by
    refine hwf _ ?_
    rw [(SymbolTable.link_run hlink).1]
    exact SymbolTable.build_unitAt_mem hbuild hlt
  have hdeclared (owner : BodyOwner) (howner : owner ∈ (l.classContext hierarchy id).owners) :=
    Linked.isDeclared hlink (Nat.lt_of_lt_of_le hlt (SymbolTable.build_programSize_le hbuild))
      hierarchy howner
  exact {
    declared := hdeclared
    checkBody := fun owner howner => ClassContext.checkBodyAt_isSafe hwf (hdeclared owner howner)
    methodFlow := fun index hindex => ClassContext.methodFlowAt_isSafe hwf
      (hdeclared (.method index) (ClassContext.mem_owners.mpr (.inr (.inl ⟨index, hindex, rfl⟩))))
    constructorFlow := fun index _ => ClassContext.constructorFlowAt_isSafe hwf index }

/-- A class with a field that has an initializer, a method with a loop and no
written constructor. -/
def counterUnits : List CompilationUnit :=
  unitsOf [{ Library.classNamed "Counter" with
    fields := [{ type := Library.int, name := "limit", initializer := some (.literal () (.int 10)) }]
    methods := [{ Library.procedure "run" with
      body := some [
        .localVar () Library.int "i" (some (.literal () (.int 0))),
        .whileLoop () (.binary () .lt (.named () (.single "i")) (.named () (.single "limit")))
          (.expression () (.incDec () .postInc (.named () (.single "i"))))] }] }]

/-- The bodies of such a class are walked safely; its constructor is the default
one. -/
theorem counter_isWalkedSafely :
    ∃ l h, HasHierarchy counterUnits coreUnits l h ∧
      (l.classContext h 0).owners = [.field 0, .method 0, .constructor 0] ∧
      (l.classContext h 0).IsWalkedSafely := by
  obtain ⟨l, h, hh, htest⟩ := exists_hasHierarchy counterUnits coreUnits
    (fun l h => decide (l.symbols.programSize = 1 ∧
      (l.classContext h 0).owners = [.field 0, .method 0, .constructor 0])) (by decide +kernel)
  obtain ⟨hsize, howners⟩ := of_decide_eq_true htest
  obtain ⟨s, hbuild, hlink, -⟩ := id hh
  rw [(SymbolTable.link_run hlink).1] at hsize
  have hid : 0 ∈ s.programIds := by
    rw [SymbolTable.programIds, hsize]
    decide
  exact ⟨l, h, hh, howners, (walks_areSafe (by decide +kernel) hbuild).2 l hlink h 0 hid⟩

end JoosStatics
