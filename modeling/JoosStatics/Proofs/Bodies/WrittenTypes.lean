/-
JoosStatics.Proofs.Bodies.WrittenTypes — the types written in bodies.

Linking resolves the types that are written in the nodes of an arena, the
body checks those in the trees that are read from it. Every part of such a
tree is read from a node itself, so the first include the second
(`exprType_mem`, `localType_mem`).
-/
import JoosStatics.Linking.Lowering
import JoosStatics.Proofs.Bodies.Content
import JoosStatics.Proofs.Syntax.Reaching

namespace JoosStatics

theorem ExprForm.ReadsAs.writtenType?_eq {child : ExprId → Expr Mark → Prop} {mark : Mark}
    {form : ExprForm} {e : Expr Mark} (h : form.ReadsAs child mark e) :
    e.writtenType? = form.writtenType? := by
  cases h <;> rfl

namespace BodyArena

variable {a : BodyArena}

theorem writtenType_mem_of_expr {id : ExprId} {e : Expr Mark} (h : a.expr? id = some e)
    {type : TypeSyntax} (htype : e.writtenType? = some type) : type ∈ a.writtenTypes := by
  obtain ⟨node, hnode, hreads⟩ := exists_of_expr? h
  refine List.mem_append_right _ (List.mem_filterMap.mpr ⟨node, ?_, ?_⟩)
  · exact (Array.mem_of_getElem? hnode).val
  · rw [← hreads.writtenType?_eq, htype]

theorem writtenType_mem_of_localVar {id : StmtId} {mark : Mark} {type : TypeSyntax} {name : Name}
    {initializer : Option (Expr Mark)}
    (h : a.stmt? id = some (.localVar mark type name initializer)) : type ∈ a.writtenTypes := by
  obtain ⟨⟨form, range⟩, hnode, hreads⟩ := exists_of_stmt? h
  refine List.mem_append_left _ (List.mem_filterMap.mpr ⟨_, (Array.mem_of_getElem? hnode).val, ?_⟩)
  cases hreads
  rfl

end BodyArena

namespace TypeDecl

variable {d : TypeDecl} {owner : BodyOwner}

theorem stmt?_of_mem_stmtsOf {s : Stmt Mark} (h : s ∈ d.stmtsOf owner) :
    d.bodies.stmt? s.note.id = some s := by
  rcases mem_stmtsOf h with ⟨index, body, -, hbody, hpart⟩ | ⟨index, body, -, hbody, hpart⟩
  · obtain ⟨method, -, hread⟩ := Option.bind_eq_some_iff.mp hbody
    obtain ⟨root, -, hread⟩ := Option.bind_eq_some_iff.mp hread
    exact BodyArena.stmt?_of_part hread hpart
  · obtain ⟨constructor, -, hread⟩ := Option.bind_eq_some_iff.mp hbody
    exact BodyArena.stmt?_of_part hread hpart

theorem expr?_of_mem_exprsOf {e : Expr Mark} (h : e ∈ d.exprsOf owner) :
    d.bodies.expr? e.note.id = some e := by
  cases owner with
  | field index =>
    obtain ⟨tree, htree, h⟩ := mem_elim_nil.mp h
    obtain ⟨field, -, hread⟩ := Option.bind_eq_some_iff.mp htree
    obtain ⟨root, -, hread⟩ := Option.bind_eq_some_iff.mp hread
    exact BodyArena.expr?_of_part hread h
  | method index =>
    obtain ⟨tree, htree, h⟩ := mem_elim_nil.mp h
    obtain ⟨method, -, hread⟩ := Option.bind_eq_some_iff.mp htree
    obtain ⟨root, -, hread⟩ := Option.bind_eq_some_iff.mp hread
    exact BodyArena.expr?_of_exprs hread h
  | constructor index =>
    obtain ⟨tree, htree, h⟩ := mem_elim_nil.mp h
    obtain ⟨constructor, -, hread⟩ := Option.bind_eq_some_iff.mp htree
    exact BodyArena.expr?_of_exprs hread h

/-- A type written in an expression of a body is written in the arena. -/
theorem exprType_mem {e : Expr Mark} (h : e ∈ d.exprsOf owner) {type : TypeSyntax}
    (htype : e.writtenType? = some type) : type ∈ d.bodies.writtenTypes :=
  BodyArena.writtenType_mem_of_expr (expr?_of_mem_exprsOf h) htype

/-- The type of a local variable is written in the arena. -/
theorem localType_mem {mark : Mark} {type : TypeSyntax} {name : Name}
    {initializer : Option (Expr Mark)}
    (h : .localVar mark type name initializer ∈ d.stmtsOf owner) : type ∈ d.bodies.writtenTypes :=
  BodyArena.writtenType_mem_of_localVar (stmt?_of_mem_stmtsOf h)

end TypeDecl

end JoosStatics
