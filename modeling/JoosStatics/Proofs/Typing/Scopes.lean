/-
JoosStatics.Proofs.Typing.Scopes — the scopes of variables, by the text of a
body alone.

A parameter is in scope in all of the body. A local variable is in scope in
the statements after its declaration in the same block, or in the rest of the
loop whose initializer declares it. Nothing here looks at a check.

* `Stmt.Covers`, `Stmt.CoversExpr` — what lies in the scope of a local
  variable.
* `Stmt.Descends` — a walk from a body down to one of its statements, with the
  declarations in scope on the way.
* `descends_covers`, `exists_descends` — the walk collects exactly the
  declarations that cover the statement where it ends.
-/
import JoosStatics.Proofs.Typing.Scoping

namespace JoosStatics

/-! ## §1 Declarations -/

/-- The declaration of a variable in a body: a parameter with its position, or what a
statement declares. -/
inductive Declaration where
  | param (index : Nat) (param : Param)
  | localVar (mark : Mark) (type : TypeSyntax) (name : Name)
  deriving DecidableEq

/-- The declared name. -/
def Declaration.name : Declaration → Name
  | .param _ p => p.name
  | .localVar _ _ name => name

namespace Stmt

/-- What a statement declares for the statements after it. -/
def declares : Stmt Mark → List Declaration
  | .localVar mark type name _ => [.localVar mark type name]
  | _ => []

/-- Every declaration inside a statement, in the order of the text. -/
def declarations (s : Stmt Mark) : List Declaration := s.parts.flatMap declares

theorem declarations_eq (s : Stmt Mark) :
    s.declarations = s.declares ++ s.stmtChildren.flatMap declarations := by
  unfold declarations
  rw [parts_eq, List.flatMap_cons, List.flatMap_assoc]

/-- The block of a body declares nothing itself. -/
theorem declarations_eq_statements (body : Stmt Mark) :
    body.declarations = body.statements.flatMap declarations := by
  cases body with
  | block mark stmts => rw [declarations_eq]; rfl
  | _ => simp [statements]

/-! ## §2 Scopes -/

/-- A statement of a body lies in the scope of a declaration, behind it: further down in
its block, or in the body of the loop whose initializer it is. -/
inductive Covers (body : Stmt Mark) (d : Declaration) : Stmt Mark → Prop
  | rest {mark : Mark} {before after : List (Stmt Mark)} {declaring s part : Stmt Mark}
      (hblock : .block mark (before ++ declaring :: after) ∈ body.parts)
      (hd : d ∈ declaring.declares) (hs : s ∈ after) (hpart : part ∈ s.parts) :
      Covers body d part
  | loop {mark : Mark} {declaring inner part : Stmt Mark} {condition update : Option (Expr Mark)}
      (hloop : .forLoop mark (some declaring) condition update inner ∈ body.parts)
      (hd : d ∈ declaring.declares) (hpart : part ∈ inner.parts) : Covers body d part

/-- An expression of a body lies in the scope of a declaration: in an operand of a
statement that does, or in the header of the loop whose initializer the declaration is. -/
inductive CoversExpr (body : Stmt Mark) (d : Declaration) : Expr Mark → Prop
  | operand {s : Stmt Mark} {root e : Expr Mark} (hs : body.Covers d s)
      (hroot : root ∈ s.exprChildren) (he : e ∈ root.parts) : CoversExpr body d e
  | header {mark : Mark} {declaring inner : Stmt Mark} {condition update : Option (Expr Mark)}
      {root e : Expr Mark}
      (hloop : .forLoop mark (some declaring) condition update inner ∈ body.parts)
      (hd : d ∈ declaring.declares) (hroot : root ∈ condition.toList ++ update.toList)
      (he : e ∈ root.parts) : CoversExpr body d e

/-- What a statement inside another one covers, the outer one covers as well. -/
theorem Covers.mono {s child part : Stmt Mark} {d : Declaration} (hchild : child ∈ s.stmtChildren)
    (h : child.Covers d part) : s.Covers d part := by
  cases h with
  | rest hblock hd hs hpart => exact .rest (mem_parts_of_mem_children hchild hblock) hd hs hpart
  | loop hloop hd hpart => exact .loop (mem_parts_of_mem_children hchild hloop) hd hpart

/-! ## §3 Walks -/

/-- Statements one after the other, each with the declarations in scope in front of
it. -/
def listScoped (visible : List Declaration) :
    List (Stmt Mark) → List (List Declaration × Stmt Mark)
  | [] => []
  | s :: ss => (visible, s) :: listScoped (s.declares ++ visible) ss

/-- The statements directly inside a statement, each with the declarations in scope in
front of it. -/
def scopedChildren (visible : List Declaration) : Stmt Mark → List (List Declaration × Stmt Mark)
  | .block _ stmts => listScoped visible stmts
  | .branch _ _ thenBranch elseBranch =>
    (visible, thenBranch) :: elseBranch.toList.map (Prod.mk visible)
  | .whileLoop _ _ body => [(visible, body)]
  | .forLoop _ init _ _ body =>
    init.toList.map (Prod.mk visible) ++ [(init.toList.flatMap declares ++ visible, body)]
  | _ => []

/-- The declarations in scope in the operands of a statement. -/
def scopeInside (visible : List Declaration) : Stmt Mark → List Declaration
  | .forLoop _ init _ _ _ => init.toList.flatMap declares ++ visible
  | _ => visible

/-- A statement stands inside another one. Where certain declarations are in scope in
front of the outer one, others are in front of the inner one. -/
inductive Descends : List Declaration → Stmt Mark → List Declaration → Stmt Mark → Prop
  | here (visible : List Declaration) (s : Stmt Mark) : Descends visible s visible s
  | inside {visible inner seen : List Declaration} {s child part : Stmt Mark}
      (hchild : (inner, child) ∈ s.scopedChildren visible) (h : Descends inner child seen part) :
      Descends visible s seen part

theorem map_snd_listScoped (visible : List Declaration) (ss : List (Stmt Mark)) :
    (listScoped visible ss).map Prod.snd = ss := by
  induction ss generalizing visible with
  | nil => rfl
  | cons s ss ih => rw [listScoped, List.map_cons, ih]

theorem map_snd_scopedChildren (visible : List Declaration) (s : Stmt Mark) :
    (s.scopedChildren visible).map Prod.snd = s.stmtChildren := by
  cases s with
  | block mark stmts => exact map_snd_listScoped visible stmts
  | branch mark condition thenBranch elseBranch =>
    simp [scopedChildren, stmtChildren, Function.comp_def]
  | forLoop mark init condition update body =>
    simp [scopedChildren, stmtChildren, Function.comp_def]
  | _ => rfl

theorem mem_children_of_scoped {visible inner : List Declaration} {s child : Stmt Mark}
    (h : (inner, child) ∈ s.scopedChildren visible) : child ∈ s.stmtChildren := by
  rw [← map_snd_scopedChildren visible]
  exact List.mem_map_of_mem h

theorem Descends.mem_parts {visible seen : List Declaration} {s part : Stmt Mark}
    (h : Descends visible s seen part) : part ∈ s.parts := by
  induction h with
  | here visible s => exact s.self_mem_parts
  | inside hchild _ ih => exact mem_parts_of_mem_children (mem_children_of_scoped hchild) ih

theorem Descends.trans {visible seen last : List Declaration} {s part inner : Stmt Mark}
    (h : Descends visible s seen part) (h' : Descends seen part last inner) :
    Descends visible s last inner := by
  induction h with
  | here _ _ => exact h'
  | inside hchild _ ih => exact .inside hchild (ih h')

/-- In front of a statement of a list those declarations are in scope that were in front of
the list, and those of the statements before it. -/
theorem mem_listScoped {visible inner : List Declaration} {ss : List (Stmt Mark)} {s : Stmt Mark}
    (h : (inner, s) ∈ listScoped visible ss) {d : Declaration} (hd : d ∈ inner) :
    d ∈ visible ∨ ∃ before declaring after, ss = before ++ declaring :: after ∧
      d ∈ declaring.declares ∧ s ∈ after := by
  induction ss generalizing visible with
  | nil => cases h
  | cons first ss ih =>
    rcases List.mem_cons.mp h with heq | h
    · cases heq
      exact .inl hd
    · rcases ih h with hd | ⟨before, declaring, after, rfl, hd, hs⟩
      · rcases List.mem_append.mp hd with hd | hd
        · have hs : s ∈ ss := map_snd_listScoped (first.declares ++ visible) ss ▸
            List.mem_map_of_mem h
          exact .inr ⟨[], first, ss, rfl, hd, hs⟩
        · exact .inl hd
      · exact .inr ⟨first :: before, declaring, after, rfl, hd, hs⟩

/-- What is in scope in front of a list is in scope in front of all its statements. -/
theorem exists_listScoped (visible : List Declaration) {ss : List (Stmt Mark)} {s : Stmt Mark}
    (hs : s ∈ ss) : ∃ inner, (inner, s) ∈ listScoped visible ss ∧ ∀ d ∈ visible, d ∈ inner := by
  induction ss generalizing visible with
  | nil => cases hs
  | cons first ss ih =>
    rcases List.mem_cons.mp hs with rfl | hs
    · exact ⟨visible, List.mem_cons_self, fun _ hd => hd⟩
    · obtain ⟨inner, hinner, hkept⟩ := ih (first.declares ++ visible) hs
      exact ⟨inner, List.mem_cons_of_mem _ hinner,
        fun d hd => hkept d (List.mem_append_right _ hd)⟩

/-- A declaration in a list is in scope in front of all statements behind it. -/
theorem exists_listScoped_behind (visible : List Declaration) (before : List (Stmt Mark))
    {after : List (Stmt Mark)} {declaring s : Stmt Mark} (hs : s ∈ after) :
    ∃ inner, (inner, s) ∈ listScoped visible (before ++ declaring :: after) ∧
      ∀ d ∈ declaring.declares, d ∈ inner := by
  induction before generalizing visible with
  | nil =>
    obtain ⟨inner, hinner, hkept⟩ := exists_listScoped (declaring.declares ++ visible) hs
    exact ⟨inner, List.mem_cons_of_mem _ hinner, fun d hd => hkept d (List.mem_append_left _ hd)⟩
  | cons first before ih =>
    obtain ⟨inner, hinner, hdeclared⟩ := ih (first.declares ++ visible)
    exact ⟨inner, List.mem_cons_of_mem _ hinner, hdeclared⟩

/-- What is in scope in front of a statement is in scope in front of those directly inside
it. -/
theorem exists_scopedChildren (visible : List Declaration) {s child : Stmt Mark}
    (hchild : child ∈ s.stmtChildren) :
    ∃ inner, (inner, child) ∈ s.scopedChildren visible ∧ ∀ d ∈ visible, d ∈ inner := by
  cases s with
  | block mark stmts => exact exists_listScoped visible hchild
  | branch mark condition thenBranch elseBranch =>
    refine ⟨visible, ?_, fun _ hd => hd⟩
    rcases List.mem_cons.mp hchild with rfl | hchild
    · exact List.mem_cons_self
    · exact List.mem_cons_of_mem _ (List.mem_map_of_mem hchild)
  | whileLoop mark condition body =>
    exact ⟨visible, List.mem_singleton.mp hchild ▸ List.mem_singleton_self _, fun _ hd => hd⟩
  | forLoop mark init condition update body =>
    rcases List.mem_append.mp hchild with hinit | hbody
    · exact ⟨visible, List.mem_append_left _ (List.mem_map_of_mem hinit), fun _ hd => hd⟩
    · obtain rfl := List.mem_singleton.mp hbody
      exact ⟨_, List.mem_append_right _ (List.mem_singleton_self _),
        fun d hd => List.mem_append_right _ hd⟩
  | _ => cases hchild

/-- What is in scope in front of a statement directly inside another one was in scope in
front of the outer one, or its declaration covers the inner one. -/
theorem scopedChildren_covers {visible inner : List Declaration} {s child : Stmt Mark}
    (h : (inner, child) ∈ s.scopedChildren visible) {d : Declaration} (hd : d ∈ inner)
    {part : Stmt Mark} (hpart : part ∈ child.parts) : d ∈ visible ∨ s.Covers d part := by
  cases s with
  | block mark stmts =>
    refine (mem_listScoped h hd).imp_right ?_
    rintro ⟨before, declaring, after, rfl, hd, hs⟩
    exact .rest (self_mem_parts _) hd hs hpart
  | branch mark condition thenBranch elseBranch =>
    rcases List.mem_cons.mp h with heq | h
    · cases heq
      exact .inl hd
    · obtain ⟨_, -, heq⟩ := List.mem_map.mp h
      cases heq
      exact .inl hd
  | whileLoop mark condition body =>
    cases List.mem_singleton.mp h
    exact .inl hd
  | forLoop mark init condition update body =>
    rcases List.mem_append.mp h with h | h
    · obtain ⟨_, -, heq⟩ := List.mem_map.mp h
      cases heq
      exact .inl hd
    · cases List.mem_singleton.mp h
      refine (List.mem_append.mp hd).symm.imp_right (fun hd => ?_)
      obtain ⟨declaring, hinit, hdeclared⟩ := List.mem_flatMap.mp hd
      obtain rfl := Option.mem_toList.mp hinit
      exact .loop (self_mem_parts _) hdeclared hpart
  | _ => cases h

/-- What is in scope in front of a statement was in scope in front of the body, or its
declaration covers the statement. -/
theorem descends_covers {visible seen : List Declaration} {body part : Stmt Mark}
    (h : Descends visible body seen part) {d : Declaration} (hd : d ∈ seen) :
    d ∈ visible ∨ body.Covers d part := by
  induction h with
  | here _ _ => exact .inl hd
  | inside hchild h ih =>
    rcases ih hd with hd | hcovers
    · exact scopedChildren_covers hchild hd h.mem_parts
    · exact .inr (hcovers.mono (mem_children_of_scoped hchild))

/-- There is a walk to every statement of a body, and nothing goes out of scope on it. -/
theorem exists_descends (visible : List Declaration) {body part : Stmt Mark}
    (h : part ∈ body.parts) :
    ∃ seen, Descends visible body seen part ∧ ∀ d ∈ visible, d ∈ seen := by
  induction body using Stmt.induction generalizing visible with
  | _ body ih =>
    rw [parts_eq] at h
    rcases List.mem_cons.mp h with rfl | h
    · exact ⟨visible, .here _ _, fun _ hd => hd⟩
    · obtain ⟨child, hchild, h⟩ := List.mem_flatMap.mp h
      obtain ⟨inner, hinner, hkept⟩ := exists_scopedChildren visible hchild
      obtain ⟨seen, hseen, hkept'⟩ := ih child hchild inner h
      exact ⟨seen, .inside hinner hseen, fun d hd => hkept' d (hkept d hd)⟩

/-- A declaration is in scope in front of every statement that it covers. -/
theorem Covers.exists_descends (visible : List Declaration) {body part : Stmt Mark}
    {d : Declaration} (h : body.Covers d part) :
    ∃ seen, Descends visible body seen part ∧ d ∈ seen := by
  cases h with
  | rest hblock hd hs hpart =>
    obtain ⟨seen, hseen, -⟩ := Stmt.exists_descends visible hblock
    obtain ⟨inner, hinner, hdeclared⟩ := exists_listScoped_behind seen _ hs
    obtain ⟨last, hlast, hkept⟩ := Stmt.exists_descends inner hpart
    exact ⟨last, hseen.trans (.inside hinner hlast), hkept _ (hdeclared _ hd)⟩
  | @loop mark declaring inner _ condition update hloop hd hpart =>
    obtain ⟨seen, hseen, -⟩ := Stmt.exists_descends visible hloop
    obtain ⟨last, hlast, hkept⟩ := Stmt.exists_descends
      ((some declaring).toList.flatMap declares ++ seen) hpart
    refine ⟨last, hseen.trans (.inside ?_ hlast), hkept _ (List.mem_append_left _ ?_)⟩
    · exact List.mem_append_right _ (List.mem_singleton_self _)
    · exact List.mem_flatMap.mpr ⟨declaring, by simp, hd⟩

/-- Of lists without common items, an item is in one only. -/
theorem eq_of_mem_flatMap {α β : Type} {items : List α} {f : α → List β}
    (h : (items.flatMap f).Nodup) {a b : α} (ha : a ∈ items) (hb : b ∈ items) {x : β}
    (hxa : x ∈ f a) (hxb : x ∈ f b) : a = b := by
  have hpairs := (List.nodup_flatMap.mp h).2
  have : Std.Symm (Function.onFun List.Disjoint f) := ⟨fun _ _ h => List.disjoint_symm h⟩
  by_contra hne
  exact hpairs.forall ha hb hne hxa hxb

/-- Only one walk leads to a statement when no statement of the body comes up twice. -/
theorem Descends.unique {visible seen other : List Declaration} {body part : Stmt Mark}
    (hnodup : body.parts.Nodup) (h : Descends visible body seen part)
    (h' : Descends visible body other part) : seen = other := by
  have hroot {s : Stmt Mark} (hs : s.parts.Nodup) {child : Stmt Mark}
      (hchild : child ∈ s.stmtChildren) (hmem : s ∈ child.parts) : False := by
    rw [parts_eq] at hs
    exact (List.nodup_cons.mp hs).1 (List.mem_flatMap.mpr ⟨child, hchild, hmem⟩)
  induction h with
  | here visible s =>
    cases h' with
    | here _ _ => rfl
    | inside hchild h' => exact (hroot hnodup (mem_children_of_scoped hchild) h'.mem_parts).elim
  | @inside visible inner seen s child part hchild h ih =>
    cases h' with
    | here _ _ => exact (hroot hnodup (mem_children_of_scoped hchild) h.mem_parts).elim
    | inside hchild' h' =>
      have hchildren : ((s.scopedChildren visible).flatMap (fun entry => entry.2.parts)).Nodup := by
        have hbelow := (List.nodup_cons.mp (s.parts_eq ▸ hnodup)).2
        rwa [← map_snd_scopedChildren visible, List.flatMap_map] at hbelow
      cases eq_of_mem_flatMap hchildren hchild hchild' h.mem_parts h'.mem_parts
      exact ih ((List.nodup_flatMap.mp hchildren).1 _ hchild) h'

/-- What is in scope in an operand of a statement was in scope in front of the body, or its
declaration covers the operand. -/
theorem Descends.coversExpr {visible seen : List Declaration} {body s : Stmt Mark}
    (h : Descends visible body seen s) {root e : Expr Mark} (hroot : root ∈ s.exprChildren)
    (he : e ∈ root.parts) {d : Declaration} (hd : d ∈ s.scopeInside seen) :
    d ∈ visible ∨ body.CoversExpr d e := by
  have hseen (hd : d ∈ seen) : d ∈ visible ∨ body.CoversExpr d e :=
    (descends_covers h hd).imp_right (fun hcovers => .operand hcovers hroot he)
  cases s with
  | forLoop mark init condition update inner =>
    rcases List.mem_append.mp hd with hd | hd
    · obtain ⟨declaring, hinit, hdeclared⟩ := List.mem_flatMap.mp hd
      obtain rfl := Option.mem_toList.mp hinit
      exact .inr (.header h.mem_parts hdeclared hroot he)
    · exact hseen hd
  | _ => exact hseen hd

theorem mem_scopeInside {seen : List Declaration} {s : Stmt Mark} {d : Declaration}
    (hd : d ∈ seen) : d ∈ s.scopeInside seen := by
  cases s with
  | forLoop mark init condition update inner => exact List.mem_append_right _ hd
  | _ => exact hd

/-- A declaration is in scope in every operand that it covers. -/
theorem CoversExpr.mem_scopeInside {visible seen : List Declaration} {body s : Stmt Mark}
    {d : Declaration} {root e : Expr Mark} (hstmts : body.parts.Nodup) (hexprs : body.exprs.Nodup)
    (h : Descends visible body seen s) (hroot : root ∈ s.exprChildren) (he : e ∈ root.parts)
    (hcovers : body.CoversExpr d e) : d ∈ s.scopeInside seen := by
  -- An expression stands in the operands of one statement only.
  have hsame {other : Stmt Mark} {operand : Expr Mark} (hother : other ∈ body.parts)
      (hoperand : operand ∈ other.exprChildren) (hmem : e ∈ operand.parts) : other = s :=
    eq_of_mem_flatMap hexprs hother h.mem_parts (List.mem_flatMap.mpr ⟨operand, hoperand, hmem⟩)
      (List.mem_flatMap.mpr ⟨root, hroot, he⟩)
  cases hcovers with
  | operand hs hoperand hmem =>
    obtain ⟨other, hother, hd⟩ := hs.exists_descends visible
    obtain rfl := hsame hother.mem_parts hoperand hmem
    obtain rfl := h.unique hstmts hother
    exact Stmt.mem_scopeInside hd
  | header hloop hd hoperand hmem =>
    obtain rfl := hsame hloop hoperand hmem
    exact List.mem_append_left _ (List.mem_flatMap.mpr ⟨_, by simp, hd⟩)

/-- Wherever certain declarations are in scope in front of a statement, no declaration in it
has the name of another one in scope. -/
def DistinctNames (visible : List Declaration) (s : Stmt Mark) : Prop :=
  ∀ seen part, Descends visible s seen part →
    ((part.declares ++ part.scopeInside seen).map Declaration.name).Nodup

end Stmt

/-! ## §4 The bodies of a declaration -/

namespace TypeDecl

/-- The written parameters of a member. -/
def paramsOf (d : TypeDecl) : BodyOwner → List Param
  | .field _ => []
  | .method index => d.methodParams index
  | .constructor index => d.constructorParams index

/-- The declared parameters of a member. -/
def paramDeclarations (d : TypeDecl) (owner : BodyOwner) : List Declaration :=
  (d.paramsOf owner).mapIdx Declaration.param

/-- The declarations of a member with a body: its parameters, then those in its
statements. -/
def declarationsOf (d : TypeDecl) (owner : BodyOwner) : List Declaration :=
  (d.bodyTree? owner).elim [] (fun body => d.paramDeclarations owner ++ body.declarations)

/-- An expression in the body of a member lies in the scope of a declaration. A parameter is
in scope in all of the body. -/
inductive InScope (decl : TypeDecl) (owner : BodyOwner) (d : Declaration) (e : Expr Mark) : Prop
  | param (hd : d ∈ decl.paramDeclarations owner) (he : e ∈ decl.exprsOf owner)
  | localVar {body : Stmt Mark} (hbody : decl.bodyTree? owner = some body)
      (h : body.CoversExpr d e)

/-- The scope of a declaration, the declaration itself included, reaches a statement in the
body of a member. -/
inductive ScopeReaches (decl : TypeDecl) (owner : BodyOwner) (d : Declaration) (s : Stmt Mark) :
    Prop
  | param (hd : d ∈ decl.paramDeclarations owner) (hs : s ∈ decl.stmtsOf owner)
  | self (hd : d ∈ s.declares) (hs : s ∈ decl.stmtsOf owner)
  | covered {body : Stmt Mark} (hbody : decl.bodyTree? owner = some body) (h : body.Covers d s)

/-- The scopes of two declarations of a member overlap. -/
def ScopesOverlap (decl : TypeDecl) (owner : BodyOwner) (d other : Declaration) : Prop :=
  ∃ s, decl.ScopeReaches owner d s ∧ decl.ScopeReaches owner other s

variable {decl : TypeDecl} {owner : BodyOwner} {body s : Stmt Mark} {seen : List Declaration}
  {d other : Declaration}

theorem declarationsOf_eq (owner : BodyOwner) (hbody : decl.bodyTree? owner = some body) :
    decl.declarationsOf owner = decl.paramDeclarations owner ++ body.declarations := by
  rw [declarationsOf, hbody]
  rfl

theorem declarationsOf_eq_nil (owner : BodyOwner) (hnone : decl.bodyTree? owner = none) :
    decl.declarationsOf owner = [] := by
  rw [declarationsOf, hnone]
  rfl

theorem stmtsOf_of_body (hbody : decl.bodyTree? owner = some body) :
    decl.stmtsOf owner = body.parts := by
  cases owner with
  | field index => cases hbody
  | method index | constructor index =>
    simp only [bodyTree?] at hbody
    rw [stmtsOf, hbody]
    rfl

theorem exprsOf_of_body (hbody : decl.bodyTree? owner = some body) :
    decl.exprsOf owner = body.exprs := by
  cases owner with
  | field index => cases hbody
  | method index | constructor index =>
    simp only [bodyTree?] at hbody
    rw [exprsOf, hbody]
    rfl

/-- An expression of a member stands in the initializer of the field or in the body. -/
theorem mem_exprsOf {e : Expr Mark} (he : e ∈ decl.exprsOf owner) :
    (∃ index root, owner = .field index ∧ decl.initializerTree? index = some root ∧
      e ∈ root.parts) ∨ ∃ body, decl.bodyTree? owner = some body ∧ e ∈ body.exprs := by
  cases owner with
  | field index =>
    obtain ⟨root, hroot, he⟩ := mem_elim_nil.mp he
    exact .inl ⟨index, root, rfl, hroot, he⟩
  | method index | constructor index => exact .inr (mem_elim_nil.mp he)

/-- Every statement of a member stands in its body. -/
theorem exists_bodyTree (hs : s ∈ decl.stmtsOf owner) : ∃ body, decl.bodyTree? owner = some body := by
  rcases mem_stmtsOf hs with ⟨index, body, rfl, hbody, -⟩ | ⟨index, body, rfl, hbody, -⟩
  · exact ⟨body, hbody⟩
  · exact ⟨body, hbody⟩

/-- A declaration whose scope reaches a statement is collected on the walk to it. -/
theorem ScopeReaches.mem_scope (hbody : decl.bodyTree? owner = some body)
    (hnodup : body.parts.Nodup)
    (hs : Stmt.Descends (decl.paramDeclarations owner).reverse body seen s)
    (h : decl.ScopeReaches owner d s) : d ∈ s.declares ++ s.scopeInside seen := by
  cases h with
  | param hd _ =>
    obtain ⟨found, hfound, hkept⟩ := Stmt.exists_descends (decl.paramDeclarations owner).reverse
      hs.mem_parts
    obtain rfl := hs.unique hnodup hfound
    exact List.mem_append_right _ (Stmt.mem_scopeInside (hkept d (List.mem_reverse.mpr hd)))
  | self hd _ => exact List.mem_append_left _ hd
  | covered hbody' hcovers =>
    cases hbody.symm.trans hbody'
    obtain ⟨found, hfound, hd⟩ :=
      hcovers.exists_descends (decl.paramDeclarations owner).reverse
    obtain rfl := hs.unique hnodup hfound
    exact List.mem_append_right _ (Stmt.mem_scopeInside hd)

theorem ScopeReaches.mem_stmtsOf (h : decl.ScopeReaches owner d s) : s ∈ decl.stmtsOf owner := by
  cases h with
  | param _ hs | self _ hs => exact hs
  | covered hbody hcovers =>
    obtain ⟨seen, hseen, -⟩ := hcovers.exists_descends []
    rw [stmtsOf_of_body hbody]
    exact hseen.mem_parts

theorem ScopesOverlap.exists_body (h : decl.ScopesOverlap owner d other) :
    ∃ body, decl.bodyTree? owner = some body := by
  obtain ⟨s, hd, -⟩ := h
  exact exists_bodyTree hd.mem_stmtsOf

/-- Where names are distinct, overlapping scopes are those of different names. -/
theorem ScopesOverlap.eq (hstmts : (decl.stmtsOf owner).Nodup)
    (hdistinct : ∀ body, decl.bodyTree? owner = some body →
      body.DistinctNames (decl.paramDeclarations owner).reverse)
    (h : decl.ScopesOverlap owner d other) (hname : d.name = other.name) : d = other := by
  obtain ⟨s, hd, hother⟩ := h
  obtain ⟨body, hbody⟩ := exists_bodyTree hd.mem_stmtsOf
  have hparts := stmtsOf_of_body hbody
  rw [hparts] at hstmts
  obtain ⟨seen, hseen, -⟩ := Stmt.exists_descends (decl.paramDeclarations owner).reverse
    (hparts ▸ hd.mem_stmtsOf)
  exact List.inj_on_of_nodup_map (hdistinct body hbody seen s hseen)
    (hd.mem_scope hbody hstmts hseen) (hother.mem_scope hbody hstmts hseen) hname

/-- A declaration in whose scope an operand lies is collected on the walk to the statement of
the operand. -/
theorem InScope.mem_scopeInside (hbody : decl.bodyTree? owner = some body)
    (hstmts : body.parts.Nodup) (hexprs : body.exprs.Nodup)
    (hs : Stmt.Descends (decl.paramDeclarations owner).reverse body seen s) {root e : Expr Mark}
    (hroot : root ∈ s.exprChildren) (he : e ∈ root.parts) (h : decl.InScope owner d e) :
    d ∈ s.scopeInside seen := by
  cases h with
  | param hd _ =>
    obtain ⟨found, hfound, hkept⟩ := Stmt.exists_descends (decl.paramDeclarations owner).reverse
      hs.mem_parts
    obtain rfl := hs.unique hstmts hfound
    exact Stmt.mem_scopeInside (hkept d (List.mem_reverse.mpr hd))
  | localVar hbody' hcovers =>
    cases hbody.symm.trans hbody'
    exact hcovers.mem_scopeInside hstmts hexprs hs hroot he

end TypeDecl

end JoosStatics
