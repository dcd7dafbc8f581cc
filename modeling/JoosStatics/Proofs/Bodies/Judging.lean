/-
JoosStatics.Proofs.Bodies.Judging — what a successful check has found out.

* `inferExpr_records`, `inferExprs_records` — the type that is returned for an
  expression is the one that is recorded for it.
* `checkStmt_judges` — every value that is thrown has a recorded type that may
  be thrown.

Both are about the state at the end of a check, so they rest on distinct
positions: what is checked later records its results elsewhere.
-/
import JoosStatics.Proofs.Bodies.Recording

namespace JoosStatics

variable {ctx : BodyContext} {mark : Mark} {value : Expr Mark}

/-! ## §1 Recorded types -/

theorem reaches_recordType (mark : Mark) (type : Ty) :
    Reaches (CheckM.recordType mark type) (fun found st =>
      st.facts.types.find? mark.id = some found) := by
  intro st found st' hrun
  cases hrun
  exact OrderedMap.find?_insert_self _ _ _

/-- The type of an expression is recorded at its position. -/
theorem inferExpr_records (scope : Scope) (e : Expr Mark) :
    Reaches (inferExpr ctx scope e) (fun found st =>
      st.facts.types.find? e.note.id = some found) := by
  cases e with
  | literal mark value => exact reaches_recordType mark _
  | named mark path => exact Reaches.bind_right (fun _ => reaches_recordType mark _)
  | this mark => exact Reaches.bind_right (fun _ => reaches_recordType mark _)
  | fieldAccess mark receiver name =>
    refine Reaches.bind_right (fun _ => Reaches.bind_right (fun _ => ?_))
    exact reaches_recordType mark _
  | call mark name args =>
    refine Reaches.bind_right (fun _ => Reaches.bind_right (fun _ => ?_))
    exact reaches_recordType mark _
  | callOn mark receiver name args =>
    refine Reaches.bind_right (fun _ => Reaches.bind_right (fun _ => ?_))
    refine Reaches.bind_right (fun _ => Reaches.bind_right (fun _ => ?_))
    exact reaches_recordType mark _
  | create mark type args =>
    refine Reaches.bind_right (fun _ => Reaches.bind_right (fun _ => ?_))
    refine Reaches.bind_right (fun _ => ?_)
    exact reaches_recordType mark _
  | createArray mark element dims =>
    refine Reaches.bind_right (fun _ => Reaches.bind_right (fun _ => ?_))
    exact reaches_recordType mark _
  | arrayAccess mark array index =>
    refine Reaches.bind_right (fun _ => Reaches.bind_right (fun _ => ?_))
    refine Reaches.bind_right (fun _ => ?_)
    exact reaches_recordType mark _
  | cast mark type operand =>
    refine Reaches.bind_right (fun _ => Reaches.bind_right (fun _ => ?_))
    refine Reaches.bind_right (fun _ => ?_)
    exact reaches_recordType mark _
  | instanceOf mark operand type =>
    refine Reaches.bind_right (fun _ => Reaches.bind_right (fun _ => ?_))
    refine Reaches.bind_right (fun _ => ?_)
    exact reaches_recordType mark _
  | binary mark op lhs rhs =>
    refine Reaches.bind_right (fun _ => Reaches.bind_right (fun _ => ?_))
    refine Reaches.bind_right (fun _ => ?_)
    exact reaches_recordType mark _
  | unary mark op operand =>
    refine Reaches.bind_right (fun _ => Reaches.bind_right (fun _ => ?_))
    exact reaches_recordType mark _
  | incDec mark op operand =>
    refine Reaches.bind_right (fun _ => Reaches.bind_right (fun _ => ?_))
    exact reaches_recordType mark _
  | assign mark target value =>
    refine Reaches.bind_right (fun _ => Reaches.bind_right (fun _ => ?_))
    refine Reaches.bind_right (fun _ => ?_)
    exact reaches_recordType mark _

/-- The types of expressions at distinct positions are recorded there. -/
theorem inferExprs_records (scope : Scope) {es : List (Expr Mark)}
    (hnodup : (es.flatMap Expr.ids).Nodup) :
    Reaches (inferExprs ctx scope es) (fun found st =>
      st.facts.Recorded es (fun types => types = found)) := by
  induction es with
  | nil =>
    intro st found st' hrun
    cases hrun
    exact ⟨[], rfl, rfl⟩
  | cons e es ih =>
    rw [List.flatMap_cons, List.nodup_append] at hnodup
    obtain ⟨-, hrest, hdisjoint⟩ := hnodup
    intro st found st' hrun
    obtain ⟨type, st₁, htype, hrun⟩ := run_bind_eq_ok.mp hrun
    obtain ⟨types, st₂, htypes, hrun⟩ := run_bind_eq_ok.mp hrun
    cases hrun
    have hstable : Stable ctx (es.flatMap Expr.ids)
        (fun st => st.facts.Recorded [e] (fun found => found = [type])) := by
      apply stable_recorded
      intro e' he' hmem
      cases List.mem_singleton.mp he'
      exact hdisjoint _ e.note_id_mem_ids _ hmem rfl
    have hfirst : st₁.facts.Recorded [e] (fun found => found = [type]) := by
      refine ⟨[type], ?_, rfl⟩
      rw [List.map_singleton, inferExpr_records scope e st type st₁ htype]
      rfl
    obtain ⟨⟨_, hkept, rfl⟩, -⟩ := inferExprs_keeps hstable scope es
      (fun e he n hn => List.mem_flatMap.mpr ⟨e, he, hn⟩) st₁ types st' hfirst htypes
    obtain ⟨_, hothers, rfl⟩ := ih hrest st₁ _ st' htypes
    refine ⟨_, ?_, rfl⟩
    rw [List.map_cons, hothers]
    exact congrArg (· ++ _) hkept

/-! ## §2 Values that may be thrown -/

namespace BodyContext

/-- A thrown value is throwable, and the throws clause covers it if it is a
checked exception. -/
def MayThrow (ctx : BodyContext) (type : Ty) : Prop :=
  ∀ id, type = .declared id →
    ctx.table.isSubclass id ctx.table.wellKnown.throwable = true ∧ ctx.Handles [id]

end BodyContext

theorem checkThrown_eq_ok {type : Ty} {range : Span} (h : checkThrown ctx type range = .ok ()) :
    ctx.MayThrow type := by
  rintro id rfl
  simp only [checkThrown] at h
  split at h
  · rename_i hthrowable
    exact ⟨hthrowable, BodyContext.checkThrows_eq_ok.mp h⟩
  · cases h

/-- The operand of a throw statement has a recorded type that may be thrown. -/
def ClassFacts.Throws (facts : ClassFacts) (ctx : BodyContext) (value : Expr Mark) : Prop :=
  facts.Recorded [value] (fun types => ∀ type ∈ types, ctx.MayThrow type)

theorem stable_throws {S : List ExprId} {other : BodyContext} (h : value.note.id ∉ S) :
    Stable other S (fun st => st.facts.Throws ctx value) := by
  apply stable_recorded
  intro e he
  cases List.mem_singleton.mp he
  exact h

theorem Stmt.note_id_mem_exprIds {s part : Stmt Mark} (hpart : part ∈ s.parts)
    {e : Expr Mark} (he : e ∈ part.exprChildren) : e.note.id ∈ s.exprIds := by
  refine List.mem_map.mpr ⟨e, ?_, rfl⟩
  refine List.mem_flatMap.mpr ⟨part, hpart, List.mem_flatMap.mpr ⟨e, he, ?_⟩⟩
  rw [Expr.parts_eq]
  exact List.mem_cons_self ..

/-- The operand of a throw statement stands inside the statements around it. -/
theorem Stmt.thrown_mem_exprIds {s : Stmt Mark} (h : .throwValue mark value ∈ s.parts) :
    value.note.id ∈ s.exprIds :=
  Stmt.note_id_mem_exprIds h (List.mem_singleton.mpr rfl)

theorem Stmt.thrown_mem_flatMap_exprIds {ss : List (Stmt Mark)}
    (h : .throwValue mark value ∈ ss.flatMap Stmt.parts) :
    value.note.id ∈ ss.flatMap Stmt.exprIds := by
  obtain ⟨s, hs, hmem⟩ := List.mem_flatMap.mp h
  exact List.mem_flatMap.mpr ⟨s, hs, Stmt.thrown_mem_exprIds hmem⟩

/-- A statement that throws nothing itself has its throw statements below it. -/
theorem Stmt.thrown_mem_stmtChildren {s : Stmt Mark} (h : .throwValue mark value ∈ s.parts)
    (hne : .throwValue mark value ≠ s) :
    .throwValue mark value ∈ s.stmtChildren.flatMap Stmt.parts := by
  rw [Stmt.parts_eq] at h
  exact (List.mem_cons.mp h).resolve_left hne

open BodyContext in
mutual

/-- Every value thrown in a statement may be thrown. -/
theorem checkStmt_judges (scope : Scope) (s : Stmt Mark) (hnodup : s.exprIds.Nodup)
    (hmem : .throwValue mark value ∈ s.parts) :
    Reaches (checkStmt ctx scope s) (fun _ st => st.facts.Throws ctx value) := by
  rw [Stmt.exprIds_eq, List.nodup_append] at hnodup
  obtain ⟨-, hbelow, hdisjoint⟩ := hnodup
  match s with
  | .block mark stmts =>
    refine Reaches.bind_left ?_ (fun _ => Keeps.pure)
    exact checkStmts_judges scope stmts hbelow (Stmt.thrown_mem_stmtChildren hmem (by simp))
  | .branch mark condition thenBranch elseBranch =>
    have hmem := Stmt.thrown_mem_stmtChildren hmem (by simp)
    simp only [Stmt.stmtChildren, List.flatMap_cons, List.nodup_append] at hbelow hmem
    obtain ⟨hthen, helse, hbranches⟩ := hbelow
    refine Reaches.bind_right (fun _ => ?_)
    rcases List.mem_append.mp hmem with hmem | hmem
    · have hid := Stmt.thrown_mem_exprIds hmem
      refine Reaches.bind_left (checkStmt_judges scope thenBranch hthen hmem) (fun _ => ?_)
      refine Keeps.bind (checkStmtOption_keeps
        (stable_throws (fun hn => hbranches _ hid _ hn rfl)) scope elseBranch ?_)
        (fun _ => Keeps.pure)
      exact fun s hs n hn => List.mem_flatMap.mpr ⟨s, hs, hn⟩
    · refine Reaches.bind_right (fun _ => ?_)
      refine Reaches.bind_left ?_ (fun _ => Keeps.pure)
      exact checkStmtOption_judges scope elseBranch helse hmem
  | .whileLoop mark condition body =>
    have hmem := Stmt.thrown_mem_stmtChildren hmem (by simp)
    simp only [Stmt.stmtChildren, List.flatMap_singleton] at hbelow hmem
    refine Reaches.bind_right (fun _ => ?_)
    refine Reaches.bind_left ?_ (fun _ => Keeps.pure)
    exact checkStmt_judges scope body hbelow hmem
  | .forLoop mark init condition update body =>
    have hmem := Stmt.thrown_mem_stmtChildren hmem (by simp)
    simp only [Stmt.stmtChildren, List.flatMap_append, List.flatMap_singleton,
      List.nodup_append] at hbelow hmem
    obtain ⟨hinit, hbody, hparts⟩ := hbelow
    rcases List.mem_append.mp hmem with hmem | hmem
    · have hid := Stmt.thrown_mem_flatMap_exprIds hmem
      -- the rest of the loop: its condition and update, which come first in the
      -- order of positions, and its body
      have hrest : Stable ctx
          ((condition.toList ++ update.toList).flatMap Expr.ids ++ body.exprIds)
          (fun st => st.facts.Throws ctx value) := by
        apply stable_throws
        intro hn
        rcases List.mem_append.mp hn with hn | hn
        · refine hdisjoint _ hn _ ?_ rfl
          simp only [Stmt.stmtChildren, List.flatMap_append]
          exact List.mem_append_left _ hid
        · exact hparts _ hid _ hn rfl
      have hcontrol : ∀ e ∈ condition.toList ++ update.toList,
          e.ids ⊆ (condition.toList ++ update.toList).flatMap Expr.ids ++ body.exprIds :=
        fun e he n hn => List.mem_append_left _ (List.mem_flatMap.mpr ⟨e, he, hn⟩)
      refine Reaches.bind_left (checkStmtOption_judges scope init hinit hmem) (fun inner => ?_)
      refine Keeps.bind (checkConditionOption_keeps hrest inner condition
        (fun e he => hcontrol e (List.mem_append_left _ he))) (fun _ => ?_)
      refine Keeps.bind (checkUpdate_keeps hrest inner update
        (fun e he => hcontrol e (List.mem_append_right _ he))) (fun _ => ?_)
      refine Keeps.bind (checkStmt_keeps hrest inner body
        (fun n hn => List.mem_append_right _ hn)) (fun _ => ?_)
      exact Keeps.pure
    · refine Reaches.bind_right (fun inner => ?_)
      refine Reaches.bind_right (fun _ => Reaches.bind_right (fun _ => ?_))
      refine Reaches.bind_left ?_ (fun _ => Keeps.pure)
      exact checkStmt_judges inner body hbody hmem
  | .throwValue mark' value' =>
    have heq : Stmt.throwValue mark value = .throwValue mark' value' := by
      by_contra hne
      cases Stmt.thrown_mem_stmtChildren hmem hne
    cases heq
    intro st found st' hrun
    obtain ⟨type, st₁, htype, hrun⟩ := run_bind_eq_ok.mp hrun
    obtain ⟨_, st₂, hthrown, hrun⟩ := run_bind_eq_ok.mp hrun
    cases hrun
    obtain ⟨hok, rfl⟩ := Prod.mk.injEq .. ▸ hthrown
    refine ⟨[type], ?_, ?_⟩
    · rw [List.map_singleton, inferExpr_records scope value st type st₁ htype]
      rfl
    · intro found hfound
      cases List.mem_singleton.mp hfound
      exact checkThrown_eq_ok hok
  | .localVar .. | .expression .. | .returnValue .. | .breakLoop _ | .empty _ |
    .constructorCall .. => cases Stmt.thrown_mem_stmtChildren hmem (by simp)
termination_by structural s

theorem checkStmts_judges (scope : Scope) (ss : List (Stmt Mark))
    (hnodup : (ss.flatMap Stmt.exprIds).Nodup)
    (hmem : .throwValue mark value ∈ ss.flatMap Stmt.parts) :
    Reaches (checkStmts ctx scope ss) (fun _ st => st.facts.Throws ctx value) := by
  match ss with
  | [] => cases hmem
  | s :: ss =>
    rw [List.flatMap_cons, List.nodup_append] at hnodup
    obtain ⟨hfirst, hrest, hdisjoint⟩ := hnodup
    rw [List.flatMap_cons] at hmem
    rcases List.mem_append.mp hmem with hmem | hmem
    · have hid := Stmt.thrown_mem_exprIds hmem
      refine Reaches.bind_left (checkStmt_judges scope s hfirst hmem) (fun inner => ?_)
      exact checkStmts_keeps (stable_throws (fun hn => hdisjoint _ hid _ hn rfl)) inner ss
        (fun s hs n hn => List.mem_flatMap.mpr ⟨s, hs, hn⟩)
    · exact Reaches.bind_right (fun inner => checkStmts_judges inner ss hrest hmem)
termination_by structural ss

theorem checkStmtOption_judges (scope : Scope) (s : Option (Stmt Mark))
    (hnodup : (s.toList.flatMap Stmt.exprIds).Nodup)
    (hmem : .throwValue mark value ∈ s.toList.flatMap Stmt.parts) :
    Reaches (checkStmtOption ctx scope s) (fun _ st => st.facts.Throws ctx value) := by
  match s with
  | none => cases hmem
  | some s =>
    simp only [Option.toList_some, List.flatMap_singleton] at hnodup hmem
    exact checkStmt_judges scope s hnodup hmem
termination_by structural s

end

end JoosStatics
