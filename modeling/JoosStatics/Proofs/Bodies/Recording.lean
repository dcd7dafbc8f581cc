/-
JoosStatics.Proofs.Bodies.Recording — what the check of a body leaves alone.

A body check remembers lookups, adds variables, and records types and
resolutions at the positions of the expressions it checks; a member is
recorded as invoked only after its throws clause has passed. An invariant
that outlives these writes is `Stable`, and the check of a tree keeps every
invariant that is stable for the positions inside the tree
(`inferExprs_keeps`, `checkStmt_keeps`).

* `stable_recorded` — what is recorded at other positions is stable.
* `stable_allowedAt` — so is that recorded invocations pass the throws
  clause.
-/
import JoosStatics.Proofs.Bodies.Steps
import JoosStatics.Proofs.SortedMaps

namespace JoosStatics

variable {ctx : BodyContext} {S : List ExprId} {I : CheckState → Prop} {mark : Mark}

/-! ## §1 Invariants that outlive the writes -/

/-- An invariant outlives the writes of a check of expressions at the given
positions. -/
structure Stable (ctx : BodyContext) (S : List ExprId) (I : CheckState → Prop) : Prop where
  lookups : ∀ {st} (lookups : LookupState), I st → I { st with lookups }
  locals : ∀ {st} (var : LocalVar), I st →
    I { st with facts := { st.facts with locals := st.facts.locals.push var } }
  types : ∀ {st n} (type : Ty), n ∈ S → I st →
    I { st with facts := { st.facts with types := st.facts.types.insert n type } }
  resolutions : ∀ {st n} {res : Resolution}, n ∈ S → ctx.Allows res → I st →
    I { st with facts := { st.facts with resolutions := st.facts.resolutions.insert n res } }

/-- Expressions have recorded types with a property. -/
def ClassFacts.Recorded (facts : ClassFacts) (es : List (Expr Mark)) (Q : List Ty → Prop) : Prop :=
  ∃ types, es.map (fun e => facts.types.find? e.note.id) = types.map some ∧ Q types

/-- Types recorded at other positions stay as they are. -/
theorem stable_recorded {es : List (Expr Mark)} {Q : List Ty → Prop}
    (h : ∀ e ∈ es, e.note.id ∉ S) : Stable ctx S (fun st => st.facts.Recorded es Q) where
  lookups _ hrecorded := hrecorded
  locals _ hrecorded := hrecorded
  resolutions _ _ hrecorded := hrecorded
  types := by
    rintro st n type hn ⟨types, hmap, hQ⟩
    refine ⟨types, ?_, hQ⟩
    rw [← hmap]
    apply List.map_congr_left
    intro e he
    apply OrderedMap.find?_insert_of_ne
    rintro rfl
    exact h e he hn

/-- The targets of constructors are written elsewhere. -/
theorem stable_targets (ctx : BodyContext) (S : List ExprId) (P : ConstructorTargets → Prop) :
    Stable ctx S (fun st => P st.targets) where
  lookups _ htargets := htargets
  locals _ htargets := htargets
  types _ _ htargets := htargets
  resolutions _ _ htargets := htargets

/-- What is recorded at the given positions passes the throws clause. -/
def ClassFacts.AllowedAt (facts : ClassFacts) (ctx : BodyContext) (ids : List ExprId) : Prop :=
  ∀ n ∈ ids, ∀ res, facts.resolutions.find? n = some res → ctx.Allows res

/-- The check of a body records only what its throws clause allows, and nothing
at the positions of other bodies. -/
theorem stable_allowedAt {other : BodyContext} {ids : List ExprId}
    (h : (∀ res, other.Allows res → ctx.Allows res) ∨ ∀ n ∈ ids, n ∉ S) :
    Stable other S (fun st => st.facts.AllowedAt ctx ids) where
  lookups _ hallowed := hallowed
  locals _ hallowed := hallowed
  types _ _ hallowed := hallowed
  resolutions := by
    intro st n res hn hres hallowed m hm found hfound
    simp only at hfound
    rw [OrderedMap.find?_insert] at hfound
    split at hfound
    · rename_i heq
      cases hfound
      rcases h with h | h
      · exact h _ hres
      · exact absurd (heq ▸ hn) (h m hm)
    · exact hallowed m hm found hfound

/-! ## §2 Checks keep them -/

theorem ensures_rule {α : Type} (result : Except Violation α) :
    Ensures I (CheckM.rule result) (fun a => result = .ok a) := by
  intro st a st' hst hrun
  obtain ⟨hresult, rfl⟩ := Prod.mk.injEq .. ▸ hrun
  exact ⟨hst, hresult⟩

theorem Stable.keeps_lookup (hI : Stable ctx S I) {α : Type} (action : LookupM α) :
    Keeps I (CheckM.lookup action) := by
  intro st a st' hst hrun
  obtain ⟨-, rfl⟩ := Prod.mk.injEq .. ▸ hrun
  exact ⟨hI.lookups _ hst, trivial⟩

/-- Each step of a check keeps a stable invariant. -/
theorem Stable.steps (hI : Stable ctx S I) :
    CheckSteps ctx (fun e => e.note.id ∈ S) (fun _ => True) (fun x => Keeps I x) where
  pure _ := Keeps.pure
  bind := Keeps.bind
  rule _ hf := Ensures.bind (ensures_rule _) hf
  exprType _ _ := hI.keeps_lookup _
  createdType _ := hI.keeps_lookup _
  localType _ := hI.keeps_lookup _
  firstName _ _ := hI.keeps_lookup _
  recordType := by
    intro e he type st a st' hst hrun
    obtain ⟨-, rfl⟩ := Prod.mk.injEq .. ▸ hrun
    exact ⟨hI.types type he hst, trivial⟩
  recordResolution := by
    intro e res he hallows st a st' hst hrun
    obtain ⟨-, rfl⟩ := Prod.mk.injEq .. ▸ hrun
    exact ⟨hI.resolutions he hallows hst, trivial⟩
  recordLocal := by
    intro var st a st' hst hrun
    obtain ⟨-, rfl⟩ := Prod.mk.injEq .. ▸ hrun
    exact ⟨hI.locals var hst, trivial⟩

theorem Expr.note_id_mem_of_ids {e : Expr Mark} (h : e.ids ⊆ S) :
    ∀ part ∈ e.parts, part.note.id ∈ S := fun _ hpart => h (List.mem_map_of_mem hpart)

theorem Stmt.within_of_exprIds {s : Stmt Mark} (h : s.exprIds ⊆ S) :
    s.Within (fun e => e.note.id ∈ S) (fun _ => True) where
  parts _ _ := trivial
  exprs _ he := h (List.mem_map_of_mem he)

/-- The check of expressions keeps the invariants that are stable for their
positions. -/
theorem inferExprs_keeps (hI : Stable ctx S I) (scope : Scope) (es : List (Expr Mark))
    (hS : ∀ e ∈ es, e.ids ⊆ S) : Keeps I (inferExprs ctx scope es) :=
  inferExprs_has hI.steps.toExprSteps scope es (fun e he => Expr.note_id_mem_of_ids (hS e he))

theorem checkConditionOption_keeps (hI : Stable ctx S I) (scope : Scope)
    (condition : Option (Expr Mark)) (hS : ∀ e ∈ condition.toList, e.ids ⊆ S) :
    Keeps I (checkConditionOption ctx scope condition) :=
  checkConditionOption_has hI.steps.toExprSteps scope condition
    (fun e he => Expr.note_id_mem_of_ids (hS e he))

theorem checkUpdate_keeps (hI : Stable ctx S I) (scope : Scope) (update : Option (Expr Mark))
    (hS : ∀ e ∈ update.toList, e.ids ⊆ S) : Keeps I (checkUpdate ctx scope update) :=
  checkUpdate_has hI.steps.toExprSteps scope update
    (fun e he => Expr.note_id_mem_of_ids (hS e he))

/-- The check of a statement keeps the invariants that are stable for the
positions of the expressions inside it. -/
theorem checkStmt_keeps (hI : Stable ctx S I) (scope : Scope) (s : Stmt Mark)
    (hS : s.exprIds ⊆ S) : Keeps I (checkStmt ctx scope s) :=
  checkStmt_has hI.steps scope s (Stmt.within_of_exprIds hS)

theorem checkStmts_keeps (hI : Stable ctx S I) (scope : Scope) (ss : List (Stmt Mark))
    (hS : ∀ s ∈ ss, s.exprIds ⊆ S) : Keeps I (checkStmts ctx scope ss) :=
  checkStmts_has hI.steps scope ss (fun s hs => Stmt.within_of_exprIds (hS s hs))

theorem checkStmtOption_keeps (hI : Stable ctx S I) (scope : Scope) (s : Option (Stmt Mark))
    (hS : ∀ child ∈ s.toList, child.exprIds ⊆ S) : Keeps I (checkStmtOption ctx scope s) :=
  checkStmtOption_has hI.steps scope s (fun child hs => Stmt.within_of_exprIds (hS child hs))

end JoosStatics
