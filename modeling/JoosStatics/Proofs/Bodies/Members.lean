/-
JoosStatics.Proofs.Bodies.Members — the check of one member.

* `checkBody_keeps` — it keeps what outlives its writes.
* `checkBody_judges` — it finds out that the values thrown in the body may be
  thrown, and that the arguments of `super(...)` fit a constructor of the
  superclass.
-/
import JoosStatics.Proofs.Bodies.Content
import JoosStatics.Proofs.Bodies.Judging

namespace JoosStatics

variable {S : List ExprId} {I : CheckState → Prop}

/-! ## §1 What the check of a member leaves alone -/

theorem Stmt.exprIds_eq_statements (body : Stmt Mark) :
    body.exprIds = body.statements.flatMap Stmt.exprIds := by
  cases body with
  | block mark stmts => rw [Stmt.exprIds_eq]; rfl
  | _ => simp only [Stmt.statements, List.flatMap_singleton]

namespace ClassContext

variable {cls : ClassContext} {owner : BodyOwner}

/-- An invariant outlives the writes of the check of a member. -/
structure Outlives (cls : ClassContext) (owner : BodyOwner) (I : CheckState → Prop) : Prop where
  stable : Stable (cls.bodyContext owner) (cls.decl.bodyIds owner) I
  targets : ∀ {st index target}, owner = .constructor index →
    (cls.bodyContext owner).Allows (.constructor target) → I st →
    I { st with targets := st.targets.insert ⟨cls.classId, index⟩ target }

/-- The check of a member has the property of its steps. -/
theorem checkBody_has {P : ∀ {α : Type}, CheckM α → Prop}
    (hP : CheckSteps (cls.bodyContext owner) (· ∈ cls.decl.exprsOf owner)
      (· ∈ cls.decl.stmtsOf owner) P)
    (htarget : ∀ index target, owner = .constructor index →
      (cls.bodyContext owner).Allows (.constructor target) →
      P (CheckM.recordTarget ⟨cls.classId, index⟩ target)) :
    P (cls.checkBody owner) := by
  cases owner with
  | field index =>
    refine checkInitializer_has hP.toExprSteps _ _ _ (fun e he part hpart => ?_)
    rw [TypeDecl.exprsOf, Option.mem_toList.mp he]
    exact hpart
  | method index =>
    show P (cls.checkMethod index)
    simp only [checkMethod]
    split
    · exact hP.pure ()
    · rename_i body hbody
      have hwithin := TypeDecl.within_of_methodTree? hbody
      refine hP.bind (declareParams_has hP _ _) (fun scope => ?_)
      exact hP.bind (checkStmt_has hP scope body hwithin) (fun _ => hP.pure ())
  | constructor index =>
    show P (cls.checkConstructor index)
    simp only [checkConstructor]
    split
    · exact checkSuperInvocation_has hP.toExprSteps _ _ _ (List.forall_mem_nil _)
    · split
      · exact hP.pure ()
      · rename_i body hbody
        have hwithin := TypeDecl.within_of_constructorTree? hbody
        refine hP.bind (declareParams_has hP _ _) (fun scope => ?_)
        exact checkConstructorBody_has hP scope body hwithin
          (fun _ target => htarget index target rfl)

/-- The check of a member keeps the invariants that outlive its writes. -/
theorem checkBody_keeps (hI : cls.Outlives owner I) : Keeps I (cls.checkBody owner) := by
  refine checkBody_has (hI.stable.steps.mono (fun _ he => List.mem_map_of_mem he)
    (fun _ _ => trivial)) (fun index target howner hallows => ?_)
  intro st a st' hst hrun
  obtain ⟨-, rfl⟩ := Prod.mk.injEq .. ▸ hrun
  exact ⟨hI.targets howner hallows hst, trivial⟩

end ClassContext

/-! ## §2 What the check of a member finds out -/

namespace BodyContext

/-- The types of the arguments of `super(...)` fit a constructor of the
superclass, if there is one, and the throws clause covers what it throws. -/
def MayInvokeSuper (ctx : BodyContext) (types : List Ty) : Prop :=
  ∀ superclass, (ctx.table.classAt ctx.classId).superclass = some superclass →
    ∃ range ref, ctx.invokedConstructor superclass types range = .ok ref

end BodyContext

theorem checkSuperInvocation_judges {ctx : BodyContext} (scope : Scope) {args : List (Expr Mark)}
    (range : Span) (hnodup : (args.flatMap Expr.ids).Nodup) :
    Reaches (checkSuperInvocation ctx scope args range)
      (fun _ st => st.facts.Recorded args ctx.MayInvokeSuper) := by
  intro st found st' hrun
  obtain ⟨types, st₁, htypes, hrun⟩ := run_bind_eq_ok.mp hrun
  obtain ⟨_, hmap, rfl⟩ := inferExprs_records scope hnodup st types st₁ htypes
  cases hsuper : (ctx.table.classAt ctx.classId).superclass with
  | none =>
    simp only [hsuper] at hrun
    split at hrun
    · cases hrun
      refine ⟨_, hmap, fun superclass hsuperclass => ?_⟩
      rw [hsuper] at hsuperclass
      cases hsuperclass
    · cases hrun
  | some superclass =>
    simp only [hsuper] at hrun
    obtain ⟨ref, st₂, href, hrun⟩ := run_bind_eq_ok.mp hrun
    cases hrun
    obtain ⟨hok, rfl⟩ := Prod.mk.injEq .. ▸ href
    refine ⟨_, hmap, fun superclass' hsuperclass => ?_⟩
    rw [hsuper] at hsuperclass
    cases hsuperclass
    exact ⟨range, ref, hok⟩

theorem Stmt.thrown_mem_statements {mark : Mark} {value : Expr Mark} {body : Stmt Mark}
    (h : .throwValue mark value ∈ body.parts) :
    .throwValue mark value ∈ body.statements.flatMap Stmt.parts := by
  cases body with
  | block mark stmts => exact Stmt.thrown_mem_stmtChildren h (by simp)
  | _ => simpa only [Stmt.statements, List.flatMap_singleton] using h

/-- Every value thrown in a constructor body may be thrown. -/
theorem checkConstructorBody_judges {ctx : BodyContext} (scope : Scope)
    {constructor : ConstructorRef} {body : Stmt Mark} (hnodup : body.exprIds.Nodup) {mark : Mark}
    {value : Expr Mark} (hmem : .throwValue mark value ∈ body.parts) :
    Reaches (checkConstructorBody ctx scope constructor body)
      (fun _ st => st.facts.Throws ctx value) := by
  have hmem := Stmt.thrown_mem_statements hmem
  rw [Stmt.exprIds_eq_statements] at hnodup
  unfold checkConstructorBody
  split
  · rename_i mark' call args rest heq
    rw [heq, List.flatMap_cons] at hmem hnodup
    have hrest : .throwValue mark value ∈ rest.flatMap Stmt.parts := by
      rcases List.mem_append.mp hmem with h | h
      · cases Stmt.thrown_mem_stmtChildren h (by simp)
      · exact h
    have hjudges : Reaches (checkStmts ctx scope rest) (fun _ st => st.facts.Throws ctx value) :=
      checkStmts_judges scope rest (List.nodup_append.mp hnodup).2.1 hrest
    cases call with
    | this =>
      refine Reaches.bind_right (fun _ => ?_)
      exact Reaches.bind_left hjudges (fun _ => Keeps.pure)
    | super =>
      refine Reaches.bind_right (fun _ => ?_)
      exact Reaches.bind_left hjudges (fun _ => Keeps.pure)
  · refine Reaches.bind_right (fun _ => ?_)
    refine Reaches.bind_left ?_ (fun _ => Keeps.pure)
    exact checkStmts_judges scope _ hnodup hmem

/-- The arguments of the `super(...)` that a constructor body starts with fit a
constructor of the superclass. -/
theorem checkConstructorBody_judges_super {ctx : BodyContext} (scope : Scope)
    {constructor : ConstructorRef} {body : Stmt Mark} (hnodup : body.exprIds.Nodup)
    {args : List (Expr Mark)} (hargs : body.superArgs? = some args) :
    Reaches (checkConstructorBody ctx scope constructor body)
      (fun _ st => st.facts.Recorded args ctx.MayInvokeSuper) := by
  rw [Stmt.exprIds_eq_statements] at hnodup
  unfold Stmt.superArgs? at hargs
  unfold checkConstructorBody
  split
  · rename_i mark call args' rest heq
    rw [heq] at hargs hnodup
    cases call with
    | this => cases hargs
    | super =>
      cases hargs
      rw [List.flatMap_cons, List.nodup_append, Stmt.exprIds_eq] at hnodup
      simp only [Stmt.exprChildren, Stmt.stmtChildren, List.flatMap_nil, List.append_nil] at hnodup
      obtain ⟨hdistinct, -, hdisjoint⟩ := hnodup
      refine Reaches.bind_left (checkSuperInvocation_judges scope _ hdistinct) (fun _ => ?_)
      have hstable : Stable ctx (rest.flatMap Stmt.exprIds)
          (fun st => st.facts.Recorded args ctx.MayInvokeSuper) := by
        apply stable_recorded
        intro e he hn
        exact hdisjoint _ (List.mem_flatMap.mpr ⟨e, he, e.note_id_mem_ids⟩) _ hn rfl
      refine Keeps.bind (checkStmts_keeps hstable scope rest ?_) (fun _ => Keeps.pure)
      exact fun s hs n hn => List.mem_flatMap.mpr ⟨s, hs, hn⟩
  · rename_i hother
    have hnil : args = [] := by
      split at hargs
      · rename_i heq
        exact absurd heq (hother _ _ _ _)
      · rename_i heq
        exact absurd heq (hother _ _ _ _)
      · exact (Option.some.inj hargs).symm
    subst hnil
    refine Reaches.bind_left (checkSuperInvocation_judges scope _ List.nodup_nil) (fun _ => ?_)
    have hstable : Stable ctx (body.statements.flatMap Stmt.exprIds)
        (fun st => st.facts.Recorded [] ctx.MayInvokeSuper) := stable_recorded (by simp)
    refine Keeps.bind (checkStmts_keeps hstable scope _ ?_) (fun _ => Keeps.pure)
    exact fun s hs n hn => List.mem_flatMap.mpr ⟨s, hs, hn⟩

/-- The arguments of `super(...)` stand inside the constructor body. -/
theorem Stmt.superArgs?_subset {body : Stmt Mark} {args : List (Expr Mark)}
    (hargs : body.superArgs? = some args) {e : Expr Mark} (he : e ∈ args) :
    e.note.id ∈ body.exprIds := by
  rw [Stmt.exprIds_eq_statements]
  unfold Stmt.superArgs? at hargs
  split at hargs
  · cases hargs
  · rename_i mark args' rest heq
    cases hargs
    rw [heq, List.flatMap_cons, Stmt.exprIds_eq]
    refine List.mem_append_left _ (List.mem_append_left _ ?_)
    exact List.mem_flatMap.mpr ⟨e, he, e.note_id_mem_ids⟩
  · cases hargs
    cases he

/-- A constructor with a written body is written. -/
theorem TypeDecl.not_isEmpty_of_constructorTree? {d : TypeDecl} {index : Nat} {body : Stmt Mark}
    (h : d.constructorTree? index = some body) : d.constructors.isEmpty ≠ true := by
  intro hempty
  rw [constructorTree?, List.isEmpty_iff.mp hempty] at h
  cases h

namespace ClassContext

variable {cls : ClassContext} {owner : BodyOwner}

/-- The check of a member judges the types of expressions. -/
inductive Judges (cls : ClassContext) : BodyOwner → List (Expr Mark) → (List Ty → Prop) → Prop
  | thrown {owner : BodyOwner} {mark : Mark} {value : Expr Mark}
      (hmem : .throwValue mark value ∈ cls.decl.stmtsOf owner) :
      Judges cls owner [value] (fun types => ∀ type ∈ types, (cls.bodyContext owner).MayThrow type)
  | super {index : Nat} {args : List (Expr Mark)} (hargs : cls.decl.superArgs? index = some args) :
      Judges cls (.constructor index) args (cls.bodyContext (.constructor index)).MayInvokeSuper

/-- The types that the check of a member judges are recorded inside its body. -/
theorem Judges.id_mem {es : List (Expr Mark)} {Q : List Ty → Prop} (h : cls.Judges owner es Q)
    {e : Expr Mark} (he : e ∈ es) : e.note.id ∈ cls.decl.bodyIds owner := by
  cases h with
  | thrown hmem =>
    cases List.mem_singleton.mp he
    rcases TypeDecl.mem_stmtsOf hmem with
      ⟨index, body, rfl, hbody, hmem⟩ | ⟨index, body, rfl, hbody, hmem⟩
    · rw [TypeDecl.bodyIds_method, hbody]
      exact Stmt.thrown_mem_exprIds hmem
    · rw [TypeDecl.bodyIds_constructor, hbody]
      exact Stmt.thrown_mem_exprIds hmem
  | @super index args hargs =>
    unfold TypeDecl.superArgs? at hargs
    split at hargs
    · cases hargs
      cases he
    · obtain ⟨body, hbody, hargs⟩ := Option.bind_eq_some_iff.mp hargs
      rw [TypeDecl.bodyIds_constructor, hbody]
      exact Stmt.superArgs?_subset hargs he

theorem constructor_mem_owners {index : Nat} : .constructor index ∈ cls.owners ↔
    index < (cls.table.classAt cls.classId).constructors.length := by
  simp [owners]

/-- A type has a default constructor when it is written without constructors. -/
def DefaultsUnwritten (cls : ClassContext) : Prop :=
  ∀ c ∈ (cls.table.classAt cls.classId).constructors, c.isDefault = cls.decl.constructors.isEmpty

theorem DefaultsUnwritten.isDefault_eq (h : cls.DefaultsUnwritten) {index : Nat}
    (howner : .constructor index ∈ cls.owners) :
    (cls.table.constructorAt ⟨cls.classId, index⟩).isDefault = cls.decl.constructors.isEmpty := by
  have hlt := constructor_mem_owners.mp howner
  apply h
  rw [TypeTable.constructorAt_of_getElem? (List.getElem?_eq_getElem hlt)]
  exact List.getElem_mem hlt

/-- A successful check of a member leaves the types that it judges recorded. -/
theorem checkBody_judges (hnodup : (cls.decl.bodyIds owner).Nodup)
    (hdefaults : cls.DefaultsUnwritten) (howner : owner ∈ cls.owners) {es : List (Expr Mark)}
    {Q : List Ty → Prop} (h : cls.Judges owner es Q) :
    Reaches (cls.checkBody owner) (fun _ st => st.facts.Recorded es Q) := by
  cases h with
  | thrown hmem =>
    rcases TypeDecl.mem_stmtsOf hmem with
      ⟨index, body, rfl, hbody, hmem⟩ | ⟨index, body, rfl, hbody, hmem⟩
    · rw [TypeDecl.bodyIds_method, hbody] at hnodup
      show Reaches (cls.checkMethod index) _
      simp only [checkMethod, hbody]
      refine Reaches.bind_right (fun scope => ?_)
      exact Reaches.bind_left (checkStmt_judges scope body hnodup hmem) (fun _ => Keeps.pure)
    · rw [TypeDecl.bodyIds_constructor, hbody] at hnodup
      show Reaches (cls.checkConstructor index) _
      simp only [checkConstructor, hdefaults.isDefault_eq howner, hbody]
      rw [if_neg (TypeDecl.not_isEmpty_of_constructorTree? hbody)]
      refine Reaches.bind_right (fun scope => ?_)
      exact checkConstructorBody_judges scope hnodup hmem
  | @super index args hargs =>
    show Reaches (cls.checkConstructor index) _
    simp only [checkConstructor, hdefaults.isDefault_eq howner]
    unfold TypeDecl.superArgs? at hargs
    split at hargs
    · rename_i hempty
      cases hargs
      rw [if_pos hempty]
      exact checkSuperInvocation_judges _ _ List.nodup_nil
    · rename_i hwritten
      obtain ⟨body, hbody, hargs⟩ := Option.bind_eq_some_iff.mp hargs
      rw [TypeDecl.bodyIds_constructor, hbody] at hnodup
      rw [if_neg hwritten, hbody]
      refine Reaches.bind_right (fun scope => ?_)
      exact checkConstructorBody_judges_super scope hnodup hargs

end ClassContext

end JoosStatics
