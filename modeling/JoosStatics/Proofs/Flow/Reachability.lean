/-
JoosStatics.Proofs.Flow.Reachability — the reachability rules are exact.

`Judges task result` says what a computed completion, or a computed failure,
means in terms of executions. §1 states it, §2 proves it form by form and
§3 puts the forms together by recursion on the tree. The loop around a
statement takes up its breaks, so both bits of a completion are followed side
by side.

* `completion_judges` — for every tree whose statements are distinct.
* `completion_exact` — for the statement trees of a well-formed arena (§4).
-/
import JoosStatics.Proofs.Flow.Execution
import JoosStatics.Proofs.Syntax.Reading
import JoosStatics.Syntax.Blueprint

namespace JoosStatics

/-! ## §1 What a computed completion means -/

/-- The statement is the first part of a task that no execution reaches. -/
def Task.FirstUnreached (task : Task) (part : Stmt Mark) : Prop :=
  ∃ before after, task.parts = before ++ part :: after ∧
    (∀ earlier ∈ before, task.Reaches earlier) ∧ ¬ task.Reaches part

theorem Task.FirstUnreached.mem_parts {task : Task} {part : Stmt Mark}
    (h : task.FirstUnreached part) : part ∈ task.parts := by
  obtain ⟨before, after, hsplit, -, -⟩ := h
  rw [hsplit]
  exact List.mem_append_right _ (List.mem_cons_self ..)

/-- The first unreached part of a task is that of a task around it, if everything
before the inner task is reached and the outer one reaches no more inside. -/
theorem Task.FirstUnreached.around {inner outer : Task} {part : Stmt Mark}
    (h : inner.FirstUnreached part) (before after : List (Stmt Mark))
    (hparts : outer.parts = before ++ inner.parts ++ after)
    (hbefore : ∀ earlier ∈ before, outer.Reaches earlier)
    (hinside : ∀ inside ∈ inner.parts, (outer.Reaches inside ↔ inner.Reaches inside)) :
    outer.FirstUnreached part := by
  have hpart := h.mem_parts
  obtain ⟨first, rest, hsplit, hfirst, hunreached⟩ := h
  refine ⟨before ++ first, rest ++ after, ?_, ?_, ?_⟩
  · simp only [hparts, hsplit, List.append_assoc, List.cons_append]
  · intro earlier hearlier
    rcases List.mem_append.mp hearlier with hearlier | hearlier
    · exact hbefore earlier hearlier
    · have hmem : earlier ∈ inner.parts := hsplit ▸ List.mem_append_left _ hearlier
      exact (hinside earlier hmem).mpr (hfirst earlier hearlier)
  · rwa [hinside part hpart]

/-- A completion says how a task may end, and that all of it is reached; a
failure names the first statement that is not. -/
inductive Judges (task : Task) : Reach Completion → Prop
  | completes {c : Completion} (normal_iff : c.normal = true ↔ task.MayEnd .normal)
      (breaks_iff : c.breaks = true ↔ task.MayEnd .broken)
      (reaches : ∀ part ∈ task.parts, task.Reaches part) : Judges task (.ok c)
  | fails {part : Stmt Mark} (h : task.FirstUnreached part) : Judges task (.error part)

namespace Judges

variable {task : Task} {c : Completion} {result : Reach Completion} {s part : Stmt Mark}

theorem normal_iff (h : Judges task (.ok c)) : c.normal = true ↔ task.MayEnd .normal := by
  cases h with
  | completes hnormal => exact hnormal

theorem breaks_iff (h : Judges task (.ok c)) : c.breaks = true ↔ task.MayEnd .broken := by
  cases h with
  | completes _ hbreaks => exact hbreaks

theorem reaches (h : Judges task (.ok c)) : ∀ part ∈ task.parts, task.Reaches part := by
  cases h with
  | completes _ _ hreaches => exact hreaches

theorem firstUnreached (h : Judges task (.error part)) : task.FirstUnreached part := by
  cases h with
  | fails h => exact h

/-! ## §2 Form by form -/

theorem normal_ne : Ending.normal ≠ .running := nofun

theorem broken_ne : Ending.broken ≠ .running := nofun

theorem simple {ending : Ending} (h : s.simpleEnding? = some ending)
    (hnormal : c.normal = true ↔ ending = .normal) (hbreaks : c.breaks = true ↔ ending = .broken) :
    Judges (.one s) (.ok c) := by
  refine .completes ?_ ?_ ?_
  · rw [Task.mayEnd_simple h normal_ne, hnormal, eq_comm]
  · rw [Task.mayEnd_simple h broken_ne, hbreaks, eq_comm]
  · intro part hpart
    have hparts : s.parts = [s] := by
      cases s <;> first | rfl | cases h
    rw [Task.parts, hparts, List.mem_singleton] at hpart
    exact hpart ▸ Task.reaches_self s

/-- A statement is judged as the task inside it, which comes right after it in
the source. -/
theorem enclose {inner : Task} (hparts : s.parts = s :: inner.parts) (hnodup : s.parts.Nodup)
    (hends : ∀ ending, ending ≠ .running →
      ((Task.one s).MayEnd ending ↔ inner.MayEnd ending))
    (hreaches : ∀ part, (Task.one s).Reaches part ↔ part = s ∨ inner.Reaches part)
    (h : Judges inner result) : Judges (.one s) result := by
  rw [hparts] at hnodup
  have hself : s ∉ inner.parts := (List.nodup_cons.mp hnodup).1
  cases h with
  | completes hnormal hbreaks hall =>
    refine .completes ?_ ?_ ?_
    · rw [hends .normal nofun, hnormal]
    · rw [hends .broken nofun, hbreaks]
    · intro part hpart
      rw [Task.parts, hparts] at hpart
      exact (hreaches part).mpr ((List.mem_cons.mp hpart).imp_right (hall part))
  | fails h =>
    refine .fails (h.around [s] [] ?_ ?_ ?_)
    · rw [Task.parts, hparts, List.append_nil, List.singleton_append]
    · exact List.forall_mem_singleton.mpr (Task.reaches_self s)
    · intro inside hinside
      rw [hreaches]
      exact or_iff_right (fun heq => hself (heq ▸ hinside))

theorem nil : Judges (.sequence []) (.ok .ordinary) :=
  .completes (by simp [Task.mayEnd_nil, Completion.ordinary])
    (by simp [Task.mayEnd_nil, Completion.ordinary]) nofun

section Cons

variable {ss : List (Stmt Mark)} (hnodup : (Task.sequence (s :: ss)).parts.Nodup)

include hnodup

theorem cons_of_error (h : Judges (.one s) (.error part)) :
    Judges (.sequence (s :: ss)) (.error part) := by
  refine .fails (h.firstUnreached.around [] (ss.flatMap Stmt.parts) rfl nofun ?_)
  intro inside hinside
  rw [Task.reaches_cons]
  refine or_iff_left ?_
  rintro ⟨-, hreached⟩
  exact (List.disjoint_of_nodup_append hnodup) hinside hreached.mem_parts

theorem cons_of_normal (h : Judges (.one s) (.ok c)) (hnormal : c.normal = true)
    (hss : Judges (.sequence ss) result) :
    Judges (.sequence (s :: ss))
      (result.map (fun rest => ⟨rest.normal, c.breaks || rest.breaks⟩)) := by
  have hs : (Task.one s).MayEnd .normal := h.normal_iff.mp hnormal
  cases hss with
  | completes hrest hrestBreaks hall =>
    refine .completes ?_ ?_ ?_
    · rw [Task.mayEnd_cons, hrest]
      simp [hs]
    · rw [Task.mayEnd_cons, Bool.or_eq_true, h.breaks_iff, hrestBreaks]
      simp [hs]
    · intro part hpart
      rw [Task.parts, List.flatMap_cons] at hpart
      rw [Task.reaches_cons]
      exact (List.mem_append.mp hpart).imp (h.reaches part) (fun hmem => ⟨hs, hall part hmem⟩)
  | fails hfirst =>
    refine .fails (hfirst.around s.parts [] ?_ ?_ ?_)
    · rw [List.append_nil]
      rfl
    · exact fun earlier hearlier => Task.reaches_cons.mpr (Or.inl (h.reaches earlier hearlier))
    · intro inside hinside
      rw [Task.reaches_cons, and_iff_right hs]
      refine or_iff_right (fun hreached => ?_)
      exact (List.disjoint_of_nodup_append hnodup) hreached.mem_parts hinside

end Cons

theorem singleton (h : Judges (.one s) result) : Judges (.sequence [s]) result := by
  have hparts : (Task.sequence [s]).parts = (Task.one s).parts := List.flatMap_singleton ..
  have hreaches (part : Stmt Mark) :
      (Task.sequence [s]).Reaches part ↔ (Task.one s).Reaches part := by
    simp [Task.reaches_cons, Task.reaches_nil]
  cases h with
  | completes hnormal hbreaks hall =>
    refine .completes ?_ ?_ ?_
    · rw [Task.mayEnd_cons, hnormal, Task.mayEnd_nil]
      simp
    · rw [Task.mayEnd_cons, hbreaks, Task.mayEnd_nil]
      simp
    · intro part hpart
      exact (hreaches part).mpr (hall part (hparts ▸ hpart))
  | fails hfirst =>
    refine .fails (hfirst.around [] [] ?_ nofun (fun part _ => hreaches part))
    rw [hparts, List.nil_append, List.append_nil]

/-- Nothing may stand after a statement that does not complete. -/
theorem cons_of_abrupt {ss : List (Stmt Mark)}
    (hnodup : (Task.sequence (s :: part :: ss)).parts.Nodup) (h : Judges (.one s) (.ok c))
    (habrupt : c.normal = false) : Judges (.sequence (s :: part :: ss)) (.error part) := by
  refine .fails ⟨s.parts, part.stmtChildren.flatMap Stmt.parts ++ ss.flatMap Stmt.parts, ?_, ?_, ?_⟩
  · rw [Task.parts, List.flatMap_cons, List.flatMap_cons, Stmt.parts_eq part, List.cons_append]
  · exact fun earlier hearlier => Task.reaches_cons.mpr (Or.inl (h.reaches earlier hearlier))
  · rw [Task.reaches_cons, ← h.normal_iff, habrupt]
    rintro (hreached | ⟨hfalse, -⟩)
    · have hmem : part ∈ (part :: ss).flatMap Stmt.parts :=
        List.mem_flatMap.mpr ⟨part, List.mem_cons_self .., Stmt.self_mem_parts part⟩
      exact (List.disjoint_of_nodup_append hnodup) hreached.mem_parts hmem
    · cases hfalse

theorem branch {note : Mark} {condition : Expr Mark} {thenBranch : Stmt Mark}
    {elseBranch : Option (Stmt Mark)} {thenResult elseResult : Reach Completion}
    (hnodup : (Stmt.branch note condition thenBranch elseBranch).parts.Nodup)
    (hthen : Judges (.one thenBranch) thenResult)
    (helse : Judges (.sequence elseBranch.toList) elseResult) :
    Judges (.one (.branch note condition thenBranch elseBranch))
      (thenResult >>= fun a => elseResult >>= fun b => pure (a.join b)) := by
  have hparts : (Stmt.branch note condition thenBranch elseBranch).parts =
      .branch note condition thenBranch elseBranch ::
        (thenBranch.parts ++ (Task.sequence elseBranch.toList).parts) := by
    rw [Stmt.parts_eq]
    rfl
  rw [hparts] at hnodup
  obtain ⟨hself, hnodup⟩ := List.nodup_cons.mp hnodup
  have hdisjoint := List.disjoint_of_nodup_append hnodup
  cases hthen with
  | fails h =>
    refine .fails (h.around [.branch note condition thenBranch elseBranch]
      (Task.sequence elseBranch.toList).parts ?_ ?_ ?_)
    · rw [Task.parts, hparts, List.singleton_append, List.cons_append]
      rfl
    · exact List.forall_mem_singleton.mpr (Task.reaches_self _)
    · intro inside hinside
      rw [Task.reaches_branch]
      refine ⟨?_, fun hreached => Or.inr (Or.inl hreached)⟩
      rintro (rfl | hreached | hreached)
      · exact absurd (List.mem_append_left _ hinside) hself
      · exact hreached
      · exact absurd hreached.mem_parts (hdisjoint hinside)
  | @completes a hthenNormal hthenBreaks hthenAll =>
    cases helse with
    | fails h =>
      refine .fails (h.around
        (.branch note condition thenBranch elseBranch :: thenBranch.parts) [] ?_ ?_ ?_)
      · rw [Task.parts, hparts, List.append_nil, List.cons_append]
      · refine List.forall_mem_cons.mpr ⟨Task.reaches_self _, fun earlier hearlier => ?_⟩
        exact Task.reaches_branch.mpr (Or.inr (Or.inl (hthenAll earlier hearlier)))
      · intro inside hinside
        rw [Task.reaches_branch]
        refine ⟨?_, fun hreached => Or.inr (Or.inr hreached)⟩
        rintro (rfl | hreached | hreached)
        · exact absurd (List.mem_append_right _ hinside) hself
        · exact absurd hinside (hdisjoint hreached.mem_parts)
        · exact hreached
    | @completes b helseNormal helseBreaks helseAll =>
      refine .completes ?_ ?_ ?_
      · rw [Task.mayEnd_branch normal_ne, ← hthenNormal, ← helseNormal]
        simp [Completion.join]
      · rw [Task.mayEnd_branch broken_ne, ← hthenBreaks, ← helseBreaks]
        simp [Completion.join]
      · intro part hpart
        rw [Task.parts, hparts] at hpart
        rw [Task.reaches_branch]
        refine (List.mem_cons.mp hpart).imp_right (fun hpart => ?_)
        exact (List.mem_append.mp hpart).imp (hthenAll part) (helseAll part)

/-- A loop that may enter its body fails as the body does. -/
theorem loop_of_error {condition : Option Constant} (htrue : MayBe condition true)
    (h : Judges (.one s) (.error part)) : Judges (.loop condition s) (.error part) := by
  refine .fails (h.firstUnreached.around [] [] ?_ nofun ?_)
  · rw [List.nil_append, List.append_nil]
    rfl
  · intro inside _
    rw [Task.reaches_loop, and_iff_right htrue]

/-- A loop takes up the breaks of its body, so that nothing ends it with one. -/
theorem not_mayEnd_loop_broken {condition : Option Constant} :
    ¬ (Task.loop condition s).MayEnd .broken := by
  rw [Task.mayEnd_loop broken_ne]
  rintro (⟨heq, -⟩ | ⟨-, inner, -, -, heq⟩)
  · cases heq
  · cases inner <;> cases heq

theorem loop_of_ok {condition : Option Constant} (htrue : MayBe condition true)
    (h : Judges (.one s) (.ok c)) {normal : Bool}
    (hnormal : normal = true ↔ MayBe condition false ∨ c.breaks = true) :
    Judges (.loop condition s) (.ok ⟨normal, false⟩) := by
  refine .completes ?_ ?_ ?_
  · rw [Task.mayEnd_loop normal_ne, hnormal, h.breaks_iff]
    constructor
    · rintro (hfalse | hbroken)
      · exact Or.inl ⟨rfl, hfalse⟩
      · exact Or.inr ⟨htrue, .broken, hbroken, nofun, rfl⟩
    · rintro (⟨-, hfalse⟩ | ⟨-, inner, hinner, hne, heq⟩)
      · exact Or.inl hfalse
      · cases inner with
        | broken => exact Or.inr hinner
        | normal => exact absurd rfl hne
        | _ => cases heq
  · simp [not_mayEnd_loop_broken]
  · exact fun part hpart => Task.reaches_loop.mpr ⟨htrue, h.reaches part hpart⟩

/-- A loop is judged by its condition and its body. -/
theorem loop (condition : Option Constant) (h : Judges (.one s) result) :
    Judges (.loop condition s) (loopCompletion condition s result) := by
  unfold loopCompletion
  split
  · refine .fails ⟨[], s.stmtChildren.flatMap Stmt.parts, ?_, nofun, ?_⟩
    · rw [Task.parts, Stmt.parts_eq, List.nil_append]
    · exact fun hreached => (Task.reaches_loop.mp hreached).1 rfl
  · have htrue : MayBe (some (.bool true)) true := by simp [MayBe]
    cases result with
    | error part => exact loop_of_error htrue h
    | ok c =>
      show Judges _ (.ok ⟨c.breaks, false⟩)
      exact loop_of_ok htrue h (by simp [MayBe])
  · rename_i hfalse htrue
    cases result with
    | error part => exact loop_of_error hfalse h
    | ok c =>
      show Judges _ (.ok ⟨true, false⟩)
      exact loop_of_ok hfalse h ⟨fun _ => Or.inl htrue, fun _ => rfl⟩

/-- A `for` loop whose initializer completes is judged as the loop behind it. -/
theorem forLoop {note : Mark} {init : Option (Stmt Mark)} {condition update : Option (Expr Mark)}
    (hnodup : (Stmt.forLoop note init condition update s).parts.Nodup)
    (hinit : Judges (.sequence init.toList) (.ok .ordinary))
    (h : Judges (.loop (loopCondition condition) s) result) :
    Judges (.one (.forLoop note init condition update s)) result := by
  have hparts : (Stmt.forLoop note init condition update s).parts =
      .forLoop note init condition update s ::
        ((Task.sequence init.toList).parts ++ s.parts) := by
    rw [Stmt.parts_eq]
    simp [Stmt.stmtChildren, Task.parts]
  rw [hparts] at hnodup
  obtain ⟨hself, hnodup⟩ := List.nodup_cons.mp hnodup
  have hinitNormal : (Task.sequence init.toList).MayEnd .normal := hinit.normal_iff.mp rfl
  have hinitBroken : ¬ (Task.sequence init.toList).MayEnd .broken :=
    fun hbroken => Bool.noConfusion (hinit.breaks_iff.mpr hbroken)
  cases h with
  | completes hnormal hbreaks hall =>
    refine .completes ?_ ?_ ?_
    · rw [Task.mayEnd_forLoop normal_ne, hnormal]
      simp [hinitNormal]
    · rw [Task.mayEnd_forLoop broken_ne, hbreaks]
      simp [hinitNormal, hinitBroken]
    · intro part hpart
      rw [Task.parts, hparts] at hpart
      rw [Task.reaches_forLoop]
      refine (List.mem_cons.mp hpart).imp_right (fun hpart => ?_)
      exact (List.mem_append.mp hpart).imp (hinit.reaches part)
        (fun hpart => ⟨hinitNormal, hall part hpart⟩)
  | fails h =>
    refine .fails (h.around (.forLoop note init condition update s ::
      (Task.sequence init.toList).parts) [] ?_ ?_ ?_)
    · rw [Task.parts, hparts, List.append_nil, List.cons_append]
      rfl
    · refine List.forall_mem_cons.mpr ⟨Task.reaches_self _, fun earlier hearlier => ?_⟩
      exact Task.reaches_forLoop.mpr (Or.inr (Or.inl (hinit.reaches earlier hearlier)))
    · intro inside hinside
      rw [Task.reaches_forLoop]
      refine ⟨?_, fun hreached => Or.inr (Or.inr ⟨hinitNormal, hreached⟩)⟩
      rintro (rfl | hreached | ⟨-, hreached⟩)
      · exact absurd (List.mem_append_right _ hinside) hself
      · exact absurd hinside (List.disjoint_of_nodup_append hnodup hreached.mem_parts)
      · exact hreached

end Judges

/-! ## §3 Whole trees -/

/-- Whether the initializer of a `for` loop is a declaration or an expression. -/
def Stmt.hasPlainInit {α : Type} : Stmt α → Bool
  | .forLoop _ (some (.localVar ..)) _ _ _ | .forLoop _ (some (.expression ..)) _ _ _ => true
  | .forLoop _ (some _) _ _ _ => false
  | _ => true

/-- The initializer of such a loop completes. -/
theorem judges_init {note : Mark} {init : Option (Stmt Mark)}
    {condition update : Option (Expr Mark)} {body : Stmt Mark}
    (h : (Stmt.forLoop note init condition update body).hasPlainInit = true) :
    Judges (.sequence init.toList) (.ok .ordinary) ∧ optionalCompletion init = .ok .ordinary := by
  cases init with
  | none => exact ⟨.nil, rfl⟩
  | some s =>
    cases s with
    | localVar => exact ⟨.singleton (.simple rfl (by decide) (by decide)), rfl⟩
    | expression => exact ⟨.singleton (.simple rfl (by decide) (by decide)), rfl⟩
    | _ => cases h

/-- What has been left by a break before stands beside the completion. -/
theorem blockCompletion_breaks (normal breaks : Bool) (ss : List (Stmt Mark)) :
    blockCompletion ⟨normal, breaks⟩ ss =
      (blockCompletion ⟨normal, false⟩ ss).map (fun c => ⟨c.normal, breaks || c.breaks⟩) := by
  induction ss generalizing normal breaks with
  | nil => simp [blockCompletion, Except.map]
  | cons s ss ih =>
    simp only [blockCompletion]
    cases normal with
    | false => rfl
    | true =>
      cases s.completion with
      | error part => rfl
      | ok c =>
        show blockCompletion ⟨c.normal, breaks || c.breaks⟩ ss =
          (blockCompletion ⟨c.normal, false || c.breaks⟩ ss).map _
        rw [ih, ih c.normal (false || c.breaks)]
        cases blockCompletion ⟨c.normal, false⟩ ss <;> simp [Except.map, Bool.or_assoc]

/-- The completion of a sequence is that of its first statement, followed by
that of the rest where the first one completes. -/
theorem blockCompletion_cons (s : Stmt Mark) (ss : List (Stmt Mark)) :
    blockCompletion .ordinary (s :: ss) =
      s.completion >>= fun c =>
        if c.normal then
          (blockCompletion .ordinary ss).map (fun rest => ⟨rest.normal, c.breaks || rest.breaks⟩)
        else
          match ss with
          | [] => .ok c
          | next :: _ => .error next := by
  show (s.completion >>= fun c => blockCompletion ⟨c.normal, c.breaks⟩ ss) = _
  cases s.completion with
  | error part => rfl
  | ok c =>
    obtain ⟨normal, breaks⟩ := c
    cases normal with
    | true => exact blockCompletion_breaks true breaks ss
    | false => cases ss <;> rfl

theorem Judges.cons {s : Stmt Mark} {ss : List (Stmt Mark)}
    (hnodup : (Task.sequence (s :: ss)).parts.Nodup) (hs : Judges (.one s) s.completion)
    (hss : Judges (.sequence ss) (blockCompletion .ordinary ss)) :
    Judges (.sequence (s :: ss)) (blockCompletion .ordinary (s :: ss)) := by
  rw [blockCompletion_cons]
  cases hcompletion : s.completion with
  | error part => exact cons_of_error hnodup (hcompletion ▸ hs)
  | ok c =>
    have hs : Judges (.one s) (.ok c) := hcompletion ▸ hs
    show Judges _ (if c.normal then _ else _)
    split
    · rename_i hnormal
      exact cons_of_normal hnodup hs hnormal hss
    · rename_i hnormal
      cases ss with
      | nil => exact .singleton hs
      | cons next ss => exact cons_of_abrupt hnodup hs (by simpa using hnormal)

mutual

/-- The computed completion of a tree is judged right. -/
theorem completion_judges (s : Stmt Mark) (hnodup : s.parts.Nodup)
    (hinit : ∀ part ∈ s.parts, part.hasPlainInit = true) : Judges (.one s) s.completion := by
  match s with
  | .localVar .. | .expression .. | .empty .. | .constructorCall .. | .throwValue ..
  | .breakLoop .. => exact .simple rfl (by decide) (by decide)
  | .returnValue .. =>
    exact .simple rfl (by simp [Completion.abrupt]) (by simp [Completion.abrupt])
  | .block note stmts =>
    have hparts : (Stmt.block note stmts).parts =
        .block note stmts :: (Task.sequence stmts).parts := Stmt.parts_eq _
    rw [hparts] at hinit
    refine .enclose hparts hnodup (fun _ => Task.mayEnd_block) (fun _ => Task.reaches_block) ?_
    rw [hparts] at hnodup
    exact blockCompletion_judges stmts hnodup.of_cons
      (fun part hpart => hinit part (List.mem_cons_of_mem _ hpart))
  | .branch note condition thenBranch elseBranch =>
    have hparts : (Stmt.branch note condition thenBranch elseBranch).parts =
        .branch note condition thenBranch elseBranch ::
          (thenBranch.parts ++ (Task.sequence elseBranch.toList).parts) := Stmt.parts_eq _
    refine .branch hnodup ?_ ?_
    · rw [hparts] at hnodup hinit
      exact completion_judges thenBranch hnodup.of_cons.of_append_left
        (fun part hpart => hinit part (List.mem_cons_of_mem _ (List.mem_append_left _ hpart)))
    · rw [hparts] at hnodup hinit
      exact optionalCompletion_judges elseBranch hnodup.of_cons.of_append_right
        (fun part hpart => hinit part (List.mem_cons_of_mem _ (List.mem_append_right _ hpart)))
  | .whileLoop note condition body =>
    have hparts : (Stmt.whileLoop note condition body).parts =
        .whileLoop note condition body :: (Task.loop condition.fold? body).parts := rfl
    rw [hparts] at hinit
    refine .enclose hparts hnodup (fun _ => Task.mayEnd_whileLoop)
      (fun _ => Task.reaches_whileLoop) (.loop _ ?_)
    rw [hparts] at hnodup
    exact completion_judges body hnodup.of_cons
      (fun part hpart => hinit part (List.mem_cons_of_mem _ hpart))
  | .forLoop note init condition update body =>
    obtain ⟨hjudged, hcompletes⟩ := judges_init (hinit _ (Stmt.self_mem_parts _))
    show Judges _ (optionalCompletion init >>= fun _ => loopCompletion _ body body.completion)
    rw [hcompletes]
    refine .forLoop hnodup hjudged (.loop _ ?_)
    rw [Stmt.parts] at hnodup hinit
    exact completion_judges body hnodup.of_cons.of_append_right
      (fun part hpart => hinit part (List.mem_cons_of_mem _ (List.mem_append_right _ hpart)))
termination_by structural s

theorem blockCompletion_judges (ss : List (Stmt Mark))
    (hnodup : (Task.sequence ss).parts.Nodup)
    (hinit : ∀ part ∈ (Task.sequence ss).parts, part.hasPlainInit = true) :
    Judges (.sequence ss) (blockCompletion .ordinary ss) := by
  match ss with
  | [] => exact .nil
  | s :: ss =>
    have hparts : (Task.sequence (s :: ss)).parts = s.parts ++ (Task.sequence ss).parts := rfl
    refine .cons hnodup ?_ ?_
    · rw [hparts] at hnodup hinit
      exact completion_judges s hnodup.of_append_left
        (fun part hpart => hinit part (List.mem_append_left _ hpart))
    · rw [hparts] at hnodup hinit
      exact blockCompletion_judges ss hnodup.of_append_right
        (fun part hpart => hinit part (List.mem_append_right _ hpart))
termination_by structural ss

theorem optionalCompletion_judges (s : Option (Stmt Mark))
    (hnodup : (Task.sequence s.toList).parts.Nodup)
    (hinit : ∀ part ∈ (Task.sequence s.toList).parts, part.hasPlainInit = true) :
    Judges (.sequence s.toList) (optionalCompletion s) := by
  match s with
  | none => exact .nil
  | some s =>
    have hparts : (Task.sequence [s]).parts = s.parts := List.flatMap_singleton ..
    exact .singleton (completion_judges s (hparts ▸ hnodup) (hparts ▸ hinit))
termination_by structural s

end

/-! ## §4 Statement trees of an arena -/

/-- The reachability rules are exact for every statement tree of a well-formed
arena whose `for` loops start with a declaration or an expression. The
computation succeeds when every statement is reached by some execution, and
then says how executions end; else it fails with the first statement, in source
order, that none reaches. -/
theorem completion_exact (a : BodyArena) (root : StmtId) (hwf : a.isWellFormed = true)
    (hroot : a.hasStmt root = true) (htree : a.formsTrees [root] [] = true) :
    ∃ s, a.stmt? root = some s ∧ ((∀ part ∈ s.parts, part.hasPlainInit = true) →
      ((∃ c, s.completion = .ok c) ↔ ∀ part ∈ s.parts, (Task.one s).Reaches part) ∧
      (∀ c, s.completion = .ok c →
        (c.normal = true ↔ (Task.one s).MayEnd .normal) ∧
        (c.breaks = true ↔ (Task.one s).MayEnd .broken)) ∧
      (∀ part, s.completion = .error part → (Task.one s).FirstUnreached part)) := by
  obtain ⟨ss, es, hss, -, hdistinct⟩ := BodyArena.exists_trees hwf
    (List.forall_mem_singleton.mpr hroot) (List.forall_mem_nil _) htree
  obtain _ | ⟨hread, ⟨⟩⟩ := hss
  rename_i s
  have hnodes : s.nodes.Nodup :=
    (hdistinct.sublist (List.sublist_append_left ..)).of_mem (List.mem_singleton_self s) |>.nodup
  refine ⟨s, hread, fun hinit => ?_⟩
  have hjudged := completion_judges s (Stmt.parts_nodup hnodes) hinit
  refine ⟨⟨?_, ?_⟩, ?_, ?_⟩
  · rintro ⟨c, hc⟩
    exact (hc ▸ hjudged).reaches
  · intro hall
    cases hc : s.completion with
    | ok c => exact ⟨c, rfl⟩
    | error part =>
      have hfirst : (Task.one s).FirstUnreached part := (hc ▸ hjudged).firstUnreached
      have hreached := hall part hfirst.mem_parts
      obtain ⟨_, _, -, -, hunreached⟩ := hfirst
      exact absurd hreached hunreached
  · intro c hc
    exact ⟨(hc ▸ hjudged).normal_iff, (hc ▸ hjudged).breaks_iff⟩
  · intro part hc
    exact (hc ▸ hjudged).firstUnreached

/-- An endless loop that is left by a statement once a variable is true, and an
empty statement behind it. -/
def pollLoop (exit : Stmt Unit) : Stmt Unit :=
  .block () [
    .whileLoop () (.literal () (.bool true)) (.branch () (.named () (.single "done")) exit none),
    .empty ()]

/-- A `break` leaves such a loop and nothing but the loop. With a `return` in its
place, the empty statement is the first one that is not reached. -/
theorem pollLoop_completion :
    (∃ s, ((pollLoop (.breakLoop ())).allocate {}).2.stmt? 4 = some s ∧
      (Task.one s).MayEnd .normal ∧ ¬ (Task.one s).MayEnd .broken) ∧
    (∃ s, ((pollLoop (.returnValue () none)).allocate {}).2.stmt? 4 = some s ∧
      (Task.one s).FirstUnreached (.empty ⟨3, {}⟩)) := by
  constructor
  · obtain ⟨s, hread, h⟩ := completion_exact ((pollLoop (.breakLoop ())).allocate {}).2 4
      (by decide) (by decide) (by decide)
    obtain rfl := Option.some.inj hread
    obtain ⟨hnormal, hbreaks⟩ := (h (by decide)).2.1 ⟨true, false⟩ rfl
    exact ⟨_, rfl, hnormal.mp rfl, fun hbroken => Bool.noConfusion (hbreaks.mpr hbroken)⟩
  · obtain ⟨s, hread, h⟩ := completion_exact ((pollLoop (.returnValue () none)).allocate {}).2 4
      (by decide) (by decide) (by decide)
    obtain rfl := Option.some.inj hread
    exact ⟨_, rfl, (h (by decide)).2.2 (.empty ⟨3, {}⟩) rfl⟩

end JoosStatics
