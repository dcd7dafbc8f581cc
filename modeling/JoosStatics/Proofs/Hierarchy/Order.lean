/-
JoosStatics.Proofs.Hierarchy.Order — the dependency order lists every type
once, behind its supertypes, or there is a cycle.

`TypeTable.Steps` and `TypeTable.Fails` say what the walk does with the task on
top of its stack (`visit_succ`), and `TypeTable.Reached` which stacks it gets to.
Three invariants hold of them all:

* `Visiting` — the supertypes of an open type have been left or wait on the
  stack above the task that leaves it;
* `Stacked` — what waits above an open type is above it in the table;
* `OpensOnce` — an open type does not wait to be entered again.

The walk ends with the stack empty because each type is opened once, which
`openWork` counts.

* `dependencyOrder_spec` — the order is a `SupersFirst` list of all types.
* `dependencyOrder_eq_error` — a failure names a type that is above itself;
  without one there is an order (`exists_dependencyOrder`).
* `SupersFirst.induction` — what passes from the supertypes of a type to the
  type holds of all types of the order.
-/
import JoosStatics.Hierarchy.Order
import JoosStatics.Proofs.Types.Supertypes

namespace JoosStatics.TypeTable

variable {t : TypeTable}

/-! ## §1 Orders with the supertypes first -/

/-- Every type stands behind all its direct supertypes. -/
def SupersFirst (t : TypeTable) (order : List ClassId) : Prop :=
  ∀ before id after, order = before ++ id :: after → ∀ sup, t.Extends id sup → sup ∈ before

theorem supersFirst_nil (t : TypeTable) : t.SupersFirst [] := by
  intro before id after h
  simp at h

theorem SupersFirst.append_singleton {order : List ClassId} {id : ClassId}
    (h : t.SupersFirst order) (hid : ∀ sup, t.Extends id sup → sup ∈ order) :
    t.SupersFirst (order ++ [id]) := by
  intro before x after heq sup hsup
  rcases List.append_eq_append_iff.mp heq with ⟨middle, rfl, hmiddle⟩ | ⟨middle, rfl, hmiddle⟩
  · rcases List.cons_eq_append_iff.mp hmiddle with ⟨rfl, hx⟩ | ⟨rest, rfl, hrest⟩
    · obtain ⟨rfl, -⟩ := List.cons.inj hx
      rw [List.append_nil]
      exact hid sup hsup
    · simp at hrest
  · cases middle with
    | nil =>
      obtain ⟨rfl, -⟩ := List.cons.inj hmiddle
      simpa using hid sup hsup
    | cons y middle =>
      obtain ⟨rfl, -⟩ := List.cons.inj hmiddle
      exact h before x middle rfl sup hsup

/-- What passes from the direct supertypes of a type to the type holds of
every type of the order. -/
theorem SupersFirst.induction {order : List ClassId} (h : t.SupersFirst order)
    {P : ClassId → Prop} (step : ∀ id ∈ order, (∀ sup, t.Extends id sup → P sup) → P id) :
    ∀ id ∈ order, P id := by
  -- every beginning of the order has the property, by the number of its types
  have hprefix : ∀ before after, order = before ++ after → ∀ id ∈ before, P id := by
    intro before
    induction before using List.reverseRecOn with
    | nil => simp
    | append_singleton before last ih =>
      intro after heq id hid
      rw [List.append_assoc, List.singleton_append] at heq
      have hbefore := ih (last :: after) heq
      rcases List.mem_append.mp hid with hid | hid
      · exact hbefore id hid
      · obtain rfl := List.mem_singleton.mp hid
        refine step id (by rw [heq]; simp) (fun sup hsup => ?_)
        exact hbefore sup (h before id after heq sup hsup)
  exact hprefix order [] (by simp)

/-- No chain of supertypes goes on forever when all types can be listed so. -/
theorem SupersFirst.wellFounded {order : List ClassId} (h : t.SupersFirst order)
    (hmem : ∀ id, id ∈ order ↔ id < t.size) : WellFounded (fun sup id => t.Extends id sup) := by
  refine ⟨fun id => ?_⟩
  by_cases hid : id < t.size
  · exact h.induction (fun id _ ih => Acc.intro id ih) id ((hmem id).mpr hid)
  · exact Acc.intro id (fun sup hedge => absurd hedge.lt_size hid)

/-- No type is above itself when all types can be listed so. -/
theorem SupersFirst.acyclic {order : List ClassId} (h : t.SupersFirst order)
    (hmem : ∀ id, id ∈ order ↔ id < t.size) (id : ClassId) :
    ¬ Relation.TransGen t.Extends id id := by
  intro hcycle
  have hswap := hcycle.swap
  exact (h.wellFounded hmem).transGen.asymmetric _ _ hswap hswap

/-! ## §2 The steps of the walk -/

section Steps

variable {id : ClassId} {tasks tasks' : List VisitTask} {left left' : List ClassId}
  {v : Violation}

/-- The supertypes of a type that have not been left. -/
def pendingSupertypes (t : TypeTable) (id : ClassId) (left : List ClassId) : List ClassId :=
  (t.classAt id).directSupertypes.filter (fun sup => !left.contains sup)

theorem mem_pendingSupertypes {sup : ClassId} :
    sup ∈ t.pendingSupertypes id left ↔ t.Extends id sup ∧ sup ∉ left := by
  simp [pendingSupertypes, Extends]

/-- What the walk does with the task on top of the stack: from the pending tasks and the types
left so far it goes on to others. -/
inductive Steps (t : TypeTable) :
    List VisitTask → List ClassId → List VisitTask → List ClassId → Prop
  | leave {id : ClassId} {tasks : List VisitTask} {left : List ClassId} :
    Steps t (.leave id :: tasks) left tasks (left ++ [id])
  | skip {id : ClassId} {tasks : List VisitTask} {left : List ClassId} (hid : id ∈ left) :
    Steps t (.enter id :: tasks) left tasks left
  | «open» {id : ClassId} {tasks : List VisitTask} {left : List ClassId} (hid : id ∉ left)
      (hclosed : .leave id ∉ tasks)
      (hsups : ∀ sup, t.Extends id sup → .leave sup ∉ VisitTask.leave id :: tasks) :
    Steps t (.enter id :: tasks) left
      ((t.pendingSupertypes id left).reverse.map .enter ++ .leave id :: tasks) left

/-- When the walk fails: the type to be entered is open, or one of its supertypes is. -/
inductive Fails (t : TypeTable) : List VisitTask → List ClassId → Violation → Prop
  | entered {id : ClassId} {tasks : List VisitTask} {left : List ClassId} (hid : id ∉ left)
      (hopen : .leave id ∈ tasks) :
    Fails t (.enter id :: tasks) left (t.cycleAt id id)
  | supertype {id sup : ClassId} {tasks : List VisitTask} {left : List ClassId} (hid : id ∉ left)
      (hedge : t.Extends id sup) (hopen : .leave sup ∈ VisitTask.leave id :: tasks) :
    Fails t (.enter id :: tasks) left (t.cycleAt sup id)

/-- The walk is over when no task is left; otherwise it fails or makes a step. -/
theorem visit_succ (t : TypeTable) (fuel : Nat) (tasks : List VisitTask) (left : List ClassId) :
    (tasks = [] ∧ t.visit (fuel + 1) tasks left = .ok left) ∨
    (∃ v, t.Fails tasks left v ∧ t.visit (fuel + 1) tasks left = .error v) ∨
    ∃ tasks' left', t.Steps tasks left tasks' left' ∧
      t.visit (fuel + 1) tasks left = t.visit fuel tasks' left' := by
  match tasks with
  | [] => exact .inl ⟨rfl, rfl⟩
  | .leave id :: tasks => exact .inr (.inr ⟨_, _, .leave, rfl⟩)
  | .enter id :: tasks =>
    right
    simp only [visit, List.contains_iff_mem]
    split
    · rename_i hid
      exact .inr ⟨_, _, .skip hid, rfl⟩
    rename_i hid
    split
    · rename_i hopen
      exact .inl ⟨_, .entered hid hopen, rfl⟩
    rename_i hclosed
    split
    · rename_i sup hfound
      have hopen := List.find?_some hfound
      exact .inl ⟨_, .supertype hid (List.mem_of_find?_eq_some hfound)
        (List.contains_iff_mem.mp hopen), rfl⟩
    · rename_i hnone
      refine .inr ⟨_, _, .open hid hclosed (fun sup hsup hopen => ?_), rfl⟩
      exact List.find?_eq_none.mp hnone sup hsup (List.contains_iff_mem.mpr hopen)

/-- The pending tasks and the types left so far that the walk over all types passes through. -/
inductive Reached (t : TypeTable) : List VisitTask → List ClassId → Prop
  | start : Reached t (t.ids.map .enter) []
  | step {tasks tasks' : List VisitTask} {left left' : List ClassId} (h : Reached t tasks left)
      (hstep : t.Steps tasks left tasks' left') : Reached t tasks' left'

/-- A walk that fails does so at tasks that it has reached. -/
theorem Reached.exists_fails (h : t.Reached tasks left) {fuel : Nat}
    (hrun : t.visit fuel tasks left = .error v) :
    ∃ tasks' left', t.Reached tasks' left' ∧ t.Fails tasks' left' v := by
  induction fuel generalizing tasks left with
  | zero => cases hrun
  | succ fuel ih =>
    rcases t.visit_succ fuel tasks left with
      ⟨-, hover⟩ | ⟨v', hfails, herror⟩ | ⟨tasks', left', hstep, hnext⟩
    · rw [hover] at hrun
      cases hrun
    · rw [herror] at hrun
      cases hrun
      exact ⟨tasks, left, h, hfails⟩
    · exact ih (h.step hstep) (hnext ▸ hrun)

end Steps

/-! ## §3 What has been left and what is pending -/

/-- The types left so far and the tasks that are pending account for all
types of the table. -/
structure Visiting (t : TypeTable) (tasks : List VisitTask) (left : List ClassId) : Prop where
  nodup : left.Nodup
  supersFirst : t.SupersFirst left
  lt_size_iff : ∀ id, id < t.size ↔ id ∈ left ∨ .enter id ∈ tasks ∨ .leave id ∈ tasks
  /-- An open type is open once and its supertypes are left before it. -/
  opened : ∀ before id after, tasks = before ++ .leave id :: after →
    id ∉ left ∧ .leave id ∉ after ∧
    ∀ sup, t.Extends id sup → sup ∈ left ∨ .enter sup ∈ before ∨ .leave sup ∈ before

namespace Visiting

variable {id : ClassId} {tasks : List VisitTask} {left : List ClassId}

theorem start (t : TypeTable) : t.Visiting (t.ids.map .enter) [] where
  nodup := List.nodup_nil
  supersFirst := t.supersFirst_nil
  lt_size_iff := by simp [ids]
  opened := by
    intro before id after h
    have hmem : VisitTask.leave id ∈ t.ids.map VisitTask.enter := by
      rw [h]
      simp
    simp at hmem

theorem leave (h : t.Visiting (.leave id :: tasks) left) : t.Visiting tasks (left ++ [id]) := by
  obtain ⟨hnew, honce, hsups⟩ := h.opened [] id tasks rfl
  constructor
  · refine List.nodup_append.mpr ⟨h.nodup, List.nodup_singleton id, ?_⟩
    rintro x hx y hy rfl
    exact hnew (List.mem_singleton.mp hy ▸ hx)
  · exact h.supersFirst.append_singleton (fun sup hsup => by simpa using hsups sup hsup)
  · intro x
    rw [h.lt_size_iff]
    simp only [List.mem_cons, List.mem_append, reduceCtorEq, false_or, VisitTask.leave.injEq,
      List.not_mem_nil, or_false]
    tauto
  · intro before x after heq
    obtain ⟨hx, hxonce, hxsups⟩ := h.opened (.leave id :: before) x after (by rw [heq]; rfl)
    refine ⟨?_, hxonce, fun sup hsup => ?_⟩
    · intro hmem
      rcases List.mem_append.mp hmem with hmem | hmem
      · exact hx hmem
      · obtain rfl := List.mem_singleton.mp hmem
        exact honce (by rw [heq]; simp)
    · rcases hxsups sup hsup with hs | hs | hs
      · exact Or.inl (List.mem_append_left _ hs)
      · exact Or.inr (Or.inl (by simpa using hs))
      · rcases List.mem_cons.mp hs with hs | hs
        · obtain rfl := VisitTask.leave.inj hs
          exact Or.inl (by simp)
        · exact Or.inr (Or.inr hs)

theorem skip (h : t.Visiting (.enter id :: tasks) left) (hid : id ∈ left) :
    t.Visiting tasks left := by
  constructor
  · exact h.nodup
  · exact h.supersFirst
  · intro x
    rw [h.lt_size_iff]
    simp only [List.mem_cons, VisitTask.enter.injEq, reduceCtorEq, false_or]
    constructor
    · rintro (hx | (rfl | hx) | hx)
      · exact Or.inl hx
      · exact Or.inl hid
      · exact Or.inr (Or.inl hx)
      · exact Or.inr (Or.inr hx)
    · tauto
  · intro before x after heq
    obtain ⟨hx, hxonce, hxsups⟩ := h.opened (.enter id :: before) x after (by rw [heq]; rfl)
    refine ⟨hx, hxonce, fun sup hsup => ?_⟩
    rcases hxsups sup hsup with hs | hs | hs
    · exact Or.inl hs
    · rcases List.mem_cons.mp hs with hs | hs
      · obtain rfl := VisitTask.enter.inj hs
        exact Or.inl hid
      · exact Or.inr (Or.inl hs)
    · exact Or.inr (Or.inr (by simpa using hs))

/-- Below tasks that enter types, the topmost task that leaves a type is the
given one. -/
theorem split_enters {pending : List ClassId} {x : ClassId} {before after : List VisitTask}
    (h : pending.map VisitTask.enter ++ .leave id :: tasks = before ++ .leave x :: after) :
    (before = pending.map .enter ∧ x = id ∧ after = tasks) ∨
    ∃ rest, before = pending.map .enter ++ .leave id :: rest ∧
      tasks = rest ++ .leave x :: after := by
  induction pending generalizing before with
  | nil =>
    cases before with
    | nil =>
      obtain ⟨hx, rfl⟩ := List.cons.inj h
      exact Or.inl ⟨rfl, (VisitTask.leave.inj hx).symm, rfl⟩
    | cons task before =>
      obtain ⟨rfl, htasks⟩ := List.cons.inj h
      exact Or.inr ⟨before, rfl, htasks⟩
  | cons sup pending ih =>
    cases before with
    | nil => cases (List.cons.inj h).1
    | cons task before =>
      obtain ⟨rfl, hrest⟩ := List.cons.inj h
      rcases ih hrest with ⟨rfl, hx, hafter⟩ | ⟨rest, rfl, htasks⟩
      · exact Or.inl ⟨rfl, hx, hafter⟩
      · exact Or.inr ⟨rest, rfl, htasks⟩

/-- The tasks that open a type: its supertypes that have not been left, and
then the type itself. -/
theorem «open» (hsups : ∀ {sub sup}, t.Extends sub sup → sup < t.size)
    (h : t.Visiting (.enter id :: tasks) left) (hid : id ∉ left) (hclosed : .leave id ∉ tasks)
    {pending : List ClassId}
    (hpending : ∀ sup, sup ∈ pending ↔ t.Extends id sup ∧ sup ∉ left) :
    t.Visiting (pending.map .enter ++ .leave id :: tasks) left := by
  constructor
  · exact h.nodup
  · exact h.supersFirst
  · intro x
    rw [h.lt_size_iff]
    simp only [List.mem_cons, List.mem_append, List.mem_map, VisitTask.enter.injEq,
      VisitTask.leave.injEq, reduceCtorEq, false_or, exists_eq_right, and_false, exists_false]
    constructor
    · tauto
    · rintro (hx | (hx | hx) | rfl | hx)
      · exact Or.inl hx
      · have hlt := hsups ((hpending x).mp hx).1
        rw [h.lt_size_iff] at hlt
        simpa using hlt
      · exact Or.inr (Or.inl (Or.inr hx))
      · exact Or.inr (Or.inl (Or.inl rfl))
      · exact Or.inr (Or.inr hx)
  · intro before x after heq
    rcases split_enters heq with ⟨rfl, rfl, rfl⟩ | ⟨rest, rfl, htasks⟩
    · refine ⟨hid, hclosed, fun sup hsup => ?_⟩
      by_cases hleft : sup ∈ left
      · exact Or.inl hleft
      · exact Or.inr (Or.inl (by simpa using (hpending sup).mpr ⟨hsup, hleft⟩))
    · obtain ⟨hx, hxonce, hxsups⟩ := h.opened (.enter id :: rest) x after (by rw [htasks]; rfl)
      refine ⟨hx, hxonce, fun sup hsup => ?_⟩
      rcases hxsups sup hsup with hs | hs | hs
      · exact Or.inl hs
      · rcases List.mem_cons.mp hs with hs | hs
        · obtain rfl := VisitTask.enter.inj hs
          exact Or.inr (Or.inr (by simp))
        · exact Or.inr (Or.inl (by simp [hs]))
      · have hs : .leave sup ∈ rest := by simpa using hs
        exact Or.inr (Or.inr (by simp [hs]))

end Visiting

theorem Reached.visiting (hsups : ∀ {sub sup}, t.Extends sub sup → sup < t.size)
    {tasks : List VisitTask} {left : List ClassId} (h : t.Reached tasks left) :
    t.Visiting tasks left := by
  induction h with
  | start => exact Visiting.start t
  | step _ hstep ih =>
    cases hstep with
    | leave => exact ih.leave
    | skip hid => exact ih.skip hid
    | «open» hid hclosed _ => exact ih.open hsups hid hclosed (by simp [mem_pendingSupertypes])

/-! ## §4 What waits above an open type -/

/-- What waits on the stack above an open type stands above the type in the table. -/
def Stacked (t : TypeTable) (tasks : List VisitTask) : Prop :=
  tasks.Pairwise (fun above below => ∀ sub, below = .leave sub →
    ∀ sup, above = .enter sup ∨ above = .leave sup → Relation.TransGen t.Extends sub sup)

theorem Stacked.extends {id sub : ClassId} {tasks : List VisitTask}
    (h : t.Stacked (.enter id :: tasks)) (hopen : .leave sub ∈ tasks) :
    Relation.TransGen t.Extends sub id :=
  (List.pairwise_cons.mp h).1 _ hopen sub rfl id (.inl rfl)

/-- No type that is open waits to be entered again. -/
def OpensOnce (tasks : List VisitTask) : Prop :=
  tasks.Pairwise (fun above below => ∀ id, above = .enter id → below ≠ .leave id)

/-- The supertypes that wait above a type when it is opened. -/
theorem mem_enters_iff {id : ClassId} {left : List ClassId} {task : VisitTask} :
    task ∈ (t.pendingSupertypes id left).reverse.map VisitTask.enter ↔
      ∃ sup, t.Extends id sup ∧ sup ∉ left ∧ task = .enter sup := by
  simp only [List.mem_map, List.mem_reverse, mem_pendingSupertypes, eq_comm, and_assoc]

theorem Stacked.open {id : ClassId} {tasks : List VisitTask} (h : t.Stacked (.enter id :: tasks))
    (left : List ClassId) :
    t.Stacked ((t.pendingSupertypes id left).reverse.map .enter ++ .leave id :: tasks) := by
  have htasks := (List.pairwise_cons.mp h).2
  refine List.pairwise_append.mpr ⟨?_, List.pairwise_cons.mpr ⟨?_, htasks⟩, ?_⟩
  · exact List.pairwise_map.mpr (List.pairwise_of_forall (fun _ _ _ heq => by cases heq))
  · rintro task htask sub rfl sup (heq | heq)
    · cases heq
    · obtain rfl := VisitTask.leave.inj heq
      exact h.extends htask
  · rintro task htask below hbelow sub rfl sup hsup
    obtain ⟨next, hedge, -, rfl⟩ := mem_enters_iff.mp htask
    rcases hsup with heq | heq
    · obtain rfl := VisitTask.enter.inj heq
      rcases List.mem_cons.mp hbelow with heq | hopen
      · obtain rfl := VisitTask.leave.inj heq
        exact .single hedge
      · exact (h.extends hopen).tail hedge
    · cases heq

theorem OpensOnce.open {id : ClassId} {tasks : List VisitTask} {left : List ClassId}
    (h : OpensOnce (.enter id :: tasks))
    (hsups : ∀ sup, t.Extends id sup → .leave sup ∉ VisitTask.leave id :: tasks) :
    OpensOnce ((t.pendingSupertypes id left).reverse.map .enter ++ .leave id :: tasks) := by
  have htasks := (List.pairwise_cons.mp h).2
  refine List.pairwise_append.mpr ⟨?_, List.pairwise_cons.mpr ⟨?_, htasks⟩, ?_⟩
  · exact List.pairwise_map.mpr (List.pairwise_of_forall (fun _ _ _ _ heq => by cases heq))
  · intro task _ other heq
    cases heq
  · rintro task htask below hbelow sup heq rfl
    obtain ⟨next, hedge, -, rfl⟩ := mem_enters_iff.mp htask
    obtain rfl := VisitTask.enter.inj heq
    exact hsups next hedge hbelow

theorem Reached.stacked {tasks : List VisitTask} {left : List ClassId} (h : t.Reached tasks left) :
    t.Stacked tasks := by
  induction h with
  | start =>
    exact List.pairwise_map.mpr (List.pairwise_of_forall (fun _ _ _ heq => by cases heq))
  | step _ hstep ih =>
    cases hstep with
    | leave | skip => exact (List.pairwise_cons.mp ih).2
    | «open» => exact ih.open _

theorem Reached.opensOnce {tasks : List VisitTask} {left : List ClassId}
    (h : t.Reached tasks left) : OpensOnce tasks := by
  induction h with
  | start =>
    exact List.pairwise_map.mpr (List.pairwise_of_forall (fun _ _ _ _ heq => by cases heq))
  | step _ hstep ih =>
    cases hstep with
    | leave | skip => exact (List.pairwise_cons.mp ih).2
    | «open» _ _ hsups => exact ih.open hsups

/-- A type that the walk comes to enter is not open. -/
theorem Reached.notMem_of_enter {id : ClassId} {tasks : List VisitTask} {left : List ClassId}
    (h : t.Reached (.enter id :: tasks) left) : .leave id ∉ tasks :=
  fun hopen => (List.pairwise_cons.mp h.opensOnce).1 _ hopen id rfl rfl

/-- Where the walk fails a type names an open one as its supertype, and that one is above
itself. -/
theorem Reached.exists_cycle {tasks : List VisitTask} {left : List ClassId} {v : Violation}
    (h : t.Reached tasks left) (hfails : t.Fails tasks left v) :
    ∃ sup id, v = t.cycleAt sup id ∧ t.Extends id sup ∧ Relation.TransGen t.Extends sup sup := by
  cases hfails with
  | entered _ hopen => exact absurd hopen h.notMem_of_enter
  | supertype _ hedge hopen =>
    refine ⟨_, _, rfl, hedge, ?_⟩
    rcases List.mem_cons.mp hopen with heq | hopen
    · obtain rfl := VisitTask.leave.inj heq
      exact .single hedge
    · exact (h.stacked.extends hopen).tail hedge

/-! ## §5 The walk ends -/

/-- The tasks that the types outside `seen` can still give rise to. -/
def openWork (t : TypeTable) (seen : Finset ClassId) : Nat :=
  ∑ id ∈ Finset.range t.size \ seen, ((t.classAt id).directSupertypes.length + 1)

theorem openWork_empty (t : TypeTable) : t.openWork ∅ = t.edgeCount + t.size := by
  unfold openWork
  rw [Finset.sdiff_empty, Finset.sum_add_distrib, Finset.sum_const, Finset.card_range,
    Nat.nsmul_eq_mul, Nat.mul_one, ← openEdges_nil, openEdges, List.toFinset_nil,
    Finset.sdiff_empty]

theorem openWork_insert (t : TypeTable) {seen : Finset ClassId} {id : ClassId} (hid : id < t.size)
    (hnew : id ∉ seen) : t.openWork (insert id seen) +
      ((t.classAt id).directSupertypes.length + 1) = t.openWork seen := by
  unfold openWork
  rw [Finset.sdiff_insert]
  apply Finset.sum_erase_add
  simp [hid, hnew]

/-- A walk with enough fuel that does not fail ends with an empty stack. -/
theorem Reached.visit_eq_ok (hsups : ∀ {sub sup}, t.Extends sub sup → sup < t.size)
    {tasks : List VisitTask} {left order : List ClassId} (h : t.Reached tasks left) {fuel : Nat}
    (seen : Finset ClassId) (hseen : ∀ id, id ∈ seen ↔ id ∈ left ∨ .leave id ∈ tasks)
    (hfuel : tasks.length + t.openWork seen ≤ fuel) (hrun : t.visit fuel tasks left = .ok order) :
    t.Reached [] order := by
  induction fuel generalizing tasks left seen with
  | zero =>
    obtain rfl : tasks = [] := List.length_eq_zero_iff.mp (by omega)
    cases hrun
    exact h
  | succ fuel ih =>
    rcases t.visit_succ fuel tasks left with
      ⟨rfl, hover⟩ | ⟨v, -, herror⟩ | ⟨tasks', left', hstep, hnext⟩
    · rw [hover] at hrun
      cases hrun
      exact h
    · rw [herror] at hrun
      cases hrun
    rw [hnext] at hrun
    have hreached := h.step hstep
    cases hstep with
    | leave =>
      refine ih hreached seen (fun x => ?_) (by rw [List.length_cons] at hfuel; omega) hrun
      rw [hseen]
      simp only [List.mem_cons, List.mem_append, VisitTask.leave.injEq, List.not_mem_nil, or_false]
      tauto
    | skip =>
      refine ih hreached seen (fun x => ?_) (by rw [List.length_cons] at hfuel; omega) hrun
      rw [hseen]
      simp
    | @«open» id tasks _ hid hclosed _ =>
      have hlt : id < t.size :=
        ((h.visiting hsups).lt_size_iff id).mpr (.inr (.inl (List.mem_cons_self ..)))
      have hnew : id ∉ seen := by
        rw [hseen]
        simp [hid, hclosed]
      have hwork := t.openWork_insert hlt hnew
      refine ih hreached (insert id seen) (fun x => ?_) ?_ hrun
      · rw [Finset.mem_insert, hseen]
        simp only [List.mem_cons, List.mem_append, List.mem_map, VisitTask.leave.injEq,
          reduceCtorEq, false_or, and_false, exists_false]
        tauto
      · have hpending : (t.pendingSupertypes id left).length ≤
            (t.classAt id).directSupertypes.length := List.length_filter_le _ _
        simp only [List.length_append, List.length_map, List.length_reverse,
          List.length_cons] at hfuel ⊢
        omega

/-! ## §6 The order -/

/-- The dependency order lists every type once, behind its supertypes. -/
theorem dependencyOrder_spec (hsups : ∀ {sub sup}, t.Extends sub sup → sup < t.size)
    {order : List ClassId} (h : t.dependencyOrder = .ok order) :
    order.Nodup ∧ (∀ id, id ∈ order ↔ id < t.size) ∧ t.SupersFirst order := by
  have hfuel : (t.ids.map VisitTask.enter).length + t.openWork ∅ ≤
      2 * t.size + t.edgeCount + 1 := by
    rw [openWork_empty, List.length_map, ids, List.length_range]
    omega
  have hvisit := (Reached.start.visit_eq_ok hsups ∅ (by simp) hfuel h).visiting hsups
  refine ⟨hvisit.nodup, fun id => ?_, hvisit.supersFirst⟩
  rw [hvisit.lt_size_iff]
  simp

/-- The order fails at a type that names a supertype that is above itself. -/
theorem dependencyOrder_eq_error {v : Violation} (h : t.dependencyOrder = .error v) :
    ∃ sup id, v = t.cycleAt sup id ∧ t.Extends id sup ∧ Relation.TransGen t.Extends sup sup := by
  obtain ⟨tasks, left, hreached, hfails⟩ := Reached.start.exists_fails h
  exact hreached.exists_cycle hfails

/-- Types can be listed with the supertypes first when no type is above itself. -/
theorem exists_dependencyOrder (hacyclic : ∀ id, ¬ Relation.TransGen t.Extends id id) :
    ∃ order, t.dependencyOrder = .ok order := by
  cases horder : t.dependencyOrder with
  | ok order => exact ⟨order, rfl⟩
  | error v =>
    obtain ⟨sup, -, -, -, hcycle⟩ := dependencyOrder_eq_error horder
    exact absurd hcycle (hacyclic sup)

end JoosStatics.TypeTable
