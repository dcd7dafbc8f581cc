/-
JoosStatics.Proofs.StatefulRuns — computations that may fail.

Rules only fail; lookups and body checks also read and change a state, which
outlives a failure. §1 takes a run that succeeds apart at a `bind`. §2 is partial
correctness with respect to an invariant of the state: `Ensures I x P`
says that a successful run of `x` from a state with `I` ends in a state with
`I` and returns a value with `P`; `Keeps I x` leaves the value out, and
`Upholds I E x` is about failing runs as well. §3 is about runs that bring
something about: `Reaches x Q` relates the returned value to the last state.
§4 compares two runs: `Simulates I E R x y` says that runs of `x` and `y` from
states related by `I` end in such states again, and with results that are
`Alike`.
-/
import Mathlib.Data.List.Forall2

namespace JoosStatics

variable {ε σ α β : Type}

/-! ## §1 Runs that succeed -/

/-- A sequence of two rules succeeds when both do. -/
theorem bind_eq_ok {x : Except ε α} {f : α → Except ε β} {b : β} :
    (x >>= f) = .ok b ↔ ∃ a, x = .ok a ∧ f a = .ok b := by
  cases x with
  | error e =>
    constructor
    · intro h
      cases h
    · rintro ⟨a, h, -⟩
      cases h
  | ok a =>
    constructor
    · intro h
      exact ⟨a, rfl, h⟩
    · rintro ⟨a', h, hf⟩
      cases h
      exact hf

/-- A sequence runs its second part when the first one succeeds. -/
theorem run_bind (x : ExceptT ε (StateM σ) α) (f : α → ExceptT ε (StateM σ) β) (st : σ) :
    (x >>= f) st = match x st with
      | (.ok a, st₁) => f a st₁
      | (.error e, st₁) => (.error e, st₁) := by
  show ExceptT.bindCont f (x st).1 (x st).2 = _
  rcases x st with ⟨_ | _, _⟩ <;> rfl

/-- A sequence succeeds when its two parts do, one after the other. -/
theorem run_bind_eq_ok {x : ExceptT ε (StateM σ) α} {f : α → ExceptT ε (StateM σ) β} {st st' : σ}
    {b : β} :
    (x >>= f) st = (.ok b, st') ↔ ∃ a st₁, x st = (.ok a, st₁) ∧ f a st₁ = (.ok b, st') := by
  rw [run_bind]
  rcases x st with ⟨e | a, st₁⟩
  · constructor
    · intro h
      cases h
    · rintro ⟨a, st₁, h, -⟩
      cases h
  · constructor
    · intro h
      exact ⟨a, st₁, rfl, h⟩
    · rintro ⟨a, st₁, h, hf⟩
      cases h
      exact hf

theorem forM_append (f : α → ExceptT ε (StateM σ) PUnit) (xs ys : List α) :
    (xs ++ ys).forM f = xs.forM f >>= fun _ => ys.forM f := List.forM_append

/-! ## §2 Partial correctness -/

/-- A successful run from a state with `I` ends in a state with `I` and
returns a value with `P`. -/
def Ensures (I : σ → Prop) (x : ExceptT ε (StateM σ) α) (P : α → Prop) : Prop :=
  ∀ st a st', I st → x st = (.ok a, st') → I st' ∧ P a

namespace Ensures

variable {I : σ → Prop} {P : α → Prop} {Q : β → Prop} {x : ExceptT ε (StateM σ) α}

theorem pure {a : α} (h : P a) : Ensures I (Pure.pure a : ExceptT ε (StateM σ) α) P := by
  intro st a' st' hI hrun
  cases hrun
  exact ⟨hI, h⟩

theorem throw {e : ε} : Ensures I (MonadExcept.throw e : ExceptT ε (StateM σ) α) P := by
  intro st a st' hI hrun
  cases hrun

theorem bind {f : α → ExceptT ε (StateM σ) β} (hx : Ensures I x P)
    (hf : ∀ a, P a → Ensures I (f a) Q) : Ensures I (x >>= f) Q := by
  intro st b st' hI hrun
  obtain ⟨a, st₁, hxrun, hfrun⟩ := run_bind_eq_ok.mp hrun
  obtain ⟨hI₁, hP⟩ := hx st a st₁ hI hxrun
  exact hf a hP st₁ b st' hI₁ hfrun

theorem mono {P' : α → Prop} (hx : Ensures I x P) (h : ∀ a, P a → P' a) : Ensures I x P' := by
  intro st a st' hI hrun
  obtain ⟨hI', hP⟩ := hx st a st' hI hrun
  exact ⟨hI', h a hP⟩

/-- What holds of each result holds of the list of results, position by
position. -/
theorem mapM {R : α → β → Prop} {f : α → ExceptT ε (StateM σ) β} {xs : List α}
    (hf : ∀ a ∈ xs, Ensures I (f a) (R a)) : Ensures I (xs.mapM f) (List.Forall₂ R xs) := by
  induction xs with
  | nil =>
    rw [List.mapM_nil]
    exact Ensures.pure .nil
  | cons x xs ih =>
    rw [List.mapM_cons]
    refine Ensures.bind (hf x (List.mem_cons_self ..)) (fun b hb => ?_)
    refine Ensures.bind (ih (fun a ha => hf a (List.mem_cons_of_mem _ ha))) (fun bs hbs => ?_)
    exact Ensures.pure (.cons hb hbs)

/-- When every result has a property, all results have it. -/
theorem mapM_all {f : α → ExceptT ε (StateM σ) β} {xs : List α}
    (hf : ∀ a ∈ xs, Ensures I (f a) Q) : Ensures I (xs.mapM f) (fun bs => ∀ b ∈ bs, Q b) := by
  refine Ensures.mono (Ensures.mapM (R := fun _ => Q) hf) (fun bs hbs => ?_)
  clear hf
  induction hbs with
  | nil => simp
  | cons hb _ ih =>
    intro b hmem
    rcases List.mem_cons.mp hmem with rfl | hmem
    · exact hb
    · exact ih b hmem

theorem forM {f : α → ExceptT ε (StateM σ) PUnit} {xs : List α}
    (hf : ∀ a ∈ xs, Ensures I (f a) (fun _ => True)) :
    Ensures I (xs.forM f) (fun _ => True) := by
  induction xs with
  | nil => exact Ensures.pure trivial
  | cons x xs ih =>
    show Ensures I (f x >>= fun _ => xs.forM f) _
    refine Ensures.bind (hf x (List.mem_cons_self ..)) (fun _ _ => ?_)
    exact ih (fun a ha => hf a (List.mem_cons_of_mem _ ha))

/-- Nothing is asked of a run. -/
theorem any (x : ExceptT ε (StateM σ) α) : Ensures (fun _ => True) x (fun _ => True) :=
  fun _ _ _ _ _ => ⟨trivial, trivial⟩

/-- There are as many results as there are items. -/
theorem mapM_length (f : α → ExceptT ε (StateM σ) β) (xs : List α) :
    Ensures (fun _ => True) (xs.mapM f) (fun ys => ys.length = xs.length) :=
  Ensures.mono (Ensures.mapM (fun a _ => Ensures.any (f a))) (fun _ h => h.length_eq.symm)

end Ensures

/-- A successful run keeps the invariant, whatever it returns. -/
abbrev Keeps (I : σ → Prop) (x : ExceptT ε (StateM σ) α) : Prop := Ensures I x (fun _ => True)

namespace Keeps

variable {I : σ → Prop} {x : ExceptT ε (StateM σ) α}

theorem pure {a : α} : Keeps I (Pure.pure a : ExceptT ε (StateM σ) α) := Ensures.pure trivial

theorem bind {f : α → ExceptT ε (StateM σ) β} (hx : Keeps I x) (hf : ∀ a, Keeps I (f a)) :
    Keeps I (x >>= f) := Ensures.bind hx (fun a _ => hf a)

end Keeps

/-- Every run from a state with `I` ends in a state with `I`, whether it succeeds
or not, and fails with an error with `E` only. -/
def Upholds (I : σ → Prop) (E : ε → Prop) (x : ExceptT ε (StateM σ) α) : Prop :=
  ∀ st, I st → I (x st).2 ∧ ∀ e, (x st).1 = .error e → E e

namespace Upholds

variable {I : σ → Prop} {E : ε → Prop}

/-- Of runs that all succeed only the invariant is asked. -/
theorem of_ok {x : ExceptT ε (StateM σ) α}
    (h : ∀ st, I st → ∃ a, (x st).1 = .ok a ∧ I (x st).2) : Upholds I E x := by
  intro st hI
  obtain ⟨a, hok, hI'⟩ := h st hI
  refine ⟨hI', fun e he => ?_⟩
  rw [hok] at he
  cases he

theorem pure (a : α) : Upholds I E (Pure.pure a : ExceptT ε (StateM σ) α) :=
  .of_ok (fun _ hI => ⟨a, rfl, hI⟩)

theorem bind {x : ExceptT ε (StateM σ) α} {f : α → ExceptT ε (StateM σ) β} (hx : Upholds I E x)
    (hf : ∀ a, Upholds I E (f a)) : Upholds I E (x >>= f) := by
  intro st hI
  obtain ⟨hI₁, hE⟩ := hx st hI
  rw [run_bind]
  revert hI₁ hE
  rcases x st with ⟨e | a, st₁⟩
  · intro hI₁ hE
    refine ⟨hI₁, fun e' heq => ?_⟩
    cases heq
    exact hE e rfl
  · exact fun hI₁ _ => hf a st₁ hI₁

end Upholds

/-! ## §3 What a run brings about -/

/-- A successful run returns a value and ends in a state that are related. -/
def Reaches (x : ExceptT ε (StateM σ) α) (Q : α → σ → Prop) : Prop :=
  ∀ st a st', x st = (.ok a, st') → Q a st'

namespace Reaches

variable {P : σ → Prop} {Q : β → σ → Prop} {x : ExceptT ε (StateM σ) α}
  {f : α → ExceptT ε (StateM σ) β}

/-- The second part brings it about. -/
theorem bind_right (hf : ∀ a, Reaches (f a) Q) : Reaches (x >>= f) Q := by
  intro st b st' hrun
  obtain ⟨a, st₁, -, hfrun⟩ := run_bind_eq_ok.mp hrun
  exact hf a st₁ b st' hfrun

/-- The first part brings it about, and the second one does not undo it. -/
theorem bind_left (hx : Reaches x (fun _ => P)) (hf : ∀ a, Ensures P (f a) (fun _ => True)) :
    Reaches (x >>= f) (fun _ => P) := by
  intro st b st' hrun
  obtain ⟨a, st₁, hxrun, hfrun⟩ := run_bind_eq_ok.mp hrun
  exact (hf a st₁ b st' (hx st a st₁ hxrun) hfrun).1

end Reaches

/-! ## §4 Two runs side by side -/

section Pairs

variable {ε' σ' α' β' : Type} {E : ε → ε' → Prop} {R : α → α' → Prop} {S : β → β' → Prop}

/-- Two results are both failures with related errors, or both successes with
related values. -/
inductive Alike (E : ε → ε' → Prop) (R : α → α' → Prop) : Except ε α → Except ε' α' → Prop where
  | error {e : ε} {e' : ε'} (h : E e e') : Alike E R (.error e) (.error e')
  | ok {a : α} {a' : α'} (h : R a a') : Alike E R (.ok a) (.ok a')

namespace Alike

theorem refl (x : Except ε α) : Alike Eq Eq x x := by
  cases x with
  | error e => exact .error rfl
  | ok a => exact .ok rfl

theorem mono {E' : ε → ε' → Prop} {R' : α → α' → Prop} {x : Except ε α} {y : Except ε' α'}
    (h : Alike E R x y) (hE : ∀ e e', E e e' → E' e e') (hR : ∀ a a', R a a' → R' a a') :
    Alike E' R' x y := by
  cases h with
  | error h => exact .error (hE _ _ h)
  | ok h => exact .ok (hR _ _ h)

theorem bind {x : Except ε α} {y : Except ε' α'} {f : α → Except ε β} {g : α' → Except ε' β'}
    (hxy : Alike E R x y) (hfg : ∀ a a', R a a' → Alike E S (f a) (g a')) :
    Alike E S (x >>= f) (y >>= g) := by
  cases hxy with
  | error h => exact .error h
  | ok h => exact hfg _ _ h

theorem map {x : Except ε α} {y : Except ε' α'} {f : α → β} {g : α' → β'} (hxy : Alike E R x y)
    (hfg : ∀ a a', R a a' → S (f a) (g a')) : Alike E S (x.map f) (y.map g) := by
  cases hxy with
  | error h => exact .error h
  | ok h => exact .ok (hfg _ _ h)

theorem outcomes {x : Except ε α} {y : Except ε' α'} (h : Alike E R x y) :
    (∃ e e', x = .error e ∧ y = .error e' ∧ E e e') ∨ ∃ a a', x = .ok a ∧ y = .ok a' ∧ R a a' := by
  cases h with
  | error h => exact .inl ⟨_, _, rfl, rfl, h⟩
  | ok h => exact .inr ⟨_, _, rfl, rfl, h⟩

/-- Results of which one is a success when the other is. -/
theorem of_iff {x : Except ε α} {y : Except ε' α'} (h : (∃ a, x = .ok a) ↔ ∃ a', y = .ok a') :
    Alike (fun _ _ => True) (fun a a' => x = .ok a ∧ y = .ok a') x y := by
  cases x with
  | error e =>
    cases y with
    | error e' => exact .error trivial
    | ok a' =>
      obtain ⟨a, ha⟩ := h.mpr ⟨a', rfl⟩
      cases ha
  | ok a =>
    obtain ⟨a', rfl⟩ := h.mp ⟨a, rfl⟩
    exact .ok ⟨rfl, rfl⟩

end Alike

/-- Runs from related states end in related states, and with results alike. -/
def Simulates (I : σ → σ' → Prop) (E : ε → ε' → Prop) (R : α → α' → Prop)
    (x : ExceptT ε (StateM σ) α) (y : ExceptT ε' (StateM σ') α') : Prop :=
  ∀ st st', I st st' → I (x st).2 (y st').2 ∧ Alike E R (x st).1 (y st').1

namespace Simulates

variable {I : σ → σ' → Prop} {x : ExceptT ε (StateM σ) α} {y : ExceptT ε' (StateM σ') α'}

theorem pure {a : α} {a' : α'} (h : R a a') :
    Simulates I E R (Pure.pure a : ExceptT ε (StateM σ) α) (Pure.pure a') :=
  fun _ _ hI => ⟨hI, .ok h⟩

theorem throw {e : ε} {e' : ε'} (h : E e e') :
    Simulates I E R (MonadExcept.throw e : ExceptT ε (StateM σ) α) (MonadExcept.throw e') :=
  fun _ _ hI => ⟨hI, .error h⟩

theorem bind {f : α → ExceptT ε (StateM σ) β} {g : α' → ExceptT ε' (StateM σ') β'}
    (hxy : Simulates I E R x y) (hfg : ∀ a a', R a a' → Simulates I E S (f a) (g a')) :
    Simulates I E S (x >>= f) (y >>= g) := by
  intro st st' hI
  obtain ⟨hI₁, hresult⟩ := hxy st st' hI
  rw [run_bind, run_bind]
  revert hI₁ hresult
  rcases x st with ⟨r, st₁⟩
  rcases y st' with ⟨r', st₁'⟩
  intro hI₁ hresult
  cases hresult with
  | error h => exact ⟨hI₁, .error h⟩
  | ok h => exact hfg _ _ h st₁ st₁' hI₁

theorem mono {R' : α → α' → Prop} (hxy : Simulates I E R x y) (hR : ∀ a a', R a a' → R' a a') :
    Simulates I E R' x y :=
  fun st st' hI => ⟨(hxy st st' hI).1, (hxy st st' hI).2.mono (fun _ _ h => h) hR⟩

/-- Sequences of runs over corresponding items. -/
theorem mapM {γ γ' : Type} {f : γ → ExceptT ε (StateM σ) α} {g : γ' → ExceptT ε' (StateM σ') α'}
    {item : γ → γ'} {value : α → α'} {items : List γ}
    (h : ∀ c ∈ items, Simulates I E (fun a a' => a' = value a) (f c) (g (item c))) :
    Simulates I E (fun as as' => as' = as.map value) (items.mapM f) ((items.map item).mapM g) := by
  induction items with
  | nil => exact .pure rfl
  | cons c items ih =>
    obtain ⟨hfirst, hothers⟩ := List.forall_mem_cons.mp h
    rw [List.map_cons, List.mapM_cons, List.mapM_cons]
    refine .bind hfirst (fun a a' ha => .bind (ih hothers) (fun as as' has => .pure ?_))
    rw [ha, has, List.map_cons]

/-- Sequences of runs over corresponding items that return the same values. -/
theorem mapM_eq {γ γ' : Type} {f : γ → ExceptT ε (StateM σ) α} {g : γ' → ExceptT ε' (StateM σ') α}
    {item : γ → γ'} {items : List γ} (h : ∀ c ∈ items, Simulates I E Eq (f c) (g (item c))) :
    Simulates I E Eq (items.mapM f) ((items.map item).mapM g) := by
  have hsame : Simulates I E (fun as as' => as' = as.map id) (items.mapM f)
      ((items.map item).mapM g) := mapM (fun c hc => (h c hc).mono (fun _ _ heq => heq.symm))
  exact hsame.mono (fun as as' heq => by rw [heq, List.map_id])

theorem forM {γ γ' : Type} {f : γ → ExceptT ε (StateM σ) PUnit}
    {g : γ' → ExceptT ε' (StateM σ') PUnit} {item : γ → γ'} {items : List γ}
    (h : ∀ c ∈ items, Simulates I E (fun _ _ => True) (f c) (g (item c))) :
    Simulates I E (fun _ _ => True) (items.forM f) ((items.map item).forM g) := by
  induction items with
  | nil => exact .pure trivial
  | cons c items ih =>
    obtain ⟨hfirst, hothers⟩ := List.forall_mem_cons.mp h
    exact .bind hfirst (fun _ _ _ => ih hothers)

/-- Sequences of runs over the same items. -/
theorem mapM_same {γ : Type} {f : γ → ExceptT ε (StateM σ) α} {g : γ → ExceptT ε' (StateM σ') α'}
    {value : α → α'} {items : List γ}
    (h : ∀ c ∈ items, Simulates I E (fun a a' => a' = value a) (f c) (g c)) :
    Simulates I E (fun as as' => as' = as.map value) (items.mapM f) (items.mapM g) := by
  have hmap := mapM (f := f) (g := g) (fun c hc => (h c hc : Simulates I E _ (f c) (g (id c))))
  rwa [List.map_id'] at hmap

theorem forM_same {γ : Type} {f : γ → ExceptT ε (StateM σ) PUnit}
    {g : γ → ExceptT ε' (StateM σ') PUnit} {items : List γ}
    (h : ∀ c ∈ items, Simulates I E (fun _ _ => True) (f c) (g c)) :
    Simulates I E (fun _ _ => True) (items.forM f) (items.forM g) := by
  have hmap := forM (f := f) (g := g) (fun c hc => (h c hc : Simulates I E _ (f c) (g (id c))))
  rwa [List.map_id'] at hmap

end Simulates

end Pairs

end JoosStatics
