/-
JoosStatics.Proofs.Typing.Numbering — the positions of variables.

The variables of a type are recorded in one list, in the order in which its
bodies declare them. So the position of a variable is known from the text:
`EstablishesFrom s n S vars x Q` says of a check `x` that starts with `n`
variables that it adds the variables `vars`, on top of what `Establishes` says.

* `checkStmt_scopes` — a successful check of a statement records its
  declarations in order, finds their names distinct wherever they are in scope,
  and resolves names by exactly the declarations in scope.
-/
import JoosStatics.Proofs.Typing.Bodies
import JoosStatics.Proofs.Typing.Scopes
import JoosStatics.Proofs.Typing.Selection

namespace JoosStatics

/-! ## §1 Checks that add variables -/

/-- A successful run that starts with `n` variables adds given ones behind them; it records
facts at given slots only, all of them blank before, and what it finds out holds of all facts
that keep what is recorded there. -/
def EstablishesFrom {α : Type} (s : SymbolTable) (n : LocalId) (S : List Slot)
    (vars : List LocalVar) (x : CheckM α) (Q : ClassFacts → α → Prop) : Prop :=
  S.Nodup → ∀ st a st', s.Recorded st.lookups → (∀ slot ∈ S, st.facts.IsBlank slot) →
    st.facts.locals.size = n → x st = (.ok a, st') →
    s.Recorded st'.lookups ∧ st'.facts.locals.toList = st.facts.locals.toList ++ vars ∧
    (∀ slot ∉ S, st'.facts.AgreesAt st.facts slot) ∧
    ∀ facts : ClassFacts, facts.Preserve st'.facts (· ∈ S) → Q facts a

/-- A computation leaves the variables alone. -/
def LeavesLocals {α : Type} (x : CheckM α) : Prop :=
  ∀ st, (x st).2.facts.locals = st.facts.locals

namespace LeavesLocals

variable {α β : Type}

theorem bind {x : CheckM α} {f : α → CheckM β} (hx : LeavesLocals x)
    (hf : ∀ a, LeavesLocals (f a)) : LeavesLocals (x >>= f) := by
  intro st
  have hfirst := hx st
  rw [run_bind]
  revert hfirst
  rcases x st with ⟨_ | a, st₁⟩
  · exact id
  · exact fun hfirst => (hf a st₁).trans hfirst

/-- Expressions declare nothing. -/
theorem steps (ctx : BodyContext) : ExprSteps ctx (fun _ => True) (fun x => LeavesLocals x) where
  pure _ _ := rfl
  bind := bind
  rule {_ _ result _} _ hf := by
    cases result with
    | error v => exact fun _ => rfl
    | ok a => exact hf a rfl
  exprType _ _ _ := rfl
  createdType _ _ := rfl
  firstName _ _ _ := rfl
  recordType _ _ _ := rfl
  recordResolution _ _ _ := rfl

end LeavesLocals

namespace EstablishesFrom

variable {α β : Type} {s : SymbolTable} {n : LocalId} {S T : List Slot} {vars more : List LocalVar}
  {x : CheckM α} {f : α → CheckM β} {P : ClassFacts → α → Prop} {Q : ClassFacts → β → Prop}

/-- A check that declares nothing. -/
theorem of_establishes (hx : Establishes s S x P) (hlocals : LeavesLocals x) :
    EstablishesFrom s n S [] x P := by
  intro hS st a st' hst hblank _ hrun
  obtain ⟨hst', hframe, hP⟩ := hx hS st a st' hst hblank hrun
  have hsame := hlocals st
  rw [hrun] at hsame
  exact ⟨hst', by rw [hsame, List.append_nil], hframe.slots, hP⟩

theorem pure (a : α) (h : ∀ facts, P facts a) : EstablishesFrom s n [] [] (Pure.pure a) P :=
  of_establishes (.pure a h) (fun _ => rfl)

/-- What the first part finds out is still true after the second one, which starts with the
variables that the first one has added. -/
theorem bind (hx : EstablishesFrom s n S vars x P)
    (hf : ∀ a, EstablishesFrom s (n + vars.length) T more (f a)
      (fun facts b => P facts a → Q facts b)) :
    EstablishesFrom s n (S ++ T) (vars ++ more) (x >>= f) Q := by
  intro hnodup st b st' hst hblank hn hrun
  obtain ⟨hS, hT, hdisjoint⟩ := List.nodup_append.mp hnodup
  obtain ⟨a, st₁, hxrun, hfrun⟩ := run_bind_eq_ok.mp hrun
  obtain ⟨hst₁, hlocals₁, hframe₁, hP⟩ := hx hS st a st₁ hst
    (fun slot hslot => hblank slot (List.mem_append_left _ hslot)) hn hxrun
  have hblank₁ : ∀ slot ∈ T, st₁.facts.IsBlank slot := by
    intro slot hslot
    have hnew : slot ∉ S := fun hmem => hdisjoint slot hmem slot hslot rfl
    exact (hframe₁ slot hnew).isBlank_iff.mpr (hblank slot (List.mem_append_right _ hslot))
  have hn₁ : st₁.facts.locals.size = n + vars.length := by
    rw [← Array.length_toList, hlocals₁, List.length_append, Array.length_toList, hn]
  obtain ⟨hst', hlocals₂, hframe₂, hQ⟩ := hf a hT st₁ b st' hst₁ hblank₁ hn₁ hfrun
  refine ⟨hst', ?_, fun slot hslot => ?_, fun facts hfacts => ?_⟩
  · rw [hlocals₂, hlocals₁, List.append_assoc]
  · have hother := List.mem_append.not.mp hslot
    exact (hframe₂ slot (fun h => hother (.inr h))).trans
      (hframe₁ slot (fun h => hother (.inl h)))
  · have hlast : st'.facts.Preserve st₁.facts (· ∈ S) :=
      ⟨fun slot hslot => hframe₂ slot (fun hmem => hdisjoint slot hslot slot hmem rfl),
        hlocals₂ ▸ List.prefix_append ..⟩
    refine hQ facts (hfacts.mono (fun _ hslot => List.mem_append_right _ hslot)) (hP facts ?_)
    exact .trans (hfacts.mono (fun _ hslot => List.mem_append_left _ hslot)) hlast

/-- The last step only puts the result together. -/
theorem bind_pure {g : α → β} (hx : EstablishesFrom s n S vars x P)
    (h : ∀ facts a, P facts a → Q facts (g a)) :
    EstablishesFrom s n S vars (x >>= fun a => Pure.pure (g a)) Q := by
  rw [← List.append_nil S, ← List.append_nil vars]
  exact hx.bind (fun a => .pure _ (fun facts => h facts a))

theorem mono {P' : ClassFacts → α → Prop} (hx : EstablishesFrom s n S vars x P)
    (h : ∀ facts a, P facts a → P' facts a) : EstablishesFrom s n S vars x P' := by
  intro hnodup st a st' hst hblank hn hrun
  obtain ⟨hst', hlocals, hframe, hP⟩ := hx hnodup st a st' hst hblank hn hrun
  exact ⟨hst', hlocals, hframe, fun facts hfacts => h facts a (hP facts hfacts)⟩

/-- The order of the slots does not matter. -/
theorem perm (hx : EstablishesFrom s n S vars x P) (h : S.Perm T) :
    EstablishesFrom s n T vars x P := by
  intro hnodup st a st' hst hblank hn hrun
  obtain ⟨hst', hlocals, hframe, hP⟩ := hx (h.nodup_iff.mpr hnodup) st a st' hst
    (fun slot hslot => hblank slot (h.mem_iff.mp hslot)) hn hrun
  refine ⟨hst', hlocals, fun slot hslot => hframe slot (fun hmem => hslot (h.mem_iff.mp hmem)),
    fun facts hfacts => hP facts (hfacts.mono (fun _ hslot => h.mem_iff.mp hslot))⟩

/-- A rule that is broken ends the check. -/
theorem rule_fails {ctx : BodyContext} {cause : Cause} {range : Span} :
    EstablishesFrom s n S vars (CheckM.rule (ctx.broken cause range)) P := by
  intro _ st a st' _ _ _ hrun
  cases hrun

theorem lookup_bind {action : LookupM α} {P : α → Prop} (h : Ensures s.Recorded action P)
    (hf : ∀ a, P a → EstablishesFrom s n S vars (f a) Q) :
    EstablishesFrom s n S vars (CheckM.lookup action >>= f) Q := by
  intro hnodup st b st' hst hblank hn hrun
  obtain ⟨a, st₁, hlookup, hfrun⟩ := run_bind_eq_ok.mp hrun
  obtain ⟨hresult, rfl⟩ := Prod.mk.injEq .. ▸ hlookup
  obtain ⟨hst₁, hP⟩ := h st.lookups a _ hst (Prod.ext hresult rfl)
  exact hf a hP hnodup { st with lookups := (action st.lookups).2 } b st' hst₁ hblank hn hfrun

/-- A variable is added at the end. -/
theorem recordLocal (var : LocalVar) :
    EstablishesFrom s n [] [var] (CheckM.recordLocal var) (fun _ id => id = n) := by
  intro _ st id st' hst _ hn hrun
  cases hrun
  exact ⟨hst, Array.toList_push, fun slot _ => .refl _ slot, fun _ _ => hn⟩

/-- Checks one after the other: each starts with the variables that those before it have
added. -/
theorem forM {γ : Type} {f : γ → CheckM PUnit} {slots : γ → List Slot} {vars : γ → List LocalVar}
    {R : LocalId → ClassFacts → γ → Prop} {xs : List γ}
    (hf : ∀ n, ∀ x ∈ xs,
      EstablishesFrom s n (slots x) (vars x) (f x) (fun facts _ => R n facts x)) (n : LocalId) :
    EstablishesFrom s n (xs.flatMap slots) (xs.flatMap vars) (xs.forM f)
      (fun facts _ => ∀ before x after, xs = before ++ x :: after →
        R (n + (before.flatMap vars).length) facts x) := by
  induction xs generalizing n with
  | nil => exact .pure _ (fun _ before x after heq => by cases before <;> cases heq)
  | cons first xs ih =>
    rw [List.flatMap_cons, List.flatMap_cons]
    refine (hf n first List.mem_cons_self).bind (fun _ =>
      (ih (fun n x hx => hf n x (List.mem_cons_of_mem _ hx)) _).mono ?_)
    intro facts _ hothers hfirst before x after heq
    cases before with
    | nil =>
      cases heq
      exact hfirst
    | cons other before =>
      obtain ⟨rfl, hrest⟩ := List.cons.inj heq
      have hother := hothers before x after hrest
      rwa [Nat.add_assoc, ← List.length_append, ← List.flatMap_cons] at hother

end EstablishesFrom

/-! ## §2 Names and scopes -/

/-- Declarations stand one after the other at the positions from `n` on. -/
def Numbers (holds : LocalId → Declaration → Prop) (n : LocalId) (ds : List Declaration) : Prop :=
  ∀ i d, ds[i]? = some d → holds (n + i) d

theorem numbers_append {holds : LocalId → Declaration → Prop} {n : LocalId}
    {ds others : List Declaration} :
    Numbers holds n (ds ++ others) ↔
      Numbers holds n ds ∧ Numbers holds (n + ds.length) others := by
  constructor
  · intro h
    refine ⟨fun i d hd => h i d ?_, fun i d hd => ?_⟩
    · rwa [List.getElem?_append_left (List.getElem?_eq_some_iff.mp hd).1]
    · rw [Nat.add_assoc]
      refine h _ d ?_
      rwa [List.getElem?_append_right (Nat.le_add_right ..), Nat.add_sub_cancel_left]
  · rintro ⟨hfirst, hothers⟩ i d hd
    rcases Nat.lt_or_ge i ds.length with hi | hi
    · exact hfirst i d (by rwa [List.getElem?_append_left hi] at hd)
    · rw [List.getElem?_append_right hi] at hd
      have hplace := hothers _ d hd
      rwa [Nat.add_assoc, Nat.add_sub_cancel' hi] at hplace

/-- Wherever an expression refers to a variable, it is the name of a declaration in scope, at
the position of the variable. -/
def ClassFacts.RefersAmong (facts : ClassFacts) (holds : LocalId → Declaration → Prop)
    (visible : List Declaration) (e : Expr Mark) : Prop :=
  ∀ part ∈ e.parts, ∀ l, facts.resolutionOf? part = some (.localVar l) →
    ∃ d ∈ visible, holds l d ∧ ∃ mark, part = .named mark (.single d.name)

/-- At a statement the declarations in scope have distinct names, and its operands refer to
them. -/
structure ClassFacts.ScopedAt (facts : ClassFacts) (holds : LocalId → Declaration → Prop)
    (seen : List Declaration) (s : Stmt Mark) : Prop where
  distinct : ((s.declares ++ s.scopeInside seen).map Declaration.name).Nodup
  operands : ∀ e ∈ s.exprChildren, facts.RefersAmong holds (s.scopeInside seen) e

/-- This holds at all statements inside a statement. -/
def ClassFacts.ScopedIn (facts : ClassFacts) (holds : LocalId → Declaration → Prop)
    (visible : List Declaration) (s : Stmt Mark) : Prop :=
  ∀ seen part, Stmt.Descends visible s seen part → facts.ScopedAt holds seen part

section Scoped

variable {facts : ClassFacts} {holds : LocalId → Declaration → Prop} {visible : List Declaration}
  {s : Stmt Mark}

theorem ClassFacts.ScopedIn.intro (h : facts.ScopedAt holds visible s)
    (hchildren : ∀ entry ∈ s.scopedChildren visible, facts.ScopedIn holds entry.1 entry.2) :
    facts.ScopedIn holds visible s := by
  intro seen part hpart
  cases hpart with
  | here _ _ => exact h
  | inside hchild hpart => exact hchildren _ hchild seen part hpart

end Scoped

/-- A declaration as a variable. -/
def ClassContext.variable (cls : ClassContext) : Declaration → LocalVar
  | .param _ param =>
    { name := param.name, type := param.type.typeIn (cls.symbols.denotation cls.classId)
      span := param.range, isParam := true }
  | .localVar mark type name =>
    { name, type := type.typeIn (cls.symbols.denotation cls.classId), span := mark.range
      isParam := false }

/-- A scope consists of declarations, each at its position, with distinct names. -/
inductive ClassContext.Sees (cls : ClassContext) (holds : LocalId → Declaration → Prop) :
    List Declaration → Scope → Prop
  | nil : Sees cls holds [] []
  | cons {l : LocalId} {d : Declaration} {visible : List Declaration} {scope : Scope}
      (hd : holds l d) (hfresh : ∀ other ∈ visible, other.name ≠ d.name)
      (h : Sees cls holds visible scope) :
      Sees cls holds (d :: visible) ((l, cls.variable d) :: scope)

namespace ClassContext

variable {cls : ClassContext} {holds : LocalId → Declaration → Prop} {visible : List Declaration}
  {scope : Scope} {name : Name}

@[simp]
theorem variable_name (d : Declaration) : (cls.variable d).name = d.name := by
  cases d <;> rfl

theorem Sees.distinct (h : cls.Sees holds visible scope) :
    (visible.map Declaration.name).Nodup := by
  induction h with
  | nil => exact List.nodup_nil
  | cons _ hfresh _ ih =>
    refine List.nodup_cons.mpr ⟨fun hmem => ?_, ih⟩
    obtain ⟨other, hother, hname⟩ := List.mem_map.mp hmem
    exact hfresh other hother hname

/-- A name that is not found is not declared. -/
theorem Sees.fresh (h : cls.Sees holds visible scope) (hnone : scope.find? name = none) :
    ∀ d ∈ visible, d.name ≠ name := by
  induction h with
  | nil => exact List.forall_mem_nil _
  | cons _ _ _ ih =>
    simp only [Scope.find?, List.find?_cons] at hnone
    split at hnone
    · cases hnone
    · rename_i hne
      refine List.forall_mem_cons.mpr ⟨?_, ih hnone⟩
      simpa using hne

/-- A name that is found is declared. -/
theorem Sees.declared (h : cls.Sees holds visible scope) {entry : LocalId × LocalVar}
    (hfound : scope.find? name = some entry) :
    ∃ d ∈ visible, holds entry.1 d ∧ d.name = name := by
  induction h with
  | nil => cases hfound
  | @cons l d visible scope hd _ _ ih =>
    simp only [Scope.find?, List.find?_cons] at hfound
    split at hfound
    · rename_i heq
      cases hfound
      exact ⟨d, List.mem_cons_self, hd, by simpa using heq⟩
    · obtain ⟨other, hother, hfound⟩ := ih hfound
      exact ⟨other, List.mem_cons_of_mem _ hother, hfound⟩

end ClassContext

namespace BodyContext

variable {ctx : BodyContext} {facts : ClassFacts} {scope : Scope} {e : Expr Mark}

/-- Where a name denotes a variable of the body, it has one identifier. -/
theorem Denotes.localVar {names : List Name} {type : Ty} {l : LocalId}
    (h : ctx.Denotes scope names (.value type (.localVar l))) :
    ∃ name var, names = [name] ∧ scope.find? name = some (l, var) := by
  cases h with
  | first hfirst =>
    cases hfirst with
    | localVar hvar => exact ⟨_, _, rfl, hvar⟩
  | select _ hselect =>
    cases extend_eq_ok hselect with
    | value hfield | type hfield => cases hfield

/-- An expression that refers to a variable of the body is its name alone. -/
theorem Explains.localVar (h : ctx.Explains facts scope e) {l : LocalId}
    (hl : facts.resolutionOf? e = some (.localVar l)) :
    ∃ mark name var, e = .named mark (.single name) ∧ scope.find? name = some (l, var) := by
  have hrefers {type : Option Ty} {r : Option Resolution} (htold : facts.Says e.note type r) :
      r = some (.localVar l) := htold.resolution.symm.trans hl
  cases h with
  | @valueName mark path type kind hname htold =>
    have hkind := hrefers htold
    cases kind with
    | localVar id =>
      cases hkind
      obtain ⟨name, var, hpath, hvar⟩ := hname.localVar
      obtain ⟨segments⟩ := path
      obtain rfl : segments = [name] := hpath
      exact ⟨mark, name, var, rfl, hvar⟩
    | field _ | arrayLength => cases hkind
  | fieldAccess _ hselect htold =>
    have hkind := hrefers htold
    cases selectField_eq_ok hselect with
    | length | ofValue _ _ | ofType _ _ => cases hkind
  | literal htold | typeName _ htold | this _ htold | call _ _ htold | callOn _ _ _ _ htold
  | create _ _ _ _ htold | createArray _ _ htold | arrayAccess _ _ _ htold | cast _ _ _ htold
  | instanceOf _ _ _ htold | binary _ _ _ htold | unary _ _ htold | incDec _ _ _ htold
  | assign _ _ _ _ htold => cases hrefers htold

/-- An expression that is explained refers to variables in scope only. -/
theorem ExplainsIn.refersAmong {holds : LocalId → Declaration → Prop}
    {visible : List Declaration} (h : ctx.ExplainsIn facts scope e)
    (hsees : ctx.Sees holds visible scope) : facts.RefersAmong holds visible e := by
  intro part hpart l hl
  obtain ⟨mark, name, var, rfl, hvar⟩ := (h part hpart).localVar hl
  obtain ⟨d, hd, hheld, rfl⟩ := hsees.declared hvar
  exact ⟨d, hd, hheld, mark, rfl⟩

end BodyContext

/-! ## §3 Statements -/

open BodyContext EstablishesFrom

namespace BodyContext

/-- Whatever a scope consists of, certain expressions refer to it. -/
def RefersIn (ctx : BodyContext) (holds : LocalId → Declaration → Prop) (scope : Scope)
    (es : List (Expr Mark)) (facts : ClassFacts) : Prop :=
  ∀ visible, ctx.Sees holds visible scope → ∀ e ∈ es, facts.RefersAmong holds visible e

/-- What the check of a statement finds out where its declarations are at the positions from
`n` on: those of the scope become visible that it declares, and the scopes inside it are
kept. -/
def KeepsScopes (ctx : BodyContext) (holds : LocalId → Declaration → Prop) (n : LocalId)
    (scope : Scope) (s : Stmt Mark) (facts : ClassFacts) (after : Scope) : Prop :=
  Numbers holds n s.declarations → ∀ visible, ctx.Sees holds visible scope →
    ctx.Sees holds (s.declares ++ visible) after ∧ facts.ScopedIn holds visible s

/-- What the check of statements one after the other finds out. -/
def ListKeepsScopes (ctx : BodyContext) (holds : LocalId → Declaration → Prop) (n : LocalId)
    (scope : Scope) (ss : List (Stmt Mark)) (facts : ClassFacts) : Prop :=
  Numbers holds n (ss.flatMap Stmt.declarations) → ∀ visible, ctx.Sees holds visible scope →
    ∀ entry ∈ Stmt.listScoped visible ss, facts.ScopedIn holds entry.1 entry.2

/-- What the check of a statement that may be missing finds out. -/
def OptionKeepsScopes (ctx : BodyContext) (holds : LocalId → Declaration → Prop) (n : LocalId)
    (scope : Scope) (s : Option (Stmt Mark)) (facts : ClassFacts) (after : Scope) : Prop :=
  Numbers holds n (s.toList.flatMap Stmt.declarations) → ∀ visible,
    ctx.Sees holds visible scope → ctx.Sees holds (s.toList.flatMap Stmt.declares ++ visible) after ∧
      ∀ child ∈ s.toList, facts.ScopedIn holds visible child

variable (ctx : BodyContext) (holds : LocalId → Declaration → Prop) (n : LocalId) (scope : Scope)

/-- A check that explains expressions and declares nothing. -/
theorem refersIn_of_establishes {α : Type} {S : List Slot} {x : CheckM α}
    {P : ClassFacts → α → Prop} {es : List (Expr Mark)} (hx : Establishes ctx.symbols S x P)
    (hlocals : LeavesLocals x)
    (hP : ∀ facts a, P facts a → ∀ e ∈ es, ctx.ExplainsIn facts scope e) :
    EstablishesFrom ctx.symbols n S [] x (fun facts _ => ctx.RefersIn holds scope es facts) :=
  .of_establishes (hx.mono (fun facts a ha _ hsees e he =>
    (hP facts a ha e he).refersAmong hsees)) hlocals

theorem inferExpr_refersIn (e : Expr Mark) :
    EstablishesFrom ctx.symbols n e.slots [] (inferExpr ctx scope e)
      (fun facts _ => ctx.RefersIn holds scope [e] facts) :=
  ctx.refersIn_of_establishes holds n scope (inferExpr_establishes ctx scope e)
    (inferExpr_has (LeavesLocals.steps ctx) scope e (fun _ _ => trivial))
    (fun _ _ hfinds => List.forall_mem_singleton.mpr hfinds.2)

theorem checkCondition_refersIn (condition : Expr Mark) :
    EstablishesFrom ctx.symbols n condition.slots [] (checkCondition ctx scope condition)
      (fun facts _ => ctx.RefersIn holds scope [condition] facts) :=
  ctx.refersIn_of_establishes holds n scope
    (inferAssignable_establishes ctx scope .boolean condition)
    (checkCondition_has (LeavesLocals.steps ctx) scope condition (fun _ _ => trivial))
    (fun _ _ hfits => List.forall_mem_singleton.mpr hfits.2)

theorem checkConditionOption_refersIn (condition : Option (Expr Mark)) :
    EstablishesFrom ctx.symbols n (condition.toList.flatMap Expr.slots) []
      (checkConditionOption ctx scope condition)
      (fun facts _ => ctx.RefersIn holds scope condition.toList facts) :=
  ctx.refersIn_of_establishes holds n scope (checkConditionOption_establishes ctx scope condition)
    (checkConditionOption_has (LeavesLocals.steps ctx) scope condition (fun _ _ _ _ => trivial))
    (fun _ _ hfits e he => (hfits e he).2)

theorem checkUpdate_refersIn (update : Option (Expr Mark)) :
    EstablishesFrom ctx.symbols n (update.toList.flatMap Expr.slots) []
      (checkUpdate ctx scope update)
      (fun facts _ => ctx.RefersIn holds scope update.toList facts) := by
  refine ctx.refersIn_of_establishes holds n scope (checkUpdate_establishes ctx scope update)
    (checkUpdate_has (LeavesLocals.steps ctx) scope update (fun _ _ _ _ => trivial)) ?_
  intro facts _ hfinds e he
  obtain ⟨type, hfound⟩ := hfinds e he
  exact hfound.2

theorem checkInitializer_refersIn (expected : Ty) (initializer : Option (Expr Mark)) :
    EstablishesFrom ctx.symbols n (initializer.toList.flatMap Expr.slots) []
      (checkInitializer ctx scope expected initializer)
      (fun facts _ => ctx.RefersIn holds scope initializer.toList facts) :=
  ctx.refersIn_of_establishes holds n scope
    (checkInitializer_establishes ctx scope expected initializer)
    (checkInitializer_has (LeavesLocals.steps ctx) scope expected initializer
      (fun _ _ _ _ => trivial))
    (fun _ _ hfits e he => (hfits e he).2)

theorem checkReturn_refersIn (mark : Mark) (value : Option (Expr Mark)) :
    EstablishesFrom ctx.symbols n (value.toList.flatMap Expr.slots) []
      (checkReturn ctx scope mark.range value)
      (fun facts _ => ctx.RefersIn holds scope value.toList facts) := by
  refine ctx.refersIn_of_establishes holds n scope (checkReturn_establishes ctx scope mark value)
    (checkReturn_has (LeavesLocals.steps ctx) scope mark.range value (fun _ _ _ _ => trivial)) ?_
  rintro facts _ ⟨-, hfinds⟩ e he
  obtain ⟨type, hfound⟩ := hfinds e he
  exact hfound.2

/-- A variable becomes visible in front of those visible before. -/
theorem declare_sees (d : Declaration) :
    EstablishesFrom ctx.symbols n [] [ctx.variable d] (ctx.declare scope (ctx.variable d))
      (fun _ after => Numbers holds n [d] → ∀ visible, ctx.Sees holds visible scope →
        ctx.Sees holds (d :: visible) after) := by
  unfold declare
  split
  · exact .rule_fails
  · rename_i hnone
    refine (recordLocal _).bind_pure ?_
    rintro facts _ rfl hnumbers visible hsees
    refine .cons (hnumbers 0 d rfl) ?_ hsees
    rw [← ctx.variable_name d]
    exact hsees.fresh hnone

variable {ctx holds n scope}

/-- The scopes in a statement without statements inside it, which declares nothing, are kept
when those of its operands are. -/
theorem KeepsScopes.leaf {s : Stmt Mark} {facts : ClassFacts} (hdeclares : s.declares = [])
    (hchildren : ∀ visible, s.scopedChildren visible = [])
    (hinside : ∀ visible, s.scopeInside visible = visible)
    (h : ctx.RefersIn holds scope s.exprChildren facts) :
    ctx.KeepsScopes holds n scope s facts scope := by
  intro _ visible hsees
  rw [hdeclares]
  refine ⟨hsees, .intro ⟨?_, ?_⟩ ?_⟩
  · rw [hdeclares, hinside]
    exact hsees.distinct
  · rw [hinside]
    exact h visible hsees
  · rw [hchildren]
    exact List.forall_mem_nil _

/-- A variable is declared behind its initializer. -/
theorem checkLocalVar_scopes (ctx : BodyContext) (holds : LocalId → Declaration → Prop)
    (n : LocalId) (scope : Scope) (mark : Mark) (type : TypeSyntax) (name : Name)
    (initializer : Option (Expr Mark)) :
    EstablishesFrom ctx.symbols n (Stmt.localVar mark type name initializer).slots
      ((Stmt.localVar mark type name initializer).declarations.map ctx.variable)
      (checkStmt ctx scope (.localVar mark type name initializer))
      (ctx.KeepsScopes holds n scope (.localVar mark type name initializer)) := by
  rw [Stmt.slots_of_leaf rfl]
  refine .lookup_bind (resolveType_answers type) (fun declared hdeclared => ?_)
  obtain rfl := hdeclared.2
  rw [← List.append_nil ((Stmt.localVar mark type name initializer).exprChildren.flatMap _)]
  refine (ctx.checkInitializer_refersIn holds n scope _ initializer).bind (fun _ =>
    (ctx.declare_sees holds n scope (.localVar mark type name)).mono ?_)
  intro facts after hdeclare hrefers hnumbers visible hsees
  have hafter := hdeclare hnumbers visible hsees
  exact ⟨hafter, .intro ⟨hafter.distinct, hrefers visible hsees⟩ (List.forall_mem_nil _)⟩

/-- What the initializer of a loop declares is visible in all of the loop. -/
theorem checkForLoop_scopes {init : Option (Stmt Mark)} {condition : Option (Expr Mark)}
    {body : Stmt Mark} (mark : Mark) (update : Option (Expr Mark))
    (hinit : EstablishesFrom ctx.symbols n (init.toList.flatMap Stmt.slots)
      ((init.toList.flatMap Stmt.declarations).map ctx.variable)
      (checkStmtOption ctx scope init) (ctx.OptionKeepsScopes holds n scope init))
    (hbody : ∀ m inner, EstablishesFrom ctx.symbols m body.slots
      (body.declarations.map ctx.variable) (checkStmt ctx inner body)
      (ctx.KeepsScopes holds m inner body)) :
    EstablishesFrom ctx.symbols n (Stmt.forLoop mark init condition update body).slots
      ((Stmt.forLoop mark init condition update body).declarations.map ctx.variable)
      (checkStmt ctx scope (.forLoop mark init condition update body))
      (ctx.KeepsScopes holds n scope (.forLoop mark init condition update body)) := by
  have hdeclarations : (Stmt.forLoop mark init condition update body).declarations =
      init.toList.flatMap Stmt.declarations ++ body.declarations := by
    rw [Stmt.declarations_eq, Stmt.stmtChildren, List.flatMap_append, List.flatMap_singleton]
    rfl
  have hchecks : EstablishesFrom ctx.symbols n
      (init.toList.flatMap Stmt.slots ++ (condition.toList.flatMap Expr.slots ++
        (update.toList.flatMap Expr.slots ++ body.slots)))
      ((init.toList.flatMap Stmt.declarations).map ctx.variable ++
        ([] ++ ([] ++ body.declarations.map ctx.variable)))
      (checkStmt ctx scope (.forLoop mark init condition update body))
      (ctx.KeepsScopes holds n scope (.forLoop mark init condition update body)) := by
    refine hinit.bind (fun inner => (ctx.checkConditionOption_refersIn holds _ inner condition).bind
      (fun _ => (ctx.checkUpdate_refersIn holds _ inner update).bind (fun _ =>
        (hbody _ inner).bind_pure ?_)))
    intro facts _ hbodyScopes hupdate hcondition hinitScopes hnumbers visible hsees
    rw [hdeclarations, numbers_append] at hnumbers
    obtain ⟨hinner, hinitScopes⟩ := hinitScopes hnumbers.1 visible hsees
    obtain ⟨-, hbodyScopes⟩ := hbodyScopes (by simpa using hnumbers.2) _ hinner
    refine ⟨hsees, .intro ⟨hinner.distinct, ?_⟩ ?_⟩
    · exact List.forall_mem_append.mpr ⟨hcondition _ hinner, hupdate _ hinner⟩
    · refine List.forall_mem_append.mpr ⟨?_, List.forall_mem_singleton.mpr hbodyScopes⟩
      exact List.forall_mem_map.mpr hinitScopes
  rw [hdeclarations, List.map_append]
  refine hchecks.perm ?_
  rw [Stmt.slots_eq (.forLoop ..), Stmt.exprChildren, Stmt.stmtChildren, List.flatMap_append,
    List.flatMap_append, List.flatMap_singleton,
    ← List.append_assoc (condition.toList.flatMap Expr.slots)]
  exact List.perm_append_comm_assoc ..

end BodyContext

mutual

/-- A successful check of a statement records what is declared in it, in order, and keeps its
scopes. -/
theorem checkStmt_scopes (ctx : BodyContext) (holds : LocalId → Declaration → Prop)
    (n : LocalId) (scope : Scope) (s : Stmt Mark) :
    EstablishesFrom ctx.symbols n s.slots (s.declarations.map ctx.variable)
      (checkStmt ctx scope s) (ctx.KeepsScopes holds n scope s) := by
  match s with
  | .block mark stmts =>
    rw [Stmt.slots_eq, Stmt.declarations_eq]
    refine (checkStmts_scopes ctx holds n scope stmts).bind_pure ?_
    intro facts _ hstmts hnumbers visible hsees
    rw [Stmt.declarations_eq] at hnumbers
    exact ⟨hsees, .intro ⟨hsees.distinct, List.forall_mem_nil _⟩ (hstmts hnumbers visible hsees)⟩
  | .localVar mark type name initializer =>
    exact checkLocalVar_scopes ctx holds n scope mark type name initializer
  | .expression mark value =>
    rw [Stmt.slots_of_leaf rfl, Stmt.exprChildren, List.flatMap_singleton]
    exact (ctx.inferExpr_refersIn holds n scope value).bind_pure (fun _ _ hvalue =>
      .leaf rfl (fun _ => rfl) (fun _ => rfl) hvalue)
  | .branch mark condition thenBranch elseBranch =>
    have hdeclarations : (Stmt.branch mark condition thenBranch elseBranch).declarations =
        thenBranch.declarations ++ elseBranch.toList.flatMap Stmt.declarations := by
      rw [Stmt.declarations_eq, Stmt.stmtChildren, List.flatMap_cons]
      rfl
    rw [Stmt.slots_eq, Stmt.exprChildren, List.flatMap_singleton, Stmt.stmtChildren,
      List.flatMap_cons, hdeclarations, List.map_append]
    refine (ctx.checkCondition_refersIn holds n scope condition).bind (fun _ =>
      (checkStmt_scopes ctx holds n scope thenBranch).bind (fun _ =>
        (checkStmtOption_scopes ctx holds _ scope elseBranch).bind_pure ?_))
    intro facts _ helse hthen hcondition hnumbers visible hsees
    rw [hdeclarations, numbers_append] at hnumbers
    refine ⟨hsees, .intro ⟨hsees.distinct, hcondition visible hsees⟩ ?_⟩
    refine List.forall_mem_cons.mpr ⟨(hthen hnumbers.1 visible hsees).2, List.forall_mem_map.mpr ?_⟩
    exact (helse (by simpa using hnumbers.2) visible hsees).2
  | .whileLoop mark condition body =>
    rw [Stmt.slots_eq, Stmt.declarations_eq, Stmt.exprChildren, List.flatMap_singleton,
      Stmt.stmtChildren, List.flatMap_singleton, List.flatMap_singleton]
    refine (ctx.checkCondition_refersIn holds n scope condition).bind (fun _ =>
      (checkStmt_scopes ctx holds n scope body).bind_pure ?_)
    intro facts _ hbody hcondition hnumbers visible hsees
    rw [Stmt.declarations_eq, Stmt.stmtChildren, List.flatMap_singleton] at hnumbers
    refine ⟨hsees, .intro ⟨hsees.distinct, hcondition visible hsees⟩ ?_⟩
    exact List.forall_mem_singleton.mpr (hbody hnumbers visible hsees).2
  | .forLoop mark init condition update body =>
    exact checkForLoop_scopes mark update (checkStmtOption_scopes ctx holds n scope init)
      (fun m inner => checkStmt_scopes ctx holds m inner body)
  | .returnValue mark value =>
    rw [Stmt.slots_of_leaf rfl]
    exact (ctx.checkReturn_refersIn holds n scope mark value).bind_pure (fun _ _ hvalue =>
      .leaf rfl (fun _ => rfl) (fun _ => rfl) hvalue)
  | .throwValue mark value =>
    rw [Stmt.slots_of_leaf rfl, Stmt.exprChildren, List.flatMap_singleton,
      ← List.append_nil value.slots]
    refine (ctx.inferExpr_refersIn holds n scope value).bind (fun found => ?_)
    refine (of_establishes .rule (fun _ => rfl)).bind_pure (fun _ _ _ hvalue => ?_)
    exact .leaf rfl (fun _ => rfl) (fun _ => rfl) hvalue
  | .breakLoop mark =>
    exact .pure _ (fun _ => .leaf rfl (fun _ => rfl) (fun _ => rfl)
      (fun _ _ => List.forall_mem_nil _))
  | .empty mark =>
    exact .pure _ (fun _ => .leaf rfl (fun _ => rfl) (fun _ => rfl)
      (fun _ _ => List.forall_mem_nil _))
  | .constructorCall mark call args => exact .rule_fails
termination_by structural s

/-- Statements one after the other record what is declared in them, and keep their scopes. -/
theorem checkStmts_scopes (ctx : BodyContext) (holds : LocalId → Declaration → Prop)
    (n : LocalId) (scope : Scope) (ss : List (Stmt Mark)) :
    EstablishesFrom ctx.symbols n (ss.flatMap Stmt.slots)
      ((ss.flatMap Stmt.declarations).map ctx.variable) (checkStmts ctx scope ss)
      (fun facts _ => ctx.ListKeepsScopes holds n scope ss facts) := by
  match ss with
  | [] => exact .pure _ (fun _ _ _ _ => List.forall_mem_nil _)
  | s :: ss =>
    rw [List.flatMap_cons, List.flatMap_cons, List.map_append]
    refine (checkStmt_scopes ctx holds n scope s).bind (fun after =>
      (checkStmts_scopes ctx holds _ after ss).mono ?_)
    intro facts _ hothers hfirst hnumbers visible hsees
    rw [List.flatMap_cons, numbers_append] at hnumbers
    obtain ⟨hafter, hscoped⟩ := hfirst hnumbers.1 visible hsees
    exact List.forall_mem_cons.mpr ⟨hscoped, hothers (by simpa using hnumbers.2) _ hafter⟩
termination_by structural ss

/-- So does a statement that may be missing. -/
theorem checkStmtOption_scopes (ctx : BodyContext) (holds : LocalId → Declaration → Prop)
    (n : LocalId) (scope : Scope) (s : Option (Stmt Mark)) :
    EstablishesFrom ctx.symbols n (s.toList.flatMap Stmt.slots)
      ((s.toList.flatMap Stmt.declarations).map ctx.variable) (checkStmtOption ctx scope s)
      (ctx.OptionKeepsScopes holds n scope s) := by
  match s with
  | none => exact .pure _ (fun _ _ _ hsees => ⟨hsees, List.forall_mem_nil _⟩)
  | some s =>
    rw [Option.toList_some, List.flatMap_singleton, List.flatMap_singleton]
    refine (checkStmt_scopes ctx holds n scope s).mono ?_
    intro facts after h hnumbers visible hsees
    rw [Option.toList_some, List.flatMap_singleton] at hnumbers ⊢
    exact (h hnumbers visible hsees).imp_right List.forall_mem_singleton.mpr
termination_by structural s

end

end JoosStatics
