/-
JoosStatics.Proofs.Bodies.LateNames — the names that linking leaves to the
body checks.

Linking resolves the types that are written in bodies. The first identifier
of a name in an expression may be a type as well, but is looked up only when
the body is checked. Everything else that a body check looks up is settled
by then. So the late lookups come down to these identifiers:

* `Linked.LateLookups` — what they remember and which packages they use.
* `Linked.IsLateViolation` — what they can fail with.
* `checkProgram_lateNames` — the whole stage does no more than that.
-/
import JoosStatics.Proofs.Analysis
import JoosStatics.Proofs.Bodies.WrittenTypes
import JoosStatics.Proofs.Linking.Ambiguity

namespace JoosStatics

namespace Linked

variable {l : Linked} {h : Hierarchy}

/-! ## §1 Late names -/

/-- A name is the first identifier of a name in an expression of a program type. -/
def Names (l : Linked) (h : Hierarchy) (id : ClassId) (name : Name) : Prop :=
  id < l.symbols.programSize ∧ ∃ owner ∈ (l.classContext h id).owners, ∃ mark path,
    .named mark path ∈ (l.classContext h id).decl.exprsOf owner ∧ path.first? = some name

/-- What is remembered once some bodies are checked: what linking remembered, and
what a search finds. Packages come into use by the names in expressions only. -/
structure LateLookups (l : Linked) (h : Hierarchy) (lookups : LookupState) : Prop where
  remembers : lookups.Extends l.lookups
  found : l.symbols.AnswersFound lookups
  used : ∀ package ∈ lookups.usedPackages.keys, package ∈ l.lookups.usedPackages.keys ∨
    ∃ id name range, l.Names h id name ∧ package ∈ (l.symbols.findSimple id name range).2

/-- The one violation of linking that a body check can find. -/
def IsLateViolation (l : Linked) (h : Hierarchy) (v : Violation) : Prop :=
  ∃ id name range, l.Names h id name ∧ l.symbols.IsAmbiguous id name ∧
    v = l.symbols.ambiguity id name range

/-- As far as they belong to linking, violations are late ones. -/
def AreLate (l : Linked) (h : Hierarchy) (violations : List Violation) : Prop :=
  ∀ v ∈ violations, v.phase = .typeLinking → l.IsLateViolation h v

/-- A computation looks up nothing but settled types and names in expressions. -/
abbrev LooksUpLate (l : Linked) (h : Hierarchy) {α : Type} (x : CheckM α) : Prop :=
  Upholds (fun st => l.LateLookups h st.lookups)
    (fun v => v.phase = .typeLinking → l.IsLateViolation h v) x

section Steps

variable {α β : Type}

theorem looksUpLate_rule {result : Except Violation α} {f : α → CheckM β} (hrule : IsBodyRule result)
    (hf : ∀ a, result = .ok a → l.LooksUpLate h (f a)) :
    l.LooksUpLate h (CheckM.rule result >>= f) := by
  intro st hst
  cases result with
  | error e =>
    refine ⟨hst, fun v hv hphase => ?_⟩
    cases hv
    exact absurd hphase (hrule _ rfl)
  | ok a => exact hf a rfl st hst

/-- A settled lookup changes nothing. -/
theorem looksUpLate_of_settled {action : LookupM α} (hsettled : Settled action l.lookups) :
    l.LooksUpLate h (CheckM.lookup action) := by
  obtain ⟨a, hrun⟩ := hsettled
  refine .of_ok (fun st hst => ⟨a, ?_⟩)
  have hrun : CheckM.lookup action st = (.ok a, st) := by
    unfold CheckM.lookup
    rw [hrun st.lookups hst.remembers]
  rw [hrun]
  exact ⟨rfl, hst⟩

theorem looksUpLate_firstName {id : ClassId} {name : Name} (range : Span)
    (himports : l.symbols.checkImports id = .ok ()) (hname : l.Names h id name) :
    l.LooksUpLate h (CheckM.lookup (l.symbols.lookupSimple id name range)) := by
  intro st hst
  refine ⟨⟨?_, ?_, ?_⟩, fun v hv _ => ?_⟩
  · exact (l.symbols.lookupSimple_remembers id name range st.lookups).trans hst.remembers
  · exact SymbolTable.lookupSimple_finds id name range hst.found
  · intro package hpackage
    rcases SymbolTable.lookupSimple_uses hpackage with hsupplies | hused
    · exact .inr ⟨id, name, range, hname, hsupplies⟩
    · exact hst.used package hused
  · obtain ⟨hambiguous, range, hv⟩ :=
      SymbolTable.lookupSimple_eq_error himports hst.found hv
    exact ⟨id, name, range, hname, hambiguous, hv⟩

end Steps

end Linked

/-! ## §2 The checks of bodies -/

section Checks

variable {program library : List CompilationUnit} {l : Linked} {h : Hierarchy} {id : ClassId}
  {owner : BodyOwner}

namespace HasHierarchy

/-- The types written in the bodies of a program type are settled. -/
theorem settled (hh : HasHierarchy program library l h) (hid : id < l.symbols.programSize)
    {type : TypeSyntax} (htype : type ∈ (l.classContext h id).decl.bodies.writtenTypes) :
    Settled (l.symbols.resolveType id type) l.lookups := by
  have hlt := Nat.lt_of_lt_of_le hid hh.programSize_le
  exact SymbolTable.link_settled hh.link hlt (decide_eq_false (Nat.not_le_of_lt hid)) htype

theorem checkImports (hh : HasHierarchy program library l h) (hid : id < l.symbols.programSize) :
    l.symbols.checkImports id = .ok () :=
  SymbolTable.link_checkImports hh.link (Nat.lt_of_lt_of_le hid hh.programSize_le)

/-- At first nothing is remembered but what linking remembered. -/
theorem lateLookups (hh : HasHierarchy program library l h) : l.LateLookups h l.lookups :=
  ⟨.refl _, SymbolTable.link_answersFound hh.link, fun _ hpackage => .inl hpackage⟩

/-- Each step in a body looks up settled types and names in expressions only. -/
theorem checkSteps (hh : HasHierarchy program library l h) (hid : id < l.symbols.programSize)
    (howner : owner ∈ (l.classContext h id).owners) :
    CheckSteps ((l.classContext h id).bodyContext owner)
      (· ∈ (l.classContext h id).decl.exprsOf owner) (· ∈ (l.classContext h id).decl.stmtsOf owner)
      (fun x => l.LooksUpLate h x) := by
  have htype (type : TypeSyntax)
      (htype : type ∈ (l.classContext h id).decl.bodies.writtenTypes) :
      l.LooksUpLate h (((l.classContext h id).bodyContext owner).resolveType type) := by
    rw [BodyContext.resolveType, Linked.bodyContext_symbols, Linked.bodyContext_classId]
    exact Linked.looksUpLate_of_settled (hh.settled hid htype)
  refine ⟨⟨?_, ?_, ?_, ?_, ?_, ?_, ?_, ?_⟩, ?_, ?_⟩
  · exact fun a => Upholds.pure a
  · exact fun hx hf => Upholds.bind hx hf
  · exact fun hrule hf => Linked.looksUpLate_rule hrule hf
  · exact fun he hwritten => htype _ (TypeDecl.exprType_mem he hwritten)
  · intro mark type args he
    rw [Linked.bodyContext_symbols, Linked.bodyContext_classId]
    have hsettled := hh.settled hid (TypeDecl.exprType_mem he rfl)
    exact Linked.looksUpLate_of_settled (SymbolTable.LooksUp.settled_bind
      (SymbolTable.resolveRef_looksUp id type) (fun _ => .pure _) hsettled).1
  · intro mark path first he hfirst
    rw [Linked.bodyContext_symbols, Linked.bodyContext_classId]
    exact Linked.looksUpLate_firstName _ (hh.checkImports hid)
      ⟨hid, owner, howner, mark, path, he, hfirst⟩
  · exact fun _ type => .of_ok (fun _ hst => ⟨_, rfl, hst⟩)
  · exact fun _ _ => .of_ok (fun _ hst => ⟨_, rfl, hst⟩)
  · exact fun hs => htype _ (TypeDecl.localType_mem hs)
  · exact fun var => .of_ok (fun _ hst => ⟨_, rfl, hst⟩)

/-- So does the check of a member. -/
theorem checkBody_lateNames (hh : HasHierarchy program library l h)
    (hid : id < l.symbols.programSize) (howner : owner ∈ (l.classContext h id).owners) :
    l.LooksUpLate h ((l.classContext h id).checkBody owner) :=
  ClassContext.checkBody_has (hh.checkSteps hid howner)
    (fun _ _ _ _ => .of_ok (fun _ hst => ⟨_, rfl, hst⟩))

theorem checkBodies_lateNames (hh : HasHierarchy program library l h)
    (hid : id < l.symbols.programSize) (collectAll : Bool) {owners : List BodyOwner}
    (howners : ∀ owner ∈ owners, owner ∈ (l.classContext h id).owners) {st : CheckState}
    (hst : l.LateLookups h st.lookups) :
    l.LateLookups h ((l.classContext h id).checkBodies collectAll owners st).2.lookups ∧
    l.AreLate h ((l.classContext h id).checkBodies collectAll owners st).1 := by
  induction owners generalizing st with
  | nil => exact ⟨hst, List.forall_mem_nil _⟩
  | cons owner owners ih =>
    obtain ⟨hfirst, hothers⟩ := List.forall_mem_cons.mp howners
    obtain ⟨hlookups, hviolation⟩ := hh.checkBody_lateNames hid hfirst st hst
    unfold ClassContext.checkBodies
    split
    · rename_i st₁ hrun
      rw [hrun] at hlookups
      exact ih hothers hlookups
    · rename_i violation st₁ hrun
      rw [hrun] at hlookups hviolation
      split
      · obtain ⟨hlast, hlate⟩ := ih hothers hlookups
        exact ⟨hlast, List.forall_mem_cons.mpr ⟨hviolation violation rfl, hlate⟩⟩
      · exact ⟨hlookups, List.forall_mem_singleton.mpr (hviolation violation rfl)⟩

theorem checkClasses_lateNames (hh : HasHierarchy program library l h) (collectAll : Bool)
    {ids : List ClassId} (hids : ∀ id ∈ ids, id < l.symbols.programSize) {facts : ProgramFacts}
    (hfacts : l.LateLookups h facts.lookups) :
    l.LateLookups h (l.checkClasses h collectAll ids facts).2.lookups ∧
    l.AreLate h (l.checkClasses h collectAll ids facts).1 := by
  induction ids generalizing facts with
  | nil => exact ⟨hfacts, List.forall_mem_nil _⟩
  | cons id ids ih =>
    obtain ⟨hfirst, hothers⟩ := List.forall_mem_cons.mp hids
    have hst : l.LateLookups h
        ({ lookups := facts.lookups, targets := facts.targets } : CheckState).lookups := hfacts
    obtain ⟨hlookups, hlate⟩ :=
      hh.checkBodies_lateNames hfirst collectAll (fun _ howner => howner) hst
    unfold Linked.checkClasses
    simp only
    split
    · refine ⟨(ih hothers ?_).1, List.forall_mem_append.mpr ⟨hlate, (ih hothers ?_).2⟩⟩
      · exact hlookups
      · exact hlookups
    · exact ⟨hlookups, hlate⟩

/-- The type checking stage looks up nothing but settled types and names in
expressions. -/
theorem checkProgram_lateNames (hh : HasHierarchy program library l h) (collectAll : Bool) :
    (∀ facts, l.checkBodies h collectAll = .ok facts → l.LateLookups h facts.lookups) ∧
    ∀ violations, l.checkBodies h collectAll = .error violations → l.AreLate h violations := by
  have hids : ∀ id ∈ l.symbols.programIds, id < l.symbols.programSize :=
    fun _ hid => List.mem_range.mp hid
  have hfacts : l.LateLookups h ({ lookups := l.lookups } : ProgramFacts).lookups := hh.lateLookups
  obtain ⟨hlookups, hlate⟩ := hh.checkClasses_lateNames collectAll hids hfacts
  constructor
  · intro facts hrun
    rwa [Linked.checkBodies_eq_ok.mp hrun] at hlookups
  · intro violations hrun
    rwa [(Linked.checkBodies_eq_error.mp hrun).2] at hlate

end HasHierarchy

end Checks

end JoosStatics
