/-
JoosStatics.Proofs.Linking.Calls — the memory of lookups does not show.

The meaning of a type name is asked for in four ways, any number of times
and in any order. What has been asked before changes neither what an answer
says nor which packages come into use; only the place in a violation can be
that of an earlier question.

* `LookupCall`, `SymbolTable.afterCalls` — questions, and the state that a
  list of them leaves.
* `call_repeats` — the same question in two states that remember right
  answers.
* `call_asks` — which name a question looks up; nothing else changes the
  state.
* `calls_transparent` — every list of questions, from both.
-/
import JoosStatics.Library.Units
import JoosStatics.Proofs.Linking.Lockstep
import JoosStatics.Proofs.Linking.Signatures

namespace JoosStatics

/-- The same rule is broken, perhaps at different places. -/
def Violation.SameCause (v w : Violation) : Prop := v.cause = w.cause

/-! ## §1 Questions -/

/-- A question about types: what a simple name denotes, if anything, or which type is
denoted by a simple name, by a simple or qualified name, or by a written type. -/
inductive LookupCall where
  | lookupSimple (ctx : ClassId) (name : Name) (range : Span)
  | resolveSimple (ctx : ClassId) (name : Name) (range : Span)
  | resolveTypeName (ctx : ClassId) (name : QualifiedName) (range : Span)
  | resolveType (ctx : ClassId) (type : TypeSyntax)

namespace LookupCall

/-- What a question is answered with when nothing is violated. -/
def Result : LookupCall → Type
  | lookupSimple .. => Option ClassId
  | resolveSimple .. | resolveTypeName .. => ClassId
  | resolveType .. => Ty

/-- The simple name that a question looks up, if any. -/
def keys : LookupCall → List (ClassId × Name)
  | lookupSimple ctx name _ | resolveSimple ctx name _ => [(ctx, name)]
  | resolveTypeName ctx name _ => SymbolTable.lookupKeys ctx [name]
  | resolveType ctx type => SymbolTable.lookupKeys ctx type.names

end LookupCall

namespace SymbolTable

variable {s : SymbolTable}

/-- Answers a question. -/
def call (s : SymbolTable) : (c : LookupCall) → LookupM c.Result
  | .lookupSimple ctx name range => s.lookupSimple ctx name range
  | .resolveSimple ctx name range => s.resolveSimple ctx name range
  | .resolveTypeName ctx name range => s.resolveTypeName ctx name range
  | .resolveType ctx type => s.resolveType ctx type

/-- The state once some questions have been answered, one after the other. -/
def afterCalls (s : SymbolTable) (calls : List LookupCall) (st : LookupState) : LookupState :=
  calls.foldl (fun st c => (s.call c st).2) st

/-! ## §2 The same question twice -/

theorem findImported_alike (ctx : ClassId) (name : Name) (range range' : Span)
    (first : SingleImport) (others : List SingleImport) :
    Alike Violation.SameCause Eq (s.findImported ctx name range first others)
      (s.findImported ctx name range' first others) := by
  unfold findImported
  cases others.find? (fun imp => imp.path ≠ first.path) with
  | some other => exact .error rfl
  | none =>
    cases s.lookup first.path with
    | some id => exact .ok rfl
    | none => exact .error rfl

/-- A search depends on the place of the name in the place of a violation only. -/
theorem findSimple_alike (ctx : ClassId) (name : Name) (range range' : Span) :
    Alike Violation.SameCause Eq (s.findSimple ctx name range).1
      (s.findSimple ctx name range').1 := by
  unfold findSimple
  dsimp only
  by_cases hown : (s.unitAt ctx).decl.name = name
  · rw [if_pos hown, if_pos hown]
    exact .ok rfl
  rw [if_neg hown, if_neg hown]
  cases (s.importsOf ctx).single.filter (fun imp => imp.imported = name) with
  | cons first others => exact findImported_alike ctx name range range' first others
  | nil =>
    cases s.lookupIn (s.unitAt ctx).packageName name with
    | some id => exact .ok rfl
    | none =>
      match distinctHits (s.onDemandHits ctx name) with
      | [] => exact .ok rfl
      | [id] => exact .ok rfl
      | _ :: _ :: _ => exact .error rfl

/-- A computation gives the same result in all states that remember right answers, up to
the place in a violation, and leaves such states. -/
abbrev Repeats (s : SymbolTable) {α : Type} (x y : LookupM α) : Prop :=
  Simulates (fun st st' => s.AnswersFound st ∧ s.AnswersFound st') Violation.SameCause Eq x y

theorem lookupSimple_repeats (ctx : ClassId) (name : Name) (range : Span) :
    s.Repeats (s.lookupSimple ctx name range) (s.lookupSimple ctx name range) := by
  rintro st st' ⟨hst, hst'⟩
  have hfound := lookupSimple_finds ctx name range hst
  have hfound' := lookupSimple_finds ctx name range hst'
  obtain ⟨place, hplace⟩ := hfound ctx name _ (s.lookupSimple_answer ctx name range st)
  obtain ⟨place', hplace'⟩ := hfound' ctx name _ (s.lookupSimple_answer ctx name range st')
  refine ⟨⟨hfound, hfound'⟩, ?_⟩
  rw [hplace, hplace']
  exact findSimple_alike ctx name place place'

/-- A linker is paired with itself in two states that remember right answers. -/
theorem pairedLookups_self (s : SymbolTable) :
    PairedLookups id (fun st st' => s.AnswersFound st ∧ s.AnswersFound st') Violation.SameCause
      s s where
  lookup := rfl
  broken _ _ _ := rfl
  lookupSimple := lookupSimple_repeats

theorem call_repeats (c : LookupCall) : s.Repeats (s.call c) (s.call c) := by
  cases c with
  | lookupSimple ctx name range => exact lookupSimple_repeats ctx name range
  | resolveSimple ctx name range => exact s.pairedLookups_self.resolveSimple ctx name range
  | resolveTypeName ctx name range => exact s.pairedLookups_self.resolveTypeName ctx name range
  | resolveType ctx type =>
    have hsame := s.pairedLookups_self.resolveType ctx type
    rwa [type.mapSpans_id] at hsame

/-! ## §3 The name that a question looks up -/

/-- A computation looks up the names in a list, of which there is one at most, and changes
the state in no other way. -/
inductive Asks (s : SymbolTable) {α : Type} (x : LookupM α) : List (ClassId × Name) → Prop
  | nothing (h : ∀ st, (x st).2 = st) : s.Asks x []
  | name {ctx : ClassId} {name : Name} {range : Span}
      (h : ∀ st, (x st).2 = (s.lookupSimple ctx name range st).2) : s.Asks x [(ctx, name)]

namespace Asks

variable {α β : Type} {x : LookupM α} {f : α → LookupM β} {keys : List (ClassId × Name)}

/-- What follows looks nothing up. -/
theorem andThen (hx : s.Asks x keys) (hf : ∀ a st, (f a st).2 = st) : s.Asks (x >>= f) keys := by
  have hstate (st : LookupState) : ((x >>= f) st).2 = (x st).2 := by
    rw [run_bind]
    rcases x st with ⟨v | a, st₁⟩
    · rfl
    · exact hf a st₁
  cases hx with
  | nothing h => exact .nothing (fun st => (hstate st).trans (h st))
  | name h => exact .name (fun st => (hstate st).trans (h st))

/-- Afterwards the names in the list are remembered as well. -/
theorem recorded (hx : s.Asks x keys) {st : LookupState} (hst : s.Recorded st) :
    s.Recorded (x st).2 ∧ ∀ key, (x st).2.Knows key ↔ st.Knows key ∨ key ∈ keys := by
  cases hx with
  | nothing h =>
    rw [h]
    exact ⟨hst, fun _ => (or_iff_left List.not_mem_nil).symm⟩
  | name h =>
    rw [h]
    exact lookupSimple_recorded _ _ _ hst

/-- The packages in use stay in order. -/
theorem sorted (hx : s.Asks x keys) {st : LookupState} (hst : st.usedPackages.Sorted) :
    (x st).2.usedPackages.Sorted := by
  cases hx with
  | nothing h => rwa [h]
  | name h =>
    rw [h]
    exact lookupSimple_sorted _ _ _ hst

end Asks

theorem resolveSimple_asks (ctx : ClassId) (name : Name) (range : Span) :
    s.Asks (s.resolveSimple ctx name range) [(ctx, name)] :=
  Asks.andThen (.name (fun _ => rfl)) (fun found _ => by cases found <;> rfl)

theorem resolveTypeName_asks (ctx : ClassId) (name : QualifiedName) (range : Span) :
    s.Asks (s.resolveTypeName ctx name range) (lookupKeys ctx [name]) := by
  obtain ⟨segments⟩ := name
  match segments with
  | [] => exact .nothing (fun _ => rfl)
  | [simple] => exact resolveSimple_asks ctx simple range
  | first :: second :: others =>
    have hfirst : s.Asks (s.denotesType ctx first range) [(ctx, first)] :=
      .name (fun st => congrArg Prod.snd (denotesType_run ctx first range st))
    refine hfirst.andThen (fun isType st => ?_)
    cases isType with
    | true => rfl
    | false =>
      cases s.leadingTypeLength? ⟨first :: second :: others⟩ with
      | some count => rfl
      | none =>
        cases s.lookup ⟨first :: second :: others⟩ with
        | some id => rfl
        | none => rfl

theorem resolveType_asks (ctx : ClassId) (type : TypeSyntax) :
    s.Asks (s.resolveType ctx type) (lookupKeys ctx type.names) := by
  induction type with
  | primitive type => exact .nothing (fun _ => rfl)
  | named ref => exact (resolveTypeName_asks ctx ref.name ref.range).andThen (fun _ _ => rfl)
  | array element ih => exact ih.andThen (fun _ _ => rfl)

theorem call_asks (c : LookupCall) : s.Asks (s.call c) c.keys := by
  cases c with
  | lookupSimple ctx name range => exact .name (fun _ => rfl)
  | resolveSimple ctx name range => exact resolveSimple_asks ctx name range
  | resolveTypeName ctx name range => exact resolveTypeName_asks ctx name range
  | resolveType ctx type => exact resolveType_asks ctx type

/-! ## §4 Lists of questions -/

/-- Afterwards the names that were asked for are remembered. -/
theorem afterCalls_recorded (calls : List LookupCall) {st : LookupState} (hst : s.Recorded st) :
    s.Recorded (s.afterCalls calls st) ∧
    ∀ key, (s.afterCalls calls st).Knows key ↔ st.Knows key ∨ ∃ c ∈ calls, key ∈ c.keys := by
  induction calls generalizing st with
  | nil => exact ⟨hst, fun key => (or_iff_left (fun ⟨_, h, _⟩ => List.not_mem_nil h)).symm⟩
  | cons c calls ih =>
    obtain ⟨hfirst, hknows⟩ := (s.call_asks c).recorded hst
    obtain ⟨hlater, hknows'⟩ := ih hfirst
    refine ⟨hlater, fun key => (hknows' key).trans ?_⟩
    simp only [hknows, List.mem_cons, exists_eq_or_imp, or_assoc]

theorem afterCalls_sorted (calls : List LookupCall) {st : LookupState}
    (hst : st.usedPackages.Sorted) : (s.afterCalls calls st).usedPackages.Sorted := by
  induction calls generalizing st with
  | nil => exact hst
  | cons c calls ih => exact ih ((s.call_asks c).sorted hst)

/-- A package comes into use when one of the names asked for uses it. -/
theorem mem_usedPackages_afterCalls (calls : List LookupCall) (package : PackageName) :
    package ∈ (s.afterCalls calls {}).usedPackages.keys ↔
      ∃ c ∈ calls, ∃ key ∈ c.keys, package ∈ (s.findSimple key.1 key.2 {}).2 := by
  obtain ⟨hrecorded, hknows⟩ := s.afterCalls_recorded calls s.recorded_empty
  have hempty (key : ClassId × Name) : ¬ ({} : LookupState).Knows key := fun h => by cases h
  simp only [hrecorded.used, hknows, hempty, false_or]
  constructor
  · rintro ⟨key, ⟨c, hc, hkey⟩, hpackage⟩
    exact ⟨c, hc, key, hkey, hpackage⟩
  · rintro ⟨c, hc, key, hkey, hpackage⟩
    exact ⟨key, ⟨c, hc, hkey⟩, hpackage⟩

/-- After any questions, a question is answered as if it were the first one, but for the
place in a violation; the packages in use are those that the questions use one by one, so
that neither their order nor repetitions matter. -/
theorem calls_transparent (s : SymbolTable) (calls : List LookupCall) :
    (∀ c, Alike Violation.SameCause Eq (s.call c (s.afterCalls calls {})).1 (s.call c {}).1) ∧
    (∀ package, package ∈ (s.afterCalls calls {}).usedPackages.keys ↔
      ∃ c ∈ calls, package ∈ (s.call c {}).2.usedPackages.keys) ∧
    ∀ others, (∀ c, c ∈ others ↔ c ∈ calls) →
      (s.afterCalls others {}).usedPackages = (s.afterCalls calls {}).usedPackages := by
  have hfound := (s.afterCalls_recorded calls s.recorded_empty).1.found
  refine ⟨fun c => ?_, fun package => ?_, fun others hsame => ?_⟩
  · exact (s.call_repeats c _ _ ⟨hfound, s.answersFound_empty⟩).2
  · have hsingle (c : LookupCall) : package ∈ (s.call c {}).2.usedPackages.keys ↔
        ∃ key ∈ c.keys, package ∈ (s.findSimple key.1 key.2 {}).2 := by
      have honce := s.mem_usedPackages_afterCalls [c] package
      simp only [List.mem_singleton, exists_eq_left] at honce
      exact honce
    rw [mem_usedPackages_afterCalls]
    exact exists_congr (fun c => and_congr_right (fun _ => (hsingle c).symm))
  · refine OrderedMap.eq_of_mem_keys (s.afterCalls_sorted others OrderedMap.sorted_empty)
      (s.afterCalls_sorted calls OrderedMap.sorted_empty) (fun package => ?_)
    rw [mem_usedPackages_afterCalls, mem_usedPackages_afterCalls]
    exact exists_congr (fun c => and_congr_left (fun _ => hsame c))

/-- A class that imports two packages on demand, and by name a class of one of them and
itself. -/
def workshop : List CompilationUnit :=
  { imports := [.single (.single "Main") {}, .single (.ofDotted "left.Saw") {},
      .onDemand (.ofDotted "left") {}, .onDemand (.ofDotted "right") {}]
    decl := { kind := .classType, name := "Main" } } ::
  (["Saw", "Drill", "Nail"].map (fun name => Library.toUnit "left" (Library.classNamed name)) ++
    ["Saw", "Drill", "Bolt"].map (fun name => Library.toUnit "right" (Library.classNamed name)))

/-- A name that one of the packages supplies. -/
def workshopCall (name : Name) : LookupCall := .lookupSimple 0 name {}

/-- Two names bring both packages into use, in either order and with repetitions. -/
theorem workshop_calls : ∃ s, build workshop [] = .ok s ∧
    (s.afterCalls [workshopCall "Nail", workshopCall "Bolt"] {}).usedPackages.keys =
      [.ofDotted "left", .ofDotted "right"] ∧
    (s.afterCalls [workshopCall "Bolt", workshopCall "Nail", workshopCall "Bolt"] {}).usedPackages =
      (s.afterCalls [workshopCall "Nail", workshopCall "Bolt"] {}).usedPackages := by
  obtain ⟨s, hbuild, htest⟩ := exists_build workshop [] (fun s => decide (
    (s.afterCalls [workshopCall "Nail", workshopCall "Bolt"] {}).usedPackages.keys =
      [.ofDotted "left", .ofDotted "right"])) (by decide +kernel)
  refine ⟨s, hbuild, of_decide_eq_true htest, (s.calls_transparent _).2.2 _ (fun c => ?_)⟩
  simp only [List.mem_cons, List.not_mem_nil, or_false]
  tauto

end SymbolTable

end JoosStatics
