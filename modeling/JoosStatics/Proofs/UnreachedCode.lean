/-
JoosStatics.Proofs.UnreachedCode — nodes that no member reaches.

An arena may hold more than the bodies of the members. Such leftovers do not change
what the analysis reports, as long as the types written in them resolve without
leaving a trace: linking resolves every type in an arena, by design, and so it
rejects a program for a missing type that no member mentions.

* `Analysis.run_leaveIn` — one program with leftovers, stage by stage.
* `report_withLeftovers` — accepted, or rejected for the same violations.
* `unreached_cast_rejected` — a leftover that names no type.
-/
import JoosStatics.Proofs.Analysis
import JoosStatics.Proofs.Leftovers.Bodies

namespace JoosStatics

/-! ## §1 Programs with leftovers -/

/-- The program with leftover nodes in its units, given for each unit. -/
def Program.withLeftovers (p : Program) (leftovers : Nat → BodyArena) : Program where
  units := leaveIn leftovers p.units

/-- What a verdict reports. -/
inductive Verdict.Report where
  | accepted
  | rejected (rejection : Rejection)
  | malformed (type : QualifiedName)
  deriving DecidableEq, Repr

/-- What a verdict reports, the results for an accepted program aside. -/
def Verdict.report : Verdict → Verdict.Report
  | .accepted _ => .accepted
  | .rejected rejection => .rejected rejection
  | .malformed type => .malformed type

/-! ## §2 The stages -/

/-- The stages come to the same end whatever is left over in the units. -/
theorem Analysis.run_leaveIn {program library : List CompilationUnit}
    (hwf : ∀ unit ∈ program, unit.decl.isWellFormed = true) {leftovers : Nat → BodyArena}
    (hbound : ∀ index, program.length ≤ index → leftovers index = {})
    (hquiet : ∀ s, SymbolTable.build program library = .ok s → ∀ id,
      ∀ type ∈ (leftovers id).writtenTypes, s.ResolvesQuietly id type) (collectAll : Bool) :
    Alike Eq (fun _ _ => True) (Analysis.run program library collectAll)
      (Analysis.run (leaveIn leftovers program) library collectAll) := by
  have hbuild := SymbolTable.build_withLeftovers leftovers program library hbound
  unfold Analysis.run
  rcases hbuild.outcomes with ⟨v, _, hs, hs', rfl⟩ | ⟨s, _, hs, hs', rfl⟩
  · rw [hs, hs']
    exact .error rfl
  obtain ⟨-, hunits, hsize⟩ := SymbolTable.build_spec hs
  have hbound' (id : ClassId) (hid : s.size ≤ id) : leftovers id = {} := by
    refine hbound id (Nat.le_trans ?_ hid)
    rw [← hsize]
    exact SymbolTable.build_programSize_le hs
  have hlink := SymbolTable.link_withLeftovers hbound' (fun id _ => hquiet s hs id)
  rw [hs, hs']
  show Alike _ _ (Analysis.single .linking s.link >>= _)
    (Analysis.single .linking (s.withLeftovers leftovers).link >>= _)
  refine .bind (hlink.single (fun _ _ heq => by rw [heq])) ?_
  rintro l l' ⟨rfl, hl⟩
  have hwf' : ∀ id ∈ l.symbols.programIds, (l.symbols.unitAt id).decl.isWellFormed = true :=
    fun id hid => hwf _ (SymbolTable.build_unitAt_mem hs (List.mem_range.mp hid))
  rw [hl.table]
  refine .bind (.refl _) ?_
  rintro h _ rfl
  refine .bind ((hl.checkBodies hwf' collectAll).several (fun _ _ heq => by rw [heq])) ?_
  intro facts later hfacts
  rw [hl.checkFlow hwf' hfacts]
  exact .bind (.refl _) (fun _ _ _ => .ok trivial)

/-! ## §3 Reports -/

/-- Leftovers count in units only. -/
theorem leaveIn_congr {units : List CompilationUnit} {leftovers others : Nat → BodyArena}
    (h : ∀ index < units.length, leftovers index = others index) :
    leaveIn leftovers units = leaveIn others units := by
  refine List.ext_getElem (by simp [leaveIn]) (fun index hindex _ => ?_)
  have hlt : index < units.length := by simpa [leaveIn] using hindex
  simp [leaveIn, h index hlt]

/-- Leftovers whose positions are in bounds leave a program well-formed. -/
theorem Program.malformedUnit?_withLeftovers {p : Program} {leftovers : Nat → BodyArena}
    (hwf : ∀ unit ∈ p.units, unit.decl.isWellFormed = true)
    (hbounds : ∀ unit ∈ (p.withLeftovers leftovers).units,
      unit.decl.bodies.isWellFormed = true) :
    (p.withLeftovers leftovers).malformedUnit? = none := by
  refine List.find?_eq_none.mpr (fun unit hunit => ?_)
  have hunit' := hbounds unit hunit
  obtain ⟨index, hindex, rfl⟩ := List.mem_mapIdx.mp hunit
  have hdecl : (p.units[index].withLeftovers (leftovers index)).decl.isWellFormed = true :=
    TypeDecl.isWellFormed_withLeftovers (hwf _ (List.getElem_mem hindex)) (leftovers index) hunit'
  simp [hdecl]

/-- Code that no member reaches does not decide what is reported, as long as the types
written in it resolve without a trace. -/
theorem report_withLeftovers {p : Program} {c : Configuration} {leftovers : Nat → BodyArena}
    (hwf : ∀ unit ∈ p.units, unit.decl.isWellFormed = true)
    (hbounds : ∀ unit ∈ (p.withLeftovers leftovers).units,
      unit.decl.bodies.isWellFormed = true)
    (hquiet : ∀ s, SymbolTable.build p.units c.library = .ok s → ∀ id < p.units.length,
      ∀ type ∈ (leftovers id).writtenTypes, s.ResolvesQuietly id type) :
    (analyze (p.withLeftovers leftovers) c).report = (analyze p c).report := by
  have hmalformed : p.malformedUnit? = none :=
    List.find?_eq_none.mpr (fun unit hunit => by simp [hwf unit hunit])
  have hmalformed' := Program.malformedUnit?_withLeftovers hwf hbounds
  -- Only what is left over in units counts; past them, nothing is.
  let inUnits (index : Nat) : BodyArena := if index < p.units.length then leftovers index else {}
  have hunits : (p.withLeftovers leftovers).units = leaveIn inUnits p.units :=
    leaveIn_congr (fun index hindex => (if_pos hindex).symm)
  have hbound (index : Nat) (hindex : p.units.length ≤ index) : inUnits index = {} :=
    if_neg (Nat.not_lt.mpr hindex)
  have hquiet' (s : SymbolTable) (hs : SymbolTable.build p.units c.library = .ok s) (id : ClassId)
      (type : TypeSyntax) (htype : type ∈ (inUnits id).writtenTypes) :
      s.ResolvesQuietly id type := by
    by_cases hid : id < p.units.length
    · rw [show inUnits id = leftovers id from if_pos hid] at htype
      exact hquiet s hs id hid type htype
    · rw [hbound id (Nat.not_lt.mp hid)] at htype
      cases htype
  unfold analyze
  rw [hmalformed, hmalformed', hunits]
  rcases (Analysis.run_leaveIn hwf hbound hquiet' c.collectAll).outcomes with
    ⟨r, _, hr, hr', rfl⟩ | ⟨a, a', ha, ha', -⟩
  · rw [hr, hr']
  · rw [ha, ha']
    rfl

/-- A class whose only method does nothing. -/
def idle : Program :=
  { units := unitsOf [{ Library.classNamed "Main" with
      methods := [{ Library.procedure "run" with body := some [.empty ()] }] }] ++ coreUnits }

/-- A cast to a type, left over in the first unit. -/
def castLeftIn (type : String) : Nat → BodyArena
  | 0 => { exprs := #[⟨.literal .null, {}⟩, ⟨.cast (.named (.ofDotted type)) 0, {}⟩] }
  | _ => {}

theorem idle_with_string_cast :
    (∀ unit ∈ idle.units, unit.decl.isWellFormed = true) ∧
    (∀ unit ∈ (idle.withLeftovers (castLeftIn "String")).units,
      unit.decl.bodies.isWellFormed = true) ∧
    (analyze (idle.withLeftovers (castLeftIn "String")) { includeStdlib := false }).report =
      .accepted := by
  have hwf : ∀ unit ∈ idle.units, unit.decl.isWellFormed = true := by decide +kernel
  have hbounds : ∀ unit ∈ (idle.withLeftovers (castLeftIn "String")).units,
      unit.decl.bodies.isWellFormed = true := by
    decide +kernel
  have hquiet : ∀ s, SymbolTable.build idle.units
      (Configuration.library { includeStdlib := false }) = .ok s → ∀ id < idle.units.length,
      ∀ type ∈ (castLeftIn "String" id).writtenTypes, s.ResolvesQuietly id type := by
    intro s hs id _ type htype
    obtain ⟨_, hs', htest⟩ := SymbolTable.exists_build idle.units
      (Configuration.library { includeStdlib := false })
      (fun s => (castLeftIn "String" 0).writtenTypes.all (s.findsQuietly 0)) (by decide +kernel)
    obtain rfl := Except.ok.inj (hs.symm.trans hs')
    cases id with
    | zero => exact SymbolTable.resolvesQuietly_of_finds (List.all_eq_true.mp htest type htype)
    | succ id => cases htype
  have haccepted : (analyze idle { includeStdlib := false }).report = .accepted := by
    decide +kernel
  exact ⟨hwf, hbounds, (report_withLeftovers hwf hbounds hquiet).trans haccepted⟩

/-- Linking rejects a program for a type that does not exist, even where no member
mentions it. -/
theorem unreached_cast_rejected :
    (∀ unit ∈ idle.units, unit.decl.isWellFormed = true) ∧
    (∀ unit ∈ (idle.withLeftovers (castLeftIn "Missing")).units,
      unit.decl.bodies.isWellFormed = true) ∧
    (analyze idle { includeStdlib := false }).report = .accepted ∧
    (analyze (idle.withLeftovers (castLeftIn "Missing")) { includeStdlib := false }).report =
      .rejected ⟨.linking, [{
        cause := .typeNotFound "Missing"
        location := (Location.ofType "Main").atSpan {} }]⟩ := by
  decide +kernel

end JoosStatics
