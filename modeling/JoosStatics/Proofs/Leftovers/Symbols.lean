/-
JoosStatics.Proofs.Leftovers.Symbols — arenas with nodes that belong to no
member.

What builds an arena may leave nodes in it that no member reaches. Here such
leftovers stand behind the other nodes, which keep their positions. The trees of
the members are then those of before (`initializerTree?_withLeftovers` and its
like). Nothing that is known about names depends on an arena, so imports are judged
and simple names looked up by the same computations.
-/
import JoosStatics.Linking.Lookup
import JoosStatics.Bodies.Members
import JoosStatics.Proofs.Linking.Symbols
import JoosStatics.Proofs.StatefulRuns
import JoosStatics.Proofs.Syntax.Reaching

namespace JoosStatics

/-! ## §1 Arenas and declarations -/

namespace BodyArena

/-- The arena with leftover nodes behind its own. -/
def withLeftovers (a leftovers : BodyArena) : BodyArena where
  stmts := a.stmts ++ leftovers.stmts
  exprs := a.exprs ++ leftovers.exprs

variable (a leftovers : BodyArena)

@[simp] theorem withLeftovers_empty : a.withLeftovers {} = a := by
  simp [withLeftovers]

theorem grows_withLeftovers : a.Grows (a.withLeftovers leftovers) where
  stmt hnode := by
    obtain ⟨hid, -⟩ := Array.getElem?_eq_some_iff.mp hnode
    rwa [withLeftovers, Array.getElem?_append_left hid]
  expr hnode := by
    obtain ⟨hid, -⟩ := Array.getElem?_eq_some_iff.mp hnode
    rwa [withLeftovers, Array.getElem?_append_left hid]

/-- A node stays in bounds in a later arena. -/
theorem Grows.hasNode {a a' : BodyArena} (h : a.Grows a') {n : NodeId}
    (hn : a.hasNode n = true) : a'.hasNode n = true := by
  have hstmts := h.stmts_size_le
  have hexprs := h.exprs_size_le
  cases n with
  | stmt id =>
    have hid : id < a.stmts.size := by simpa [BodyArena.hasNode, hasStmt] using hn
    exact decide_eq_true (Nat.lt_of_lt_of_le hid hstmts)
  | expr id =>
    have hid : id < a.exprs.size := by simpa [BodyArena.hasNode, hasExpr] using hn
    exact decide_eq_true (Nat.lt_of_lt_of_le hid hexprs)

theorem AreDistinct.grows {a a' : BodyArena} {nodes : List NodeId} (hnodes : a.AreDistinct nodes)
    (h : a.Grows a') : a'.AreDistinct nodes where
  nodup := hnodes.nodup
  inBounds n hn := h.hasNode (hnodes.inBounds n hn)
  notSeen := hnodes.notSeen

end BodyArena

namespace TypeDecl

/-- The declaration with leftover nodes in its arena. -/
def withLeftovers (d : TypeDecl) (leftovers : BodyArena) : TypeDecl :=
  { d with bodies := d.bodies.withLeftovers leftovers }

@[simp] theorem withLeftovers_empty (d : TypeDecl) : d.withLeftovers {} = d := by
  simp [withLeftovers]

variable {d : TypeDecl} (h : d.isWellFormed = true) (leftovers : BodyArena)
include h

/-- Leftovers whose positions are in bounds leave a declaration well-formed: the trees of
the members stay where they are. -/
theorem isWellFormed_withLeftovers
    (hbounds : (d.bodies.withLeftovers leftovers).isWellFormed = true) :
    (d.withLeftovers leftovers).isWellFormed = true := by
  obtain ⟨ss, es, hss, hes, hdistinct⟩ := exists_trees h
  have hgrows := d.bodies.grows_withLeftovers leftovers
  exact isWellFormed_of_trees hbounds (hss.imp (fun _ _ => hgrows.stmt?))
    (hes.imp (fun _ _ => hgrows.expr?)) (hdistinct.grows hgrows)

theorem stmt?_withLeftovers {root : StmtId} (hroot : root ∈ d.stmtRoots) :
    (d.bodies.withLeftovers leftovers).stmt? root = d.bodies.stmt? root := by
  obtain ⟨s, hs, -⟩ := exists_stmt h hroot
  rw [hs]
  exact (d.bodies.grows_withLeftovers leftovers).stmt? hs

theorem expr?_withLeftovers {root : ExprId} (hroot : root ∈ d.exprRoots) :
    (d.bodies.withLeftovers leftovers).expr? root = d.bodies.expr? root := by
  obtain ⟨e, he, -⟩ := exists_expr h hroot
  rw [he]
  exact (d.bodies.grows_withLeftovers leftovers).expr? he

theorem initializerTree?_withLeftovers (index : Nat) :
    (d.withLeftovers leftovers).initializerTree? index = d.initializerTree? index := by
  refine Option.bind_congr (fun field hfield => Option.bind_congr (fun root hroot => ?_))
  exact expr?_withLeftovers h leftovers
    (List.mem_filterMap.mpr ⟨field, List.mem_of_getElem? hfield, hroot⟩)

theorem methodTree?_withLeftovers (index : Nat) :
    (d.withLeftovers leftovers).methodTree? index = d.methodTree? index := by
  refine Option.bind_congr (fun method hmethod => Option.bind_congr (fun root hroot => ?_))
  exact stmt?_withLeftovers h leftovers (List.mem_append_right _
    (List.mem_filterMap.mpr ⟨method, List.mem_of_getElem? hmethod, hroot⟩))

theorem constructorTree?_withLeftovers (index : Nat) :
    (d.withLeftovers leftovers).constructorTree? index = d.constructorTree? index := by
  refine Option.bind_congr (fun constructor hconstructor => ?_)
  exact stmt?_withLeftovers h leftovers (List.mem_append_left _
    (List.mem_map_of_mem (List.mem_of_getElem? hconstructor)))

end TypeDecl

/-! ## §2 Symbol tables -/

/-- The unit with leftover nodes in its arena. -/
def CompilationUnit.withLeftovers (u : CompilationUnit) (leftovers : BodyArena) :
    CompilationUnit :=
  { u with decl := u.decl.withLeftovers leftovers }

@[simp] theorem CompilationUnit.withLeftovers_empty (u : CompilationUnit) :
    u.withLeftovers {} = u := by
  simp [withLeftovers]

/-- Units with leftover nodes, given for each position. -/
def leaveIn (leftovers : Nat → BodyArena) (units : List CompilationUnit) : List CompilationUnit :=
  units.mapIdx (fun index unit => unit.withLeftovers (leftovers index))

namespace SymbolTable

/-- The same units with leftover nodes in their arenas. -/
def withLeftovers (s : SymbolTable) (leftovers : ClassId → BodyArena) : SymbolTable :=
  { s with units := s.units.mapIdx (fun id unit => unit.withLeftovers (leftovers id)) }

section Build

variable (leftovers : ClassId → BodyArena)

theorem add_withLeftovers (s : SymbolTable) (unit : CompilationUnit) :
    Alike Eq (fun s s' => s' = s.withLeftovers leftovers) (s.add unit)
      ((s.withLeftovers leftovers).add (unit.withLeftovers (leftovers s.size))) := by
  have hsame : (s.withLeftovers leftovers).byName.contains
      (unit.withLeftovers (leftovers s.size)).typeName = s.byName.contains unit.typeName := rfl
  unfold add
  simp only [hsame]
  split
  · exact .error rfl
  · refine .ok ?_
    simp only [withLeftovers, size, Array.mapIdx_push, Array.size_mapIdx]
    rfl

theorem addAll_withLeftovers (s : SymbolTable) (units : List CompilationUnit) :
    Alike Eq (fun s s' => s' = s.withLeftovers leftovers) (s.addAll units)
      ((s.withLeftovers leftovers).addAll
        (leaveIn (fun index => leftovers (s.size + index)) units)) := by
  induction units generalizing s with
  | nil => exact .ok rfl
  | cons unit units ih =>
    rw [leaveIn, List.mapIdx_cons]
    have hadd := add_withLeftovers leftovers s unit
    unfold addAll
    rcases hadd.outcomes with ⟨v, _, hrun, hrun', rfl⟩ | ⟨added, _, hrun, hrun', rfl⟩
    · simp only [hrun, Nat.add_zero, hrun']
      exact .error rfl
    · have hnext := ih added
      have hsize : added.size = s.size + 1 := size_of_units_push (add_eq_ok hrun).2.1
      simp only [hsize, Nat.add_assoc, Nat.add_comm 1] at hnext
      simp only [hrun, Nat.add_zero, hrun']
      exact hnext

/-- The tables of two programs that differ in leftovers only do so, too. -/
theorem build_withLeftovers (program library : List CompilationUnit)
    (hlibrary : ∀ id, program.length ≤ id → leftovers id = {}) :
    Alike Eq (fun s s' => s' = s.withLeftovers leftovers) (build program library)
      (build (leaveIn leftovers program) library) := by
  have hall := addAll_withLeftovers leftovers { programSize := program.length }
    (program ++ library)
  have hunits : leaveIn (fun index => leftovers (0 + index)) (program ++ library) =
      leaveIn leftovers program ++ library := by
    have hrest : library.mapIdx (fun index unit =>
        unit.withLeftovers (leftovers (index + program.length))) = library := by
      refine List.ext_getElem (by simp) (fun index _ _ => ?_)
      rw [List.getElem_mapIdx, hlibrary _ (Nat.le_add_left ..),
        CompilationUnit.withLeftovers_empty]
    simp only [leaveIn, Nat.zero_add, List.mapIdx_append, hrest]
  have hempty : ({ programSize := program.length } : SymbolTable).withLeftovers leftovers =
      { programSize := (leaveIn leftovers program).length } := by
    simp [withLeftovers, leaveIn]
  unfold build
  rw [← hempty, ← hunits]
  exact hall

end Build

/-! ## §3 Lookups -/

section Lookups

variable {s : SymbolTable} {leftovers : ClassId → BodyArena}

@[simp] theorem ids_withLeftovers : (s.withLeftovers leftovers).ids = s.ids := by
  simp [ids, size, withLeftovers]

theorem programIds_withLeftovers : (s.withLeftovers leftovers).programIds = s.programIds := rfl

variable (hbound : ∀ id, s.size ≤ id → leftovers id = {})
include hbound

theorem unitAt_withLeftovers (id : ClassId) :
    (s.withLeftovers leftovers).unitAt id = (s.unitAt id).withLeftovers (leftovers id) := by
  unfold unitAt withLeftovers
  rw [Array.getD_eq_getD_getElem?, Array.getD_eq_getD_getElem?, Array.getElem?_mapIdx]
  cases hunit : s.units[id]? with
  | some unit => rfl
  | none =>
    rw [hbound id (Array.getElem?_eq_none_iff.mp hunit)]
    simp

theorem locate_withLeftovers : (s.withLeftovers leftovers).locate = s.locate := by
  funext id range
  unfold locate
  rw [unitAt_withLeftovers hbound]
  rfl

theorem importsOf_withLeftovers : (s.withLeftovers leftovers).importsOf = s.importsOf := by
  funext id
  unfold importsOf
  rw [unitAt_withLeftovers hbound]
  rfl

theorem checkSingleImports_withLeftovers (id : ClassId) (earlier imports : List SingleImport) :
    (s.withLeftovers leftovers).checkSingleImports id earlier imports =
      s.checkSingleImports id earlier imports := by
  induction imports generalizing earlier with
  | nil => rfl
  | cons imp rest ih =>
    unfold checkSingleImports
    simp only [unitAt_withLeftovers hbound, locate_withLeftovers hbound, ih]
    rfl

theorem checkOnDemandImports_withLeftovers (id : ClassId) (imports : List OnDemandImport) :
    (s.withLeftovers leftovers).checkOnDemandImports id imports =
      s.checkOnDemandImports id imports := by
  induction imports with
  | nil => rfl
  | cons imp rest ih =>
    unfold checkOnDemandImports
    simp only [locate_withLeftovers hbound, ih]
    rfl

theorem checkImports_withLeftovers (id : ClassId) :
    (s.withLeftovers leftovers).checkImports id = s.checkImports id := by
  unfold checkImports
  rw [importsOf_withLeftovers hbound, checkSingleImports_withLeftovers hbound,
    checkOnDemandImports_withLeftovers hbound]

theorem findImported_withLeftovers :
    (s.withLeftovers leftovers).findImported = s.findImported := by
  funext ctx name range first others
  unfold findImported
  rw [locate_withLeftovers hbound]
  rfl

theorem typeName_withLeftovers (id : ClassId) :
    ((s.withLeftovers leftovers).unitAt id).typeName = (s.unitAt id).typeName := by
  rw [unitAt_withLeftovers hbound]
  rfl

theorem findSimple_withLeftovers : (s.withLeftovers leftovers).findSimple = s.findSimple := by
  funext ctx name range
  have hhits : (s.withLeftovers leftovers).onDemandHits = s.onDemandHits := by
    funext ctx name
    unfold onDemandHits
    rw [importsOf_withLeftovers hbound]
    rfl
  unfold findSimple
  simp only [typeName_withLeftovers hbound, hhits, importsOf_withLeftovers hbound,
    findImported_withLeftovers hbound, locate_withLeftovers hbound,
    unitAt_withLeftovers hbound ctx]
  rfl

theorem lookupSimple_withLeftovers :
    (s.withLeftovers leftovers).lookupSimple = s.lookupSimple := by
  funext ctx name range
  unfold lookupSimple
  rw [findSimple_withLeftovers hbound]

end Lookups

end SymbolTable

end JoosStatics
