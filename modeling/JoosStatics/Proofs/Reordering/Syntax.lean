/-
JoosStatics.Proofs.Reordering.Syntax — programs with their declarations in
another order.

`Program.Reorders` permutes the units of a program and, inside each unit,
its imports, fields, constructors and methods. §1 keeps track of where an
item of a list stands afterwards. §3 is about validation: which nodes a
walk over an arena visits does not depend on the order in which the roots
are pending (`visitsOnce_iff`), so a declaration stays well formed
(`TypeDecl.Reorders.isWellFormed_eq`).
-/
import JoosStatics.Syntax.Unit
import Mathlib.Data.List.Nodup
import Mathlib.Data.List.Perm.Basic
import Mathlib.Logic.Equiv.Basic

namespace JoosStatics

/-! ## §1 Places in a list -/

section Places

variable {α β : Type} {σ τ : Equiv.Perm Nat} {xs ys zs : List α}

/-- The second list has the items of the first one in the places that a rearrangement
of places gives them. -/
structure Rearranges (σ : Equiv.Perm Nat) (xs ys : List α) : Prop where
  perm : xs.Perm ys
  getElem? : ∀ i, ys[σ i]? = xs[i]?
  outside : ∀ i, xs.length ≤ i → σ i = i

/-- The rearrangement of all places but the first. -/
def afterFirst (σ : Equiv.Perm Nat) : Equiv.Perm Nat where
  toFun
    | 0 => 0
    | i + 1 => σ i + 1
  invFun
    | 0 => 0
    | i + 1 => σ.symm i + 1
  left_inv := by rintro (_ | i) <;> simp
  right_inv := by rintro (_ | i) <;> simp

namespace Rearranges

theorem refl (xs : List α) : Rearranges (Equiv.refl Nat) xs xs :=
  ⟨.refl xs, fun _ => rfl, fun _ _ => rfl⟩

theorem afterFirst (h : Rearranges σ xs ys) (x : α) :
    Rearranges (afterFirst σ) (x :: xs) (x :: ys) where
  perm := h.perm.cons x
  getElem? i := by
    cases i with
    | zero => rfl
    | succ i => exact h.getElem? i
  outside i hi := by
    cases i with
    | zero => rfl
    | succ i => exact congrArg (· + 1) (h.outside i (Nat.le_of_succ_le_succ hi))

theorem swap (x y : α) (xs : List α) :
    Rearranges (Equiv.swap 0 1) (x :: y :: xs) (y :: x :: xs) where
  perm := .swap y x xs
  getElem? i := by
    match i with
    | 0 => simp
    | 1 => simp
    | i + 2 =>
      rw [Equiv.swap_apply_of_ne_of_ne (Nat.succ_ne_zero _) (by omega)]
      rfl
  outside i hi := by
    have hi : 2 ≤ i := Nat.le_trans (by simp) hi
    exact Equiv.swap_apply_of_ne_of_ne (by omega) (by omega)

theorem trans (h : Rearranges σ xs ys) (h' : Rearranges τ ys zs) :
    Rearranges (σ.trans τ) xs zs where
  perm := h.perm.trans h'.perm
  getElem? i := (h'.getElem? (σ i)).trans (h.getElem? i)
  outside i hi := by
    rw [Equiv.trans_apply, h.outside i hi, h'.outside i (h.perm.length_eq ▸ hi)]

/-- A place is in bounds before exactly when it is so afterwards. -/
theorem lt_length_iff (h : Rearranges σ xs ys) (i : Nat) : σ i < xs.length ↔ i < xs.length := by
  have hnone : ys.length ≤ σ i ↔ xs.length ≤ i := by
    rw [← List.getElem?_eq_none_iff, ← List.getElem?_eq_none_iff, h.getElem?]
  rw [← h.perm.length_eq] at hnone
  omega

/-- The places in bounds are rearranged among themselves. -/
theorem range_perm (h : Rearranges σ xs ys) :
    (List.range ys.length).Perm ((List.range xs.length).map σ) := by
  refine (List.perm_ext_iff_of_nodup List.nodup_range
    (List.nodup_range.map σ.injective)).mpr (fun i => ?_)
  have hi := h.lt_length_iff (σ.symm i)
  rw [σ.apply_symm_apply] at hi
  rw [List.mem_range, ← h.perm.length_eq, hi, List.mem_map]
  constructor
  · exact fun hlt => ⟨σ.symm i, List.mem_range.mpr hlt, σ.apply_symm_apply i⟩
  · rintro ⟨j, hj, rfl⟩
    rw [σ.symm_apply_apply]
    exact List.mem_range.mp hj

/-- Nothing is rearranged when there is nothing to rearrange. -/
theorem eq_refl (h : Rearranges σ [] ys) : σ = Equiv.refl Nat :=
  Equiv.ext (fun i => h.outside i (Nat.zero_le i))

theorem map (h : Rearranges σ xs ys) (f : α → β) : Rearranges σ (xs.map f) (ys.map f) where
  perm := h.perm.map f
  getElem? i := by rw [List.getElem?_map, List.getElem?_map, h.getElem?]
  outside i hi := h.outside i (List.length_map f ▸ hi)

/-- Items that follow stay where they are. -/
theorem append_right (h : Rearranges σ xs ys) (zs : List α) :
    Rearranges σ (xs ++ zs) (ys ++ zs) where
  perm := h.perm.append_right zs
  getElem? i := by
    have hlength := h.perm.length_eq
    by_cases hi : i < xs.length
    · rw [List.getElem?_append_left hi, List.getElem?_append_left, h.getElem?]
      rw [← hlength]
      exact (h.lt_length_iff i).mpr hi
    · have hle := Nat.le_of_not_lt hi
      rw [h.outside i hle, List.getElem?_append_right hle,
        List.getElem?_append_right (hlength ▸ hle), hlength]
  outside i hi := h.outside i (Nat.le_trans (by simp) hi)

end Rearranges

/-- Lists with the same items can be rearranged into each other. -/
theorem exists_rearranges (h : xs.Perm ys) : ∃ σ, Rearranges σ xs ys := by
  induction h with
  | nil => exact ⟨_, .refl _⟩
  | cons x _ ih =>
    obtain ⟨σ, hσ⟩ := ih
    exact ⟨_, hσ.afterFirst x⟩
  | swap x y xs => exact ⟨_, .swap y x xs⟩
  | trans _ _ ih ih' =>
    obtain ⟨σ, hσ⟩ := ih
    obtain ⟨τ, hτ⟩ := ih'
    exact ⟨_, hσ.trans hτ⟩

end Places

/-! ## §2 Reordered programs -/

/-- The same declaration with its members in another order. -/
structure TypeDecl.Reorders (d d' : TypeDecl) : Prop where
  fields : d.fields.Perm d'.fields
  constructors : d.constructors.Perm d'.constructors
  methods : d.methods.Perm d'.methods
  others : d' =
    { d with fields := d'.fields, constructors := d'.constructors, methods := d'.methods }

/-- The same unit with its imports and its members in another order. -/
structure CompilationUnit.Reorders (u u' : CompilationUnit) : Prop where
  imports : u.imports.Perm u'.imports
  decl : u.decl.Reorders u'.decl
  others : u' = { u with imports := u'.imports, decl := u'.decl }

/-- The same program with its units, and the parts of each unit, in another order. -/
def Program.Reorders (p p' : Program) : Prop :=
  ∃ units, p.units.Perm units ∧ List.Forall₂ CompilationUnit.Reorders units p'.units

namespace TypeDecl.Reorders

variable {d d' : TypeDecl}

theorem refl (d : TypeDecl) : d.Reorders d := ⟨.refl _, .refl _, .refl _, rfl⟩

theorem symm (h : d.Reorders d') : d'.Reorders d where
  fields := h.fields.symm
  constructors := h.constructors.symm
  methods := h.methods.symm
  others := by
    have hothers := h.others
    cases d
    cases d'
    simp_all

variable (h : d.Reorders d')
include h

theorem kind : d'.kind = d.kind := by rw [h.others]

theorem name : d'.name = d.name := by rw [h.others]

theorem modifiers : d'.modifiers = d.modifiers := by rw [h.others]

theorem superclass : d'.superclass = d.superclass := by rw [h.others]

theorem interfaces : d'.interfaces = d.interfaces := by rw [h.others]

theorem bodies : d'.bodies = d.bodies := by rw [h.others]

theorem range : d'.range = d.range := by rw [h.others]

theorem isInterface : d'.isInterface = d.isInterface := by
  unfold TypeDecl.isInterface
  rw [h.kind]

end TypeDecl.Reorders

namespace CompilationUnit.Reorders

variable {u u' : CompilationUnit}

theorem refl (u : CompilationUnit) : u.Reorders u := ⟨.refl _, .refl _, rfl⟩

theorem symm (h : u.Reorders u') : u'.Reorders u where
  imports := h.imports.symm
  decl := h.decl.symm
  others := by
    have hothers := h.others
    cases u
    cases u'
    simp_all

theorem packageName (h : u.Reorders u') : u'.packageName = u.packageName := by
  rw [h.others]
  rfl

theorem typeName (h : u.Reorders u') : u'.typeName = u.typeName := by
  unfold CompilationUnit.typeName
  rw [h.packageName, h.decl.name]

end CompilationUnit.Reorders

theorem Program.Reorders.symm {p p' : Program} (h : p.Reorders p') : p'.Reorders p := by
  obtain ⟨units, hperm, hunits⟩ := h
  have hback : List.Forall₂ CompilationUnit.Reorders p'.units units :=
    hunits.flip.imp (fun _ _ h => h.symm)
  have hcomp : Relation.Comp (List.Forall₂ CompilationUnit.Reorders) List.Perm p'.units p.units :=
    ⟨units, hback, hperm.symm⟩
  rw [List.forall₂_comp_perm_eq_perm_comp_forall₂] at hcomp
  obtain ⟨units', hperm', hunits'⟩ := hcomp
  exact ⟨units', hperm', hunits'⟩

/-! ## §3 Validation -/

namespace BodyArena

variable {a : BodyArena} {stmts stmts' : List StmtId} {exprs exprs' : List ExprId}
  {seenStmts : List StmtId} {seenExprs : List ExprId} {visitedStmts visitedStmts' : List StmtId}
  {visitedExprs visitedExprs' : List ExprId}

/-- Distinct new nodes that consist of the pending ones and of the parts of all of
them. -/
structure Visits (a : BodyArena) (stmts : List StmtId) (exprs : List ExprId)
    (seenStmts : List StmtId) (seenExprs : List ExprId) (visitedStmts : List StmtId)
    (visitedExprs : List ExprId) : Prop where
  nodup_stmts : visitedStmts.Nodup
  nodup_exprs : visitedExprs.Nodup
  new_stmts : ∀ id ∈ visitedStmts, id ∉ seenStmts
  new_exprs : ∀ id ∈ visitedExprs, id ∉ seenExprs
  stmts : visitedStmts.Perm (stmts ++ visitedStmts.flatMap a.stmtChildrenOf)
  exprs : visitedExprs.Perm
    (exprs ++ (visitedStmts.flatMap a.stmtOperandsOf ++ visitedExprs.flatMap a.operandsOf))

namespace Visits

theorem congr (h : a.Visits stmts exprs seenStmts seenExprs visitedStmts visitedExprs)
    (hstmts : stmts.Perm stmts') (hexprs : exprs.Perm exprs')
    (hvisitedStmts : visitedStmts.Perm visitedStmts')
    (hvisitedExprs : visitedExprs.Perm visitedExprs') :
    a.Visits stmts' exprs' seenStmts seenExprs visitedStmts' visitedExprs' where
  nodup_stmts := hvisitedStmts.nodup_iff.mp h.nodup_stmts
  nodup_exprs := hvisitedExprs.nodup_iff.mp h.nodup_exprs
  new_stmts id hid := h.new_stmts id (hvisitedStmts.mem_iff.mpr hid)
  new_exprs id hid := h.new_exprs id (hvisitedExprs.mem_iff.mpr hid)
  stmts := hvisitedStmts.symm.trans (h.stmts.trans (hstmts.append (hvisitedStmts.flatMap_right _)))
  exprs := hvisitedExprs.symm.trans (h.exprs.trans (hexprs.append
    ((hvisitedStmts.flatMap_right _).append (hvisitedExprs.flatMap_right _))))

/-- One statement is visited before the others. -/
theorem cons_stmt_iff {id : StmtId} :
    a.Visits (id :: stmts) exprs seenStmts seenExprs (id :: visitedStmts) visitedExprs ↔
      id ∉ seenStmts ∧ a.Visits (a.stmtChildrenOf id ++ stmts) (a.stmtOperandsOf id ++ exprs)
        (id :: seenStmts) seenExprs visitedStmts visitedExprs := by
  have hstmts : (id :: visitedStmts).Perm
      (id :: stmts ++ (id :: visitedStmts).flatMap a.stmtChildrenOf) ↔
      visitedStmts.Perm
        (a.stmtChildrenOf id ++ stmts ++ visitedStmts.flatMap a.stmtChildrenOf) := by
    rw [List.flatMap_cons, List.cons_append, List.perm_cons, ← List.append_assoc]
    exact (List.perm_append_comm.append_right _).congr_right _
  have hexprs : visitedExprs.Perm (exprs ++ ((id :: visitedStmts).flatMap a.stmtOperandsOf ++
      visitedExprs.flatMap a.operandsOf)) ↔
      visitedExprs.Perm (a.stmtOperandsOf id ++ exprs ++ (visitedStmts.flatMap a.stmtOperandsOf ++
        visitedExprs.flatMap a.operandsOf)) := by
    rw [List.flatMap_cons, List.append_assoc, ← List.append_assoc]
    exact (List.perm_append_comm.append_right _).congr_right _
  constructor
  · intro h
    obtain ⟨hid, hnodup⟩ := List.nodup_cons.mp h.nodup_stmts
    obtain ⟨hnew, hothers⟩ := List.forall_mem_cons.mp h.new_stmts
    refine ⟨hnew, hnodup, h.nodup_exprs, fun other hother => ?_, h.new_exprs,
      hstmts.mp h.stmts, hexprs.mp h.exprs⟩
    rw [List.mem_cons, not_or]
    exact ⟨fun heq => hid (heq ▸ hother), hothers other hother⟩
  · rintro ⟨hnew, h⟩
    refine ⟨List.nodup_cons.mpr ⟨fun hid => ?_, h.nodup_stmts⟩, h.nodup_exprs,
      List.forall_mem_cons.mpr ⟨hnew, fun other hother => ?_⟩, h.new_exprs,
      hstmts.mpr h.stmts, hexprs.mpr h.exprs⟩
    · exact h.new_stmts id hid (List.mem_cons_self ..)
    · exact fun hseen => h.new_stmts other hother (List.mem_cons_of_mem _ hseen)

/-- One expression is visited before the others. -/
theorem cons_expr_iff {id : ExprId} :
    a.Visits stmts (id :: exprs) seenStmts seenExprs visitedStmts (id :: visitedExprs) ↔
      id ∉ seenExprs ∧ a.Visits stmts (a.operandsOf id ++ exprs) seenStmts (id :: seenExprs)
        visitedStmts visitedExprs := by
  have hexprs : (id :: visitedExprs).Perm (id :: exprs ++ (visitedStmts.flatMap a.stmtOperandsOf ++
      (id :: visitedExprs).flatMap a.operandsOf)) ↔
      visitedExprs.Perm (a.operandsOf id ++ exprs ++ (visitedStmts.flatMap a.stmtOperandsOf ++
        visitedExprs.flatMap a.operandsOf)) := by
    rw [List.flatMap_cons, List.cons_append, List.perm_cons]
    refine List.Perm.congr_right ?_ _
    rw [List.append_assoc]
    exact ((List.perm_append_comm_assoc ..).append_left _).trans (List.perm_append_comm_assoc ..)
  constructor
  · intro h
    obtain ⟨hid, hnodup⟩ := List.nodup_cons.mp h.nodup_exprs
    obtain ⟨hnew, hothers⟩ := List.forall_mem_cons.mp h.new_exprs
    refine ⟨hnew, h.nodup_stmts, hnodup, h.new_stmts, fun other hother => ?_, h.stmts,
      hexprs.mp h.exprs⟩
    rw [List.mem_cons, not_or]
    exact ⟨fun heq => hid (heq ▸ hother), hothers other hother⟩
  · rintro ⟨hnew, h⟩
    refine ⟨h.nodup_stmts, List.nodup_cons.mpr ⟨fun hid => ?_, h.nodup_exprs⟩, h.new_stmts,
      List.forall_mem_cons.mpr ⟨hnew, fun other hother => ?_⟩, h.stmts, hexprs.mpr h.exprs⟩
    · exact h.new_exprs id hid (List.mem_cons_self ..)
    · exact fun hseen => h.new_exprs other hother (List.mem_cons_of_mem _ hseen)

end Visits

/-- A walk meets no node twice when there are fewer nodes to visit than fuel. -/
theorem visitsOnce_iff (fuel : Nat) (stmts : List StmtId) (exprs : List ExprId)
    (seenStmts : List StmtId) (seenExprs : List ExprId) :
    a.visitsOnce fuel stmts exprs seenStmts seenExprs = true ↔ ∃ visitedStmts visitedExprs,
      visitedStmts.length + visitedExprs.length < fuel ∧
      a.Visits stmts exprs seenStmts seenExprs visitedStmts visitedExprs := by
  induction fuel generalizing stmts exprs seenStmts seenExprs with
  | zero => simp [visitsOnce]
  | succ fuel ih =>
    match stmts, exprs with
    | id :: stmts, exprs =>
      simp only [visitsOnce, List.contains_iff_mem]
      constructor
      · intro h
        split at h
        · cases h
        · rename_i hnew
          obtain ⟨visitedStmts, visitedExprs, hfuel, hvisits⟩ := (ih _ _ _ _).mp h
          refine ⟨id :: visitedStmts, visitedExprs, ?_, Visits.cons_stmt_iff.mpr ⟨hnew, hvisits⟩⟩
          rw [List.length_cons]
          omega
      · rintro ⟨visitedStmts, visitedExprs, hfuel, hvisits⟩
        have hmem : id ∈ visitedStmts := hvisits.stmts.mem_iff.mpr (List.mem_cons_self ..)
        obtain ⟨hnew, hothers⟩ := Visits.cons_stmt_iff.mp (hvisits.congr (.refl _) (.refl _)
          (List.perm_cons_erase hmem) (.refl _))
        rw [if_neg hnew]
        refine (ih _ _ _ _).mpr ⟨_, _, ?_, hothers⟩
        have hlength := (List.perm_cons_erase hmem).length_eq
        rw [List.length_cons] at hlength
        omega
    | [], id :: exprs =>
      simp only [visitsOnce, List.contains_iff_mem]
      constructor
      · intro h
        split at h
        · cases h
        · rename_i hnew
          obtain ⟨visitedStmts, visitedExprs, hfuel, hvisits⟩ := (ih _ _ _ _).mp h
          refine ⟨visitedStmts, id :: visitedExprs, ?_, Visits.cons_expr_iff.mpr ⟨hnew, hvisits⟩⟩
          rw [List.length_cons]
          omega
      · rintro ⟨visitedStmts, visitedExprs, hfuel, hvisits⟩
        have hmem : id ∈ visitedExprs := hvisits.exprs.mem_iff.mpr (List.mem_cons_self ..)
        obtain ⟨hnew, hothers⟩ := Visits.cons_expr_iff.mp (hvisits.congr (.refl _) (.refl _)
          (.refl _) (List.perm_cons_erase hmem))
        rw [if_neg hnew]
        refine (ih _ _ _ _).mpr ⟨_, _, ?_, hothers⟩
        have hlength := (List.perm_cons_erase hmem).length_eq
        rw [List.length_cons] at hlength
        omega
    | [], [] =>
      simp only [visitsOnce, true_iff]
      exact ⟨[], [], Nat.succ_pos _, .nil, .nil, nofun, nofun, .nil, .nil⟩

/-- The order of the roots does not matter. -/
theorem formsTrees_congr (hstmts : stmts.Perm stmts') (hexprs : exprs.Perm exprs') :
    a.formsTrees stmts exprs = a.formsTrees stmts' exprs' := by
  unfold formsTrees
  rw [Bool.eq_iff_iff, visitsOnce_iff, visitsOnce_iff]
  constructor
  · rintro ⟨visitedStmts, visitedExprs, hfuel, h⟩
    exact ⟨_, _, hfuel, h.congr hstmts hexprs (.refl _) (.refl _)⟩
  · rintro ⟨visitedStmts, visitedExprs, hfuel, h⟩
    exact ⟨_, _, hfuel, h.congr hstmts.symm hexprs.symm (.refl _) (.refl _)⟩

end BodyArena

/-- A declaration is well formed in whatever order it lists its members. -/
theorem TypeDecl.Reorders.isWellFormed_eq {d d' : TypeDecl} (h : d.Reorders d') :
    d'.isWellFormed = d.isWellFormed := by
  have hexprs : d'.exprRoots.Perm d.exprRoots := h.fields.symm.filterMap _
  have hstmts : d'.stmtRoots.Perm d.stmtRoots :=
    (h.constructors.symm.map _).append (h.methods.symm.filterMap _)
  unfold isWellFormed
  rw [h.bodies, hexprs.all_eq, hstmts.all_eq, BodyArena.formsTrees_congr hstmts hexprs]

end JoosStatics
