/-
JoosStatics.Proofs.Flow.ConstructorCycles — constructors that invoke
themselves are found.

Each constructor on the path that is followed leads to the current one, so
one that is met again leads to itself. A path that ends has constructors with a
target and without repetition, of which there are no more than targets: so the fuel
is never used up, and everything on the path comes to an end (`Ends`).

* `findRevisited_eq_none` — the search fails to find a constructor exactly
  when none leads to itself.
-/
import JoosStatics.Flow.ConstructorCycles
import JoosStatics.Proofs.SortedMaps
import Mathlib.Data.List.Perm.Subperm
import Mathlib.Order.RelClasses

namespace JoosStatics

variable {targets : ConstructorTargets} {current next : ConstructorRef}

/-- A constructor starts with the invocation of another one. -/
def Invokes (targets : ConstructorTargets) (current next : ConstructorRef) : Prop :=
  targets.find? current = some next

/-- Following the targets from a constructor comes to an end. -/
def Ends (targets : ConstructorTargets) (ref : ConstructorRef) : Prop :=
  Acc (fun next current => Invokes targets current next) ref

theorem Ends.of_invokes (h : Invokes targets current next) (hnext : Ends targets next) :
    Ends targets current := by
  refine ⟨current, fun other hother => ?_⟩
  obtain rfl : next = other := Option.some.inj (h.symm.trans hother)
  exact hnext

theorem Ends.of_none (h : targets.find? current = none) : Ends targets current := by
  refine ⟨current, fun other hother => ?_⟩
  have hsome : targets.find? current = some other := hother
  rw [h] at hsome
  cases hsome

theorem Ends.reaches {ref : ConstructorRef} (h : Ends targets current)
    (hreach : Relation.ReflTransGen (Invokes targets) current ref) : Ends targets ref := by
  induction hreach with
  | refl => exact h
  | tail _ hstep ih => exact ih.inv hstep

/-- A path that comes to an end has a last constructor. -/
theorem Ends.exists_last (h : Ends targets current) :
    ∃ last, Relation.ReflTransGen (Invokes targets) current last ∧ targets.find? last = none := by
  induction h with
  | intro current _ ih =>
    cases hfind : targets.find? current with
    | none => exact ⟨current, .refl, hfind⟩
    | some next =>
      obtain ⟨last, hreach, hlast⟩ := ih next hfind
      exact ⟨last, .head hfind hreach, hlast⟩

/-! ## §1 One path -/

section Path

variable {done path path' : List ConstructorRef} {fuel : Nat}

/-- A constructor that is met again leads to itself. -/
theorem followTargets_eq_error {revisited : ConstructorRef}
    (hpath : ∀ ref ∈ path, Relation.TransGen (Invokes targets) ref current)
    (h : followTargets targets done fuel path current = .error revisited) :
    Relation.TransGen (Invokes targets) revisited revisited := by
  induction fuel generalizing path current with
  | zero => cases h
  | succ fuel ih =>
    unfold followTargets at h
    split at h
    · cases h
    split at h
    · rename_i hmet
      cases h
      exact hpath _ (List.contains_iff_mem.mp hmet)
    split at h
    · rename_i next hnext
      refine ih (fun ref href => ?_) h
      rcases List.mem_cons.mp href with rfl | href
      · exact .single hnext
      · exact (hpath ref href).tail hnext
    · cases h

/-- The fuel is not used up before a path ends. -/
theorem followTargets_ends (hdone : ∀ ref ∈ done, Ends targets ref) (hnodup : path.Nodup)
    (hkeys : ∀ ref ∈ path, ref ∈ targets.keys) (hfuel : targets.size < fuel + path.length)
    (h : followTargets targets done fuel path current = .ok path') : Ends targets current := by
  induction fuel generalizing path current with
  | zero =>
    have hle : path.length ≤ targets.keys.length := (List.subperm_of_subset hnodup hkeys).length_le
    rw [OrderedMap.keys, List.length_map] at hle
    unfold OrderedMap.size at hfuel
    omega
  | succ fuel ih =>
    unfold followTargets at h
    split at h
    · rename_i hold
      exact hdone _ (List.contains_iff_mem.mp hold)
    split at h
    · cases h
    rename_i hnew
    rw [List.contains_iff_mem] at hnew
    split at h
    · rename_i next hnext
      refine .of_invokes hnext (ih (List.nodup_cons.mpr ⟨hnew, hnodup⟩) ?_ ?_ h)
      · have hkey : current ∈ targets.keys := by
          rw [OrderedMap.mem_keys_iff, hnext]
          rfl
        exact List.forall_mem_cons.mpr ⟨hkey, hkeys⟩
      · rw [List.length_cons]
        omega
    · rename_i hnone
      exact .of_none hnone

/-- Everything that is met is reached from where the path started. -/
theorem followTargets_reaches (h : followTargets targets done fuel path current = .ok path') :
    ∀ ref ∈ path', ref ∈ path ∨ Relation.ReflTransGen (Invokes targets) current ref := by
  induction fuel generalizing path current with
  | zero =>
    cases h
    exact fun ref href => .inl href
  | succ fuel ih =>
    unfold followTargets at h
    have hmet (ref : ConstructorRef) (href : ref ∈ current :: path) :
        ref ∈ path ∨ Relation.ReflTransGen (Invokes targets) current ref := by
      rcases List.mem_cons.mp href with rfl | href
      · exact .inr .refl
      · exact .inl href
    split at h
    · cases h
      exact fun ref href => .inl href
    split at h
    · cases h
    split at h
    · rename_i next hnext
      intro ref href
      rcases ih h ref href with href | hreach
      · exact hmet ref href
      · exact .inr (.head hnext hreach)
    · cases h
      exact hmet

end Path

/-! ## §2 All constructors -/

theorem findRevisited_eq_some {starts done : List ConstructorRef} {revisited : ConstructorRef}
    (h : findRevisited targets starts done = some revisited) :
    Relation.TransGen (Invokes targets) revisited revisited := by
  induction starts generalizing done with
  | nil => cases h
  | cons start starts ih =>
    unfold findRevisited at h
    split at h
    · exact ih h
    · rename_i hpath
      cases h
      exact followTargets_eq_error (fun _ href => absurd href List.not_mem_nil) hpath

theorem findRevisited_ends {starts done : List ConstructorRef}
    (hdone : ∀ ref ∈ done, Ends targets ref) (h : findRevisited targets starts done = none) :
    ∀ ref ∈ starts, Ends targets ref := by
  induction starts generalizing done with
  | nil => exact fun _ href => absurd href List.not_mem_nil
  | cons start starts ih =>
    unfold findRevisited at h
    split at h
    · rename_i path hpath
      have hstart : Ends targets start := followTargets_ends hdone List.nodup_nil
        (fun _ href => absurd href List.not_mem_nil) (by rw [List.length_nil]; omega) hpath
      refine List.forall_mem_cons.mpr ⟨hstart, ih (List.forall_mem_append.mpr ⟨?_, hdone⟩) h⟩
      intro ref href
      rcases followTargets_reaches hpath ref href with href | hreach
      · cases href
      · exact hstart.reaches hreach
    · cases h

/-- When no constructor is met again, every path comes to an end. -/
theorem ends_of_findRevisited (h : findRevisited targets targets.keys [] = none)
    (ref : ConstructorRef) : Ends targets ref := by
  cases hfind : targets.find? ref with
  | none => exact .of_none hfind
  | some next =>
    refine findRevisited_ends (fun _ href => absurd href List.not_mem_nil) h ref ?_
    rw [OrderedMap.mem_keys_iff, hfind]
    rfl

/-- No constructor is met again exactly when none leads to itself. -/
theorem findRevisited_eq_none : findRevisited targets targets.keys [] = none ↔
    ∀ ref, ¬ Relation.TransGen (Invokes targets) ref ref := by
  constructor
  · intro h
    have hends : WellFounded (fun next current => Invokes targets current next) :=
      ⟨ends_of_findRevisited h⟩
    intro ref hcycle
    have hback := Relation.transGen_swap.mpr hcycle
    exact hends.transGen.asymmetric ref ref hback hback
  · intro hacyclic
    cases hfind : findRevisited targets targets.keys [] with
    | none => rfl
    | some revisited => exact absurd (findRevisited_eq_some hfind) (hacyclic revisited)

end JoosStatics
