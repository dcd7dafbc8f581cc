/-
JoosStatics.Proofs.Linking.Resolution — names resolve to types of the table.

Every lookup answers with the number of a unit. The answers that are
remembered have to be covered too, so the statement is an invariant of the
lookup state, `AnswersInRange`, that each resolution keeps:
`resolveTypeName_ensures` for names, `resolveRef_ensures` for references and
`resolveType_ensures` for written types.
-/
import JoosStatics.Linking.Lookup
import JoosStatics.Proofs.Linking.Symbols
import JoosStatics.Proofs.StatefulRuns

namespace JoosStatics.SymbolTable

variable {s : SymbolTable} {ctx : ClassId}

/-- Every remembered type is one of the table. -/
def AnswersInRange (s : SymbolTable) (state : LookupState) : Prop :=
  ∀ entry ∈ state.answers, ∀ id, entry.2 = .ok (some id) → id < s.size

theorem answersInRange_empty (s : SymbolTable) : s.AnswersInRange {} := by
  intro entry h
  cases h

/-! ## Simple names -/

/-- The distinct types among the hits are the types that were hit. -/
theorem mem_distinctHits {hits : List (ClassId × PackageName)} {id : ClassId} :
    id ∈ distinctHits hits ↔ id ∈ hits.map Prod.fst :=
  OrderedMap.mem_keys_foldl_add.trans (or_iff_left List.not_mem_nil)

/-- They are listed in the order of their numbers. -/
theorem pairwise_distinctHits (hits : List (ClassId × PackageName)) :
    (distinctHits hits).Pairwise (· < ·) :=
  List.pairwise_map.mpr (List.Pairwise.imp Nat.compare_eq_lt.mp
    (OrderedMap.sorted_foldl_add _ OrderedMap.sorted_empty))

theorem nodup_distinctHits (hits : List (ClassId × PackageName)) : (distinctHits hits).Nodup :=
  (pairwise_distinctHits hits).imp Nat.ne_of_lt

theorem lt_size_of_mem_onDemandHits (hs : s.Indexed) {name : Name} {hit : ClassId × PackageName}
    (h : hit ∈ s.onDemandHits ctx name) : hit.1 < s.size := by
  obtain ⟨imp, -, hfound⟩ := List.mem_filterMap.mp h
  obtain ⟨id, hid, rfl⟩ := Option.map_eq_some_iff.mp hfound
  exact (hs.lookupIn_iff.mp hid).1

/-- Single-type imports denote what the first of them names. -/
theorem findImported_eq_ok {name : Name} {range : Span} {first : SingleImport}
    {others : List SingleImport} {id : ClassId}
    (h : s.findImported ctx name range first others = .ok (some id)) :
    s.lookup first.path = some id := by
  unfold findImported at h
  split at h
  · cases h
  · split at h
    · rename_i found hfound
      cases h
      exact hfound
    · cases h

/-- A simple name denotes a type of the table. -/
theorem lt_size_of_findSimple (hs : s.Indexed) (hctx : ctx < s.size) {name : Name} {range : Span}
    {id : ClassId} (h : (s.findSimple ctx name range).1 = .ok (some id)) : id < s.size := by
  unfold findSimple at h
  simp only at h
  split at h
  · cases h
    exact hctx
  · split at h
    · exact (hs.lookup_iff.mp (findImported_eq_ok h)).1
    · split at h
      · rename_i found hfound
        cases h
        exact (hs.lookupIn_iff.mp hfound).1
      · split at h
        · cases h
        · rename_i found hdistinct
          cases h
          obtain ⟨hit, hmem, rfl⟩ := List.mem_map.mp
            (mem_distinctHits.mp (hdistinct ▸ List.mem_singleton_self _))
          exact lt_size_of_mem_onDemandHits hs hmem
        · cases h

/-- A lookup keeps the invariant even when its answer is a violation. -/
theorem lookupSimple_inRange (hs : s.Indexed) (hctx : ctx < s.size) (name : Name) (range : Span)
    {state : LookupState} (hstate : s.AnswersInRange state) :
    s.AnswersInRange (s.lookupSimple ctx name range state).2 ∧
    ∀ id, (s.lookupSimple ctx name range state).1 = .ok (some id) → id < s.size := by
  unfold lookupSimple
  split
  · rename_i answer hanswer
    obtain ⟨before, after, hsplit, -⟩ := List.lookup_eq_some_iff.mp hanswer
    refine ⟨hstate, fun id hid => ?_⟩
    exact hstate ((ctx, name), answer) (by rw [hsplit]; simp) id hid
  · refine ⟨?_, fun id hid => lt_size_of_findSimple hs hctx hid⟩
    intro entry hentry id hid
    rcases List.mem_cons.mp hentry with rfl | hentry
    · exact lt_size_of_findSimple hs hctx hid
    · exact hstate entry hentry id hid

theorem resolveSimple_ensures (hs : s.Indexed) (hctx : ctx < s.size) (name : Name) (range : Span) :
    Ensures s.AnswersInRange (s.resolveSimple ctx name range) (fun id => id < s.size) := by
  have hlookup : Ensures s.AnswersInRange (s.lookupSimple ctx name range)
      (fun found => ∀ id, found = some id → id < s.size) := by
    intro st found st' hst hrun
    obtain ⟨hst', hid⟩ := lookupSimple_inRange hs hctx name range hst
    rw [hrun] at hst' hid
    exact ⟨hst', fun id h => hid id (congrArg _ h)⟩
  refine Ensures.bind hlookup (fun found hfound => ?_)
  cases found with
  | none => exact Ensures.throw
  | some id => exact Ensures.pure (hfound id rfl)

/-! ## Qualified names and written types -/

theorem denotesType_ensures (hs : s.Indexed) (hctx : ctx < s.size) (name : Name) (range : Span) :
    Ensures s.AnswersInRange (s.denotesType ctx name range) (fun _ => True) := by
  intro st found st' hst hrun
  have hst' := (lookupSimple_inRange hs hctx name range hst).1
  unfold denotesType at hrun
  split at hrun
  · rename_i state hlookup
    cases hrun
    rw [hlookup] at hst'
    exact ⟨hst', trivial⟩
  · rename_i state hlookup
    cases hrun
    rw [hlookup] at hst'
    exact ⟨hst', trivial⟩

/-- A name that resolves denotes a type of the table. -/
theorem resolveTypeName_ensures (hs : s.Indexed) (hctx : ctx < s.size) (name : QualifiedName)
    (range : Span) :
    Ensures s.AnswersInRange (s.resolveTypeName ctx name range) (fun id => id < s.size) := by
  unfold resolveTypeName
  split
  · exact Ensures.throw
  · exact resolveSimple_ensures hs hctx _ range
  · refine Ensures.bind (denotesType_ensures hs hctx _ range) (fun isType _ => ?_)
    cases isType with
    | true => exact Ensures.throw
    | false =>
      simp only [Bool.false_eq_true, if_false]
      split
      · exact Ensures.throw
      · split
        · rename_i id hid
          exact Ensures.pure (hs.lookup_iff.mp hid).1
        · exact Ensures.throw

theorem resolveRef_ensures (hs : s.Indexed) (hctx : ctx < s.size) (ref : TypeRef) :
    Ensures s.AnswersInRange (s.resolveRef ctx ref) (fun id => id < s.size) :=
  resolveTypeName_ensures hs hctx ref.name ref.range

theorem resolveType_ensures (hs : s.Indexed) (hctx : ctx < s.size) (type : TypeSyntax) :
    Ensures s.AnswersInRange (s.resolveType ctx type) (fun _ => True) := by
  induction type with
  | primitive type => exact Ensures.pure trivial
  | named ref =>
    refine Ensures.bind (resolveRef_ensures hs hctx ref) (fun id _ => ?_)
    exact Ensures.pure trivial
  | array element ih =>
    refine Ensures.bind ih (fun element _ => ?_)
    exact Ensures.pure trivial

end JoosStatics.SymbolTable
