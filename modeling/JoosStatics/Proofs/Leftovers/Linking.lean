/-
JoosStatics.Proofs.Leftovers.Linking — linking units with leftovers.

Linking is the one stage that goes over whole arenas: it resolves every type
written in them, those of leftovers as well. When these resolve to types without
leaving a trace — no failure is remembered on the way, and no package comes into
use that clashes with a type — then the two runs, with and without leftovers, stay
side by side: the one with leftovers is `Ahead` of the other by such answers only.
Both succeed with the same table, or fail with the same violation, since they are
`PairedLinkers`.
-/
import JoosStatics.Proofs.Leftovers.Symbols
import JoosStatics.Proofs.Linking.Lockstep
import JoosStatics.Proofs.Linking.Packages
import JoosStatics.Proofs.Linking.Signatures

namespace JoosStatics

/-- Leftovers are no part of a signature. -/
theorem CompilationUnit.sameSignature_withLeftovers (u : CompilationUnit) (leftovers : BodyArena) :
    u.SameSignature id (u.withLeftovers leftovers) where
  typeName := rfl
  kind := rfl
  modifiers := rfl
  superclass := Option.map_id_apply.symm
  interfaces := (List.map_id _).symm
  fields := (List.map_id'' FieldDecl.mapSpans_id _).symm
  methods := (List.map_id'' MethodDecl.mapSpans_id _).symm
  constructors := (List.map_id'' ConstructorDecl.mapSpans_id _).symm
  range := rfl

namespace SymbolTable

/-! ## §1 Answers that leave no trace -/

/-- The search of a name does not fail, and a package that it brings into use does not
clash with a type unless the program refers to it anyway. -/
structure LeavesNoTrace (s : SymbolTable) (key : ClassId × Name) : Prop where
  answer : ∃ found, (s.findSimple key.1 key.2 {}).1 = .ok found
  packages : ∀ package ∈ (s.findSimple key.1 key.2 {}).2,
    s.clashOf? package = none ∨ s.RefersTo package

/-- A written type denotes a type in a unit, and its lookups leave no trace. -/
structure ResolvesQuietly (s : SymbolTable) (id : ClassId) (type : TypeSyntax) : Prop where
  names : ∀ name ∈ type.names, (s.namedType? id name).isSome = true
  keys : ∀ key ∈ lookupKeys id type.names, s.LeavesNoTrace key

/-- Whether searches find a type for each name in a written type, no failure, and no
package that clashes with a type. -/
def findsQuietly (s : SymbolTable) (id : ClassId) (type : TypeSyntax) : Bool :=
  type.names.all (fun name => (s.namedType? id name).isSome) &&
    (lookupKeys id type.names).all (fun key =>
      match s.findSimple key.1 key.2 {} with
      | (.ok _, packages) => packages.all (fun package => (s.clashOf? package).isNone)
      | (.error _, _) => false)

theorem resolvesQuietly_of_finds {s : SymbolTable} {id : ClassId} {type : TypeSyntax}
    (h : s.findsQuietly id type = true) : s.ResolvesQuietly id type := by
  obtain ⟨hnames, hkeys⟩ := Bool.and_eq_true .. ▸ h
  refine ⟨List.all_eq_true.mp hnames, fun key hkey => ?_⟩
  have hfound := List.all_eq_true.mp hkeys key hkey
  rcases hsearch : s.findSimple key.1 key.2 {} with ⟨v | found, packages⟩
  · rw [hsearch] at hfound
    cases hfound
  · rw [hsearch] at hfound
    refine ⟨⟨found, by rw [hsearch]⟩, fun package hpackage => .inl ?_⟩
    rw [hsearch] at hpackage
    exact Option.isNone_iff_eq_none.mp (List.all_eq_true.mp hfound package hpackage)

/-- The later one of two states remembers the same answers and others that leave no
trace. -/
structure Ahead (s : SymbolTable) (st later : LookupState) : Prop where
  recorded : s.Recorded st
  recordedLater : s.Recorded later
  sorted : st.usedPackages.Sorted
  sortedLater : later.usedPackages.Sorted
  known : later.Extends st
  others : ∀ key, later.Knows key → st.Knows key ∨ s.LeavesNoTrace key

variable {s : SymbolTable} {α β : Type}

theorem ahead_empty (s : SymbolTable) : s.Ahead {} {} where
  recorded := s.recorded_empty
  recordedLater := s.recorded_empty
  sorted := OrderedMap.sorted_empty
  sortedLater := OrderedMap.sorted_empty
  known := .refl _
  others _ h := .inl h

/-- A later state is level with itself. -/
theorem Ahead.level {st later : LookupState} (h : s.Ahead st later) : s.Ahead later later where
  recorded := h.recordedLater
  recordedLater := h.recordedLater
  sorted := h.sortedLater
  sortedLater := h.sortedLater
  known := .refl _
  others _ h := .inl h

theorem Ahead.trans {a b c : LookupState} (hab : s.Ahead a b) (hbc : s.Ahead b c) :
    s.Ahead a c where
  recorded := hab.recorded
  recordedLater := hbc.recordedLater
  sorted := hab.sorted
  sortedLater := hbc.sortedLater
  known := hbc.known.trans hab.known
  others key hkey := (hbc.others key hkey).elim (hab.others key) .inr

/-- Two computations find the same from a state and from one ahead of it. -/
abbrev FindsSame (s : SymbolTable) (x y : LookupM α) : Prop := Simulates s.Ahead Eq Eq x y

/-! ## §2 Lookups -/

/-- A name has the same answer in a state and in one ahead of it. -/
theorem Ahead.lookupSimple_eq {st later : LookupState} (h : s.Ahead st later) (ctx : ClassId)
    (name : Name) (range : Span) :
    (s.lookupSimple ctx name range later).1 = (s.lookupSimple ctx name range st).1 := by
  cases hanswer : st.answers.lookup (ctx, name) with
  | some answer =>
    rw [lookupSimple_of_answer hanswer, lookupSimple_of_answer (h.known _ _ hanswer)]
  | none =>
    rw [lookupSimple_of_none hanswer]
    cases hlater : later.answers.lookup (ctx, name) with
    | none => rw [lookupSimple_of_none hlater]
    | some answer =>
      have hknows : later.Knows (ctx, name) := Option.isSome_iff_exists.mpr ⟨answer, hlater⟩
      have hunknown : ¬ st.Knows (ctx, name) := by
        unfold LookupState.Knows
        rw [hanswer]
        exact Bool.false_ne_true
      obtain ⟨found, hfound⟩ := ((h.others _ hknows).resolve_left hunknown).answer
      obtain ⟨place, hplace⟩ := h.recordedLater.found ctx name answer hlater
      rw [lookupSimple_of_answer hlater, hplace, findSimple_eq_ok hfound, findSimple_eq_ok hfound]

/-- A lookup keeps one state ahead of the other. -/
theorem lookupSimple_findsSame (ctx : ClassId) (name : Name) (range : Span) :
    s.FindsSame (s.lookupSimple ctx name range) (s.lookupSimple ctx name range) := by
  intro st later h
  have hsame := h.lookupSimple_eq ctx name range
  obtain ⟨hrecorded, hknows⟩ := lookupSimple_recorded ctx name range h.recorded
  obtain ⟨hrecordedLater, hknowsLater⟩ := lookupSimple_recorded ctx name range h.recordedLater
  refine ⟨⟨hrecorded, hrecordedLater, lookupSimple_sorted ctx name range h.sorted,
    lookupSimple_sorted ctx name range h.sortedLater, ?_, ?_⟩, ?_⟩
  · intro key answer hanswer
    by_cases hkey : key = (ctx, name)
    · subst hkey
      rw [lookupSimple_answer] at hanswer ⊢
      rw [hsame]
      exact hanswer
    · rw [lookupSimple_other hkey] at hanswer ⊢
      exact h.known key answer hanswer
  · intro key hkey
    rw [hknows]
    rcases (hknowsLater key).mp hkey with hkey | hkey
    · exact (h.others key hkey).imp_left .inl
    · exact .inl (.inr hkey)
  · rw [hsame]
    exact .refl _

section Paired

variable {leftovers : ClassId → BodyArena} (hbound : ∀ id, s.size ≤ id → leftovers id = {})
include hbound

theorem pairedLookups_withLeftovers :
    PairedLookups id s.Ahead Eq s (s.withLeftovers leftovers) where
  lookup := rfl
  broken ctx range _ := by
    rw [locate_withLeftovers hbound]
    rfl
  lookupSimple ctx name range := by
    rw [lookupSimple_withLeftovers hbound]
    exact lookupSimple_findsSame ctx name range

theorem resolveType_findsSame (ctx : ClassId) (type : TypeSyntax) :
    s.FindsSame (s.resolveType ctx type) ((s.withLeftovers leftovers).resolveType ctx type) := by
  have hsame := (pairedLookups_withLeftovers hbound).resolveType ctx type
  rwa [type.mapSpans_id] at hsame

end Paired

/-! ## §3 Leftovers -/

/-- A computation succeeds from a state ahead of another one, and stays ahead of it. -/
def GoesAhead (s : SymbolTable) (x : LookupM α) : Prop :=
  ∀ st later, s.Ahead st later → s.Ahead st (x later).2 ∧ ∃ a, (x later).1 = .ok a

namespace GoesAhead

theorem pure (a : α) : s.GoesAhead (Pure.pure a) := fun _ _ h => ⟨h, a, rfl⟩

theorem bind {x : LookupM α} {f : α → LookupM β} (hx : s.GoesAhead x)
    (hf : ∀ a, s.GoesAhead (f a)) : s.GoesAhead (x >>= f) := by
  intro st later h
  have hfirst := hx st later h
  rw [run_bind]
  revert hfirst
  rcases x later with ⟨result, later₁⟩
  rintro ⟨h₁, a, rfl⟩
  exact hf a st later₁ h₁

theorem forM {f : α → LookupM PUnit} {xs : List α} (hf : ∀ a ∈ xs, s.GoesAhead (f a)) :
    s.GoesAhead (xs.forM f) := by
  induction xs with
  | nil => exact .pure PUnit.unit
  | cons x xs ih =>
    obtain ⟨hfirst, hothers⟩ := List.forall_mem_cons.mp hf
    exact .bind hfirst (fun _ => ih hothers)

/-- What only goes ahead may follow on one side. -/
theorem after {x y : LookupM PUnit} {z : LookupM PUnit} (hxy : s.FindsSame x y)
    (hz : s.GoesAhead z) : s.FindsSame x (y >>= fun _ => z) := by
  intro st later h
  have hfirst := hxy st later h
  rw [run_bind]
  revert hfirst
  rcases x st with ⟨result, st₁⟩
  rcases y later with ⟨result', later₁⟩
  rintro ⟨h₁, hresult⟩
  cases hresult with
  | error heq => exact ⟨h₁, .error heq⟩
  | ok _ =>
    obtain ⟨h₂, _, hok⟩ := hz st₁ later₁ h₁
    refine ⟨h₂, ?_⟩
    rw [hok]
    exact .ok rfl

end GoesAhead

/-- What finds the same as a resolution that leaves no trace goes ahead. -/
theorem ResolvesQuietly.goesAhead {id : ClassId} {type : TypeSyntax}
    (htype : s.ResolvesQuietly id type) {x : LookupM Ty}
    (hsame : s.FindsSame (s.resolveType id type) x) : s.GoesAhead x := by
  intro st later h
  obtain ⟨hafter, halike⟩ := hsame later later h.level
  obtain ⟨-, ⟨-, hok, hknows⟩ | ⟨hnot, -⟩⟩ := resolveType_denotes id type later h.recordedLater
  · have hresolved : s.Ahead later (s.resolveType id type later).2 := {
      recorded := h.recordedLater
      recordedLater := hafter.recorded
      sorted := h.sortedLater
      sortedLater := hafter.sorted
      known := (resolveType_looksUp id type).remembers later
      others := fun key hkey => ((hknows key).mp hkey).imp_right (htype.keys key) }
    refine ⟨h.trans (hresolved.trans hafter), ?_⟩
    rcases halike.outcomes with ⟨v, _, hv, -, -⟩ | ⟨found, _, -, hfound, -⟩
    · rw [hok] at hv
      cases hv
    · exact ⟨_, hfound⟩
  · exact absurd htype.names hnot

/-! ## §4 The stage -/

section Stage

variable {leftovers : ClassId → BodyArena} (hbound : ∀ id, s.size ≤ id → leftovers id = {})
include hbound

/-- The types written in leftovers are resolved along with the others. -/
theorem linkBodies_findsSame {id : ClassId} (hquiet : s.isLibrary id = false →
    ∀ type ∈ (leftovers id).writtenTypes, s.ResolvesQuietly id type) (d : TypeDecl) :
    s.FindsSame (s.linkBodies id d)
      ((s.withLeftovers leftovers).linkBodies id (d.withLeftovers (leftovers id))) := by
  have hlibrary : (s.withLeftovers leftovers).isLibrary id = s.isLibrary id := rfl
  have htypes : (d.withLeftovers (leftovers id)).bodies.writtenTypes =
      (d.bodies.stmts.toList.filterMap (fun node => node.form.writtenType?) ++
        (leftovers id).stmts.toList.filterMap (fun node => node.form.writtenType?)) ++
      (d.bodies.exprs.toList.filterMap (fun node => node.form.writtenType?) ++
        (leftovers id).exprs.toList.filterMap (fun node => node.form.writtenType?)) := by
    simp [TypeDecl.withLeftovers, BodyArena.withLeftovers, BodyArena.writtenTypes]
  unfold linkBodies
  rw [hlibrary]
  cases hprogram : s.isLibrary id with
  | true => exact .pure rfl
  | false =>
    obtain ⟨hstmts, hexprs⟩ := List.forall_mem_append.mp (hquiet hprogram)
    have hresolve := resolveType_findsSame hbound id
    have hsame (types : List TypeSyntax) :
        s.FindsSame (types.forM (fun type => do let _ ← s.resolveType id type))
          (types.forM (fun type => do let _ ← (s.withLeftovers leftovers).resolveType id type)) :=
      (Simulates.forM_same (fun type _ => .bind (hresolve type)
        (fun _ _ _ => .pure trivial))).mono (fun _ _ _ => rfl)
    have hahead (types : List TypeSyntax) (hquiet : ∀ type ∈ types, s.ResolvesQuietly id type) :
        s.GoesAhead (types.forM (fun type => do
          let _ ← (s.withLeftovers leftovers).resolveType id type)) :=
      .forM (fun type htype => .bind ((hquiet type htype).goesAhead (hresolve type))
        (fun _ => .pure _))
    rw [htypes]
    simp only [Bool.not_false, if_true, BodyArena.writtenTypes, forM_append]
    exact .bind (GoesAhead.after (hsame _) (hahead _ hstmts))
      (fun _ _ _ => GoesAhead.after (hsame _) (hahead _ hexprs))

/-- Units are linked side by side whatever is left over in them. -/
theorem pairedLinkers_withLeftovers (hquiet : ∀ id, s.isLibrary id = false →
    ∀ type ∈ (leftovers id).writtenTypes, s.ResolvesQuietly id type) :
    PairedLinkers id s.Ahead Eq s (s.withLeftovers leftovers) where
  toPairedLookups := pairedLookups_withLeftovers hbound
  ids := ids_withLeftovers
  missing _ := rfl
  checkImports id := by
    rw [checkImports_withLeftovers hbound]
    exact (Alike.refl _).mono (fun _ _ h => h) (fun _ _ _ => trivial)
  signature id := by
    rw [unitAt_withLeftovers hbound]
    exact (s.unitAt id).sameSignature_withLeftovers (leftovers id)
  linkBodies id := by
    rw [unitAt_withLeftovers hbound]
    exact (linkBodies_findsSame hbound (hquiet id) _).mono (fun _ _ _ => trivial)

theorem lowerAll_findsSame (hquiet : ∀ id, s.isLibrary id = false →
    ∀ type ∈ (leftovers id).writtenTypes, s.ResolvesQuietly id type) :
    s.FindsSame s.lowerAll (s.withLeftovers leftovers).lowerAll :=
  (pairedLinkers_withLeftovers hbound hquiet).lowerAll.mono
    (fun t _ h => (h.trans t.mapSpans_id).symm)

theorem checkPackageClashes_withLeftovers (used : OrderedSet PackageName) :
    (s.withLeftovers leftovers).checkPackageClashes used = s.checkPackageClashes used := by
  have hpackage (id : ClassId) : ((s.withLeftovers leftovers).unitAt id).packageName =
      (s.unitAt id).packageName := by
    rw [unitAt_withLeftovers hbound]
    rfl
  have hpackages : (s.withLeftovers leftovers).referencedPackages used =
      s.referencedPackages used := by
    unfold referencedPackages
    simp only [programIds_withLeftovers, hpackage, importsOf_withLeftovers hbound]
  have hclash : (s.withLeftovers leftovers).clashOf? = s.clashOf? := rfl
  unfold checkPackageClashes
  rw [hpackages]
  simp only [hclash, typeName_withLeftovers hbound]

end Stage

/-- A state ahead of what linking looks up brings no other package into use that
clashes. -/
theorem Ahead.checkPackageClashes {st later : LookupState} (h : s.Ahead st later)
    (hlinked : ∀ key, st.Knows key ↔ key ∈ s.linkedKeys) :
    s.checkPackageClashes later.usedPackages = s.checkPackageClashes st.usedPackages := by
  have hknown (key : ClassId × Name) (hkey : st.Knows key) : later.Knows key := by
    obtain ⟨answer, hanswer⟩ := Option.isSome_iff_exists.mp hkey
    exact Option.isSome_iff_exists.mpr ⟨answer, h.known key answer hanswer⟩
  have hrefers (package : PackageName) :
      package ∈ (s.referencedPackages st.usedPackages).keys ↔ s.RefersTo package := by
    simp only [mem_referencedPackages, h.recorded.used, hlinked, RefersTo]
  have hsorted {used : OrderedSet PackageName} (h : used.Sorted) :
      (s.referencedPackages used).Sorted :=
    OrderedMap.sorted_erase (OrderedMap.sorted_foldl_add _ h) _
  have hfirst : (s.referencedPackages later.usedPackages).keys.findSome? (fun package =>
      (s.clashOf? package).map (fun id => (package, id))) =
      (s.referencedPackages st.usedPackages).keys.findSome? (fun package =>
        (s.clashOf? package).map (fun id => (package, id))) := by
    refine OrderedMap.findSome?_keys_congr (hsorted h.sortedLater) (hsorted h.sorted)
      (fun package hclash => ?_)
    rw [Option.isSome_map] at hclash
    rw [hrefers, mem_referencedPackages, h.recordedLater.used]
    constructor
    · rintro ⟨hne, hnamed | ⟨key, hkey, hfound⟩⟩
      · exact ⟨hne, .inl hnamed⟩
      · rcases h.others key hkey with hkey | hquiet
        · exact ⟨hne, .inr ⟨key, (hlinked key).mp hkey, hfound⟩⟩
        · rcases hquiet.packages package hfound with hnone | hrefers
          · rw [hnone] at hclash
            cases hclash
          · exact hrefers
    · rintro ⟨hne, hused⟩
      refine ⟨hne, hused.imp_right ?_⟩
      rintro ⟨key, hkey, hfound⟩
      exact ⟨key, hknown key ((hlinked key).mpr hkey), hfound⟩
  unfold SymbolTable.checkPackageClashes
  rw [hfirst]

end SymbolTable

/-- The same linked program, but for leftovers in its units and for the lookups made. -/
structure Linked.Leaves (leftovers : ClassId → BodyArena) (l l' : Linked) : Prop where
  bound : ∀ id, l.symbols.size ≤ id → leftovers id = {}
  symbols : l'.symbols = l.symbols.withLeftovers leftovers
  table : l'.table = l.table
  lookups : l.symbols.Ahead l.lookups l'.lookups

/-- Units are linked to the same whatever is left over in them. -/
theorem SymbolTable.link_withLeftovers {s : SymbolTable} {leftovers : ClassId → BodyArena}
    (hbound : ∀ id, s.size ≤ id → leftovers id = {})
    (hquiet : ∀ id, s.isLibrary id = false →
      ∀ type ∈ (leftovers id).writtenTypes, s.ResolvesQuietly id type) :
    Alike Eq (fun l l' => l.symbols = s ∧ l.Leaves leftovers l') s.link
      (s.withLeftovers leftovers).link := by
  have hlower := lowerAll_findsSame hbound hquiet {} {} s.ahead_empty
  have hdenotes := s.lowerAll_denotes {} s.recorded_empty
  unfold link
  revert hlower hdenotes
  rcases s.lowerAll {} with ⟨result, lookups⟩
  rcases (s.withLeftovers leftovers).lowerAll {} with ⟨result', lookups'⟩
  rintro ⟨hahead, hresult⟩ ⟨-, hdenotes⟩
  cases hresult with
  | error heq => exact .error heq
  | @ok t t' ht =>
    have hlinked (key : ClassId × Name) : lookups.Knows key ↔ key ∈ s.linkedKeys := by
      rcases hdenotes with ⟨-, -, hknows⟩ | ⟨-, v, herror⟩
      · exact (hknows key).trans (or_iff_right (fun h => by cases h))
      · cases herror
    show Alike _ _ (s.checkPackageClashes lookups.usedPackages >>= _)
      ((s.withLeftovers leftovers).checkPackageClashes lookups'.usedPackages >>= _)
    rw [checkPackageClashes_withLeftovers hbound, hahead.checkPackageClashes hlinked]
    cases s.checkPackageClashes lookups.usedPackages with
    | error v => exact .error rfl
    | ok _ => exact .ok ⟨rfl, hbound, rfl, ht.symm, hahead⟩

end JoosStatics
