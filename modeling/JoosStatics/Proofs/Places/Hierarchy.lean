/-
JoosStatics.Proofs.Places.Hierarchy — the hierarchy with other spans.

The rules of the hierarchy stage read names, kinds, modifiers and types of
a table, and spans only to report them. So tables that differ in spans have
the same members, or break the same rule.
-/
import JoosStatics.Hierarchy.Check
import JoosStatics.Proofs.Places.Linking

namespace JoosStatics.TypeTable

variable {f : Span → Span} {t : TypeTable} (hf : f {} = {})
include hf

/-! ## §1 Direct supertypes -/

theorem isInterface_mapSpans (id : ClassId) :
    ((t.mapSpans f).classAt id).isInterface = (t.classAt id).isInterface := by
  rw [classAt_mapSpans hf]
  rfl

theorem directSupertypes_mapSpans (id : ClassId) :
    ((t.mapSpans f).classAt id).directSupertypes = (t.classAt id).directSupertypes := by
  rw [classAt_mapSpans hf]
  rfl

/-- A violation at a whole type. -/
theorem error_locationOf_mapSpans {α : Type} (cause : Cause) (id : ClassId) :
    SameUpTo f Eq (.error { cause, location := t.locationOf id } : Except Violation α)
      (.error { cause, location := (t.mapSpans f).locationOf id }) :=
  .error (congrArg _ (locationOf_mapSpans hf id))

theorem checkSuperclass_mapSpans (id : ClassId) :
    SameUpTo f Eq (t.checkSuperclass id) ((t.mapSpans f).checkSuperclass id) := by
  have hsuperclass : ((t.mapSpans f).classAt id).superclass = (t.classAt id).superclass := by
    rw [classAt_mapSpans hf]
    rfl
  unfold checkSuperclass
  rw [hsuperclass]
  cases (t.classAt id).superclass with
  | none => exact .ok rfl
  | some sup =>
    have hfinal : ((t.mapSpans f).classAt sup).isFinal = (t.classAt sup).isFinal := by
      rw [classAt_mapSpans hf]
      rfl
    simp only [isInterface_mapSpans hf, hfinal, nameOf_mapSpans hf]
    split
    · exact error_locationOf_mapSpans hf _ id
    · split
      · exact error_locationOf_mapSpans hf _ id
      · exact .ok rfl

theorem checkInterfaces_mapSpans (id : ClassId) (earlier interfaces : List ClassId) :
    SameUpTo f Eq (t.checkInterfaces id earlier interfaces)
      ((t.mapSpans f).checkInterfaces id earlier interfaces) := by
  induction interfaces generalizing earlier with
  | nil => exact .ok rfl
  | cons interface rest ih =>
    unfold checkInterfaces
    simp only [isInterface_mapSpans hf, nameOf_mapSpans hf]
    split
    · exact error_locationOf_mapSpans hf _ id
    · split
      · exact error_locationOf_mapSpans hf _ id
      · exact ih _

theorem checkSupertypeEdges_mapSpans (id : ClassId) :
    SameUpTo f Eq (t.checkSupertypeEdges id) ((t.mapSpans f).checkSupertypeEdges id) := by
  have hinterfaces : ((t.mapSpans f).classAt id).interfaces = (t.classAt id).interfaces := by
    rw [classAt_mapSpans hf]
    rfl
  unfold checkSupertypeEdges
  rw [hinterfaces]
  exact .bind (checkSuperclass_mapSpans hf id) (fun _ _ _ => checkInterfaces_mapSpans hf id _ _)

/-! ## §2 The order of types -/

theorem visit_mapSpans (fuel : Nat) (tasks : List VisitTask) (left : List ClassId) :
    SameUpTo f Eq (t.visit fuel tasks left) ((t.mapSpans f).visit fuel tasks left) := by
  induction fuel generalizing tasks left with
  | zero => exact .ok rfl
  | succ fuel ih =>
    have hcycle (type id : ClassId) : SameUpTo f Eq
        (.error (t.cycleAt type id) : Except Violation (List ClassId))
        (.error ((t.mapSpans f).cycleAt type id)) := by
      unfold cycleAt
      rw [nameOf_mapSpans hf]
      exact error_locationOf_mapSpans hf _ id
    match tasks with
    | [] => exact .ok rfl
    | .leave id :: tasks => exact ih tasks _
    | .enter id :: tasks =>
      unfold visit
      simp only [directSupertypes_mapSpans hf]
      split
      · exact ih tasks left
      · split
        · exact hcycle id id
        · split
          · exact hcycle _ id
          · exact ih _ left

theorem dependencyOrder_mapSpans :
    SameUpTo f Eq t.dependencyOrder (t.mapSpans f).dependencyOrder := by
  have hedges : (t.mapSpans f).edgeCount = t.edgeCount := by
    unfold edgeCount mapSpans
    simp [Function.comp_def, ClassDef.mapSpans, ClassDef.directSupertypes]
  unfold dependencyOrder
  rw [size_mapSpans, ids_mapSpans, hedges]
  exact visit_mapSpans hf _ _ _

/-! ## §3 Members declared twice -/

omit hf in
/-- The report of a repeated item, when items are changed but for their keys. -/
theorem map_firstRepeated? {α κ : Type} [DecidableEq κ] {key : α → κ} (change : α → α)
    (hkey : ∀ a, key (change a) = key a) {report report' : α → Violation}
    (hreport : ∀ a, report' (change a) = (report a).mapSpan f) (earlier : List κ)
    (items : List α) :
    (firstRepeated? key earlier (items.map change)).map report' =
      ((firstRepeated? key earlier items).map report).map (Violation.mapSpan f) := by
  induction items generalizing earlier with
  | nil => rfl
  | cons a items ih =>
    rw [List.map_cons, firstRepeated?, firstRepeated?, hkey]
    split
    · exact congrArg some (hreport a)
    · exact ih _

theorem repeatedMember?_mapSpans (id : ClassId) :
    (t.mapSpans f).repeatedMember? id = (t.repeatedMember? id).map (Violation.mapSpan f) := by
  have hrepeated (cause : String → Cause) (member : String) (span : Span) :
      (t.mapSpans f).repeatedAt id cause member (f span) =
        (t.repeatedAt id cause member span).mapSpan f := by
    unfold repeatedAt
    rw [nameOf_mapSpans hf]
    rfl
  have hname : ((t.classAt id).mapSpans f).simpleName = (t.classAt id).simpleName := rfl
  have hmethod (m : MethodDef) : (t.mapSpans f).methodSignature m = t.methodSignature m :=
    signature_mapSpans hf m.name m.params
  unfold repeatedMember?
  simp only [classAt_mapSpans hf, hname, hmethod, signature_mapSpans hf, Option.map_or]
  congr 1
  · exact map_firstRepeated? (FieldDef.mapSpan f) (fun _ => rfl)
      (fun d => hrepeated _ _ d.span) [] _
  · congr 1
    · exact map_firstRepeated? (MethodDef.mapSpan f) (fun _ => rfl)
        (fun d => hrepeated _ _ d.span) [] _
    · exact map_firstRepeated? (ConstructorDef.mapSpan f) (fun _ => rfl)
        (fun d => hrepeated _ _ d.span) [] _

theorem checkDuplicates_mapSpans (id : ClassId) :
    SameUpTo f Eq (t.checkDuplicates id) ((t.mapSpans f).checkDuplicates id) := by
  unfold checkDuplicates
  rw [repeatedMember?_mapSpans hf]
  cases t.repeatedMember? id with
  | some v => exact .error rfl
  | none => exact .ok rfl

/-! ## §4 Members -/

theorem checkReplace_mapSpans (new old : MethodRef) (location : Location) :
    SameUpTo f Eq (t.checkReplace new old location)
      ((t.mapSpans f).checkReplace new old (location.mapSpan f)) := by
  have hfail (cause : Cause) : SameUpTo f Eq
      (.error { cause, location } : Except Violation Unit)
      (.error { cause, location := location.mapSpan f }) := .error rfl
  unfold checkReplace
  simp only [methodAt_mapSpans hf, methodSignature_mapSpans hf, nameOf_mapSpans hf,
    isCheckedException_mapSpans hf, isCovered_mapSpans hf, MethodDef.returnType_mapSpan,
    MethodDef.throws_mapSpan, MethodDef.modifiers_mapSpan, MethodDef.isStatic_mapSpan]
  split
  · exact hfail _
  split
  · exact hfail _
  split
  · exact hfail _
  split
  · exact hfail _
  split
  · exact hfail _
  split
  · exact hfail _
  · exact .ok rfl

theorem checkReplaceAll_mapSpans (new : MethodRef) (location : Location)
    (olds : List MemberMethod) :
    SameUpTo f Eq (t.checkReplaceAll new location olds)
      ((t.mapSpans f).checkReplaceAll new (location.mapSpan f) olds) := by
  induction olds with
  | nil => exact .ok rfl
  | cons old rest ih =>
    exact .bind (checkReplace_mapSpans hf new old.method location) (fun _ _ _ => ih)

theorem memberLocation_mapSpans (id : ClassId) (name : Name) (params : List Ty) (span : Span) :
    (t.mapSpans f).memberLocation id name params (f span) =
      (t.memberLocation id name params span).mapSpan f := by
  unfold memberLocation
  rw [nameOf_mapSpans hf, signature_mapSpans hf]
  rfl

theorem inheritedGroups_mapSpans (d : ClassDef) (supers : List MemberSet) :
    (t.mapSpans f).inheritedGroups (d.mapSpans f) supers = t.inheritedGroups d supers := by
  have himplicit : (t.mapSpans f).implicitMembers = t.implicitMembers := by
    unfold implicitMembers
    simp only [wellKnown_mapSpans, classAt_mapSpans hf, ClassDef.mapSpans, List.zipIdx_map,
      List.filterMap_map]
    rfl
  have hinterface : (d.mapSpans f).isInterface = d.isInterface := rfl
  have hinterfaces : (d.mapSpans f).interfaces = d.interfaces := rfl
  unfold inheritedGroups
  rw [himplicit, hinterface, hinterfaces]

theorem declareMethods_mapSpans (id : ClassId) (declared : List (MethodDef × Nat))
    (groups : InheritedGroups) (methods : OrderedMap MethodKey MemberMethod) :
    SameUpTo f Eq (t.declareMethods id declared groups methods)
      ((t.mapSpans f).declareMethods id
        (declared.map (fun entry => (entry.1.mapSpan f, entry.2))) groups methods) := by
  induction declared generalizing groups methods with
  | nil => exact .ok rfl
  | cons entry rest ih =>
    obtain ⟨m, index⟩ := entry
    have hlocation := memberLocation_mapSpans (t := t) hf id m.name m.params m.span
    have hreplace := checkReplaceAll_mapSpans (t := t) hf ⟨id, index⟩
      (t.memberLocation id m.name m.params m.span) (groups.group m.key)
    rw [← hlocation] at hreplace
    exact .bind hreplace (fun _ _ _ => ih _ _)

theorem inheritFrom_mapSpans (id : ClassId) (key : MethodKey) (group : List MemberMethod) :
    SameUpTo f Eq (t.inheritFrom id key group) ((t.mapSpans f).inheritFrom id key group) := by
  have hlocation : (t.mapSpans f).memberLocation id key.name key.params
      ((t.mapSpans f).classAt id).span =
      (t.memberLocation id key.name key.params (t.classAt id).span).mapSpan f := by
    rw [classAt_mapSpans hf]
    exact memberLocation_mapSpans hf id key.name key.params _
  have hreturn (ref : MethodRef) :
      ((t.mapSpans f).methodAt ref).returnType = (t.methodAt ref).returnType := by
    rw [methodAt_mapSpans hf]
    rfl
  unfold inheritFrom
  simp only [hlocation, hreturn, signature_mapSpans hf, nameOf_mapSpans hf]
  split
  · exact .bind (checkReplaceAll_mapSpans hf _ _ _) (fun _ _ _ => .ok rfl)
  · split
    · exact .ok rfl
    · split
      · exact .error rfl
      · exact .ok rfl

theorem inheritMethods_mapSpans (id : ClassId) (groups : List (MethodKey × List MemberMethod))
    (methods : OrderedMap MethodKey MemberMethod) :
    SameUpTo f Eq (t.inheritMethods id groups methods)
      ((t.mapSpans f).inheritMethods id groups methods) := by
  induction groups generalizing methods with
  | nil => exact .ok rfl
  | cons entry rest ih =>
    obtain ⟨key, group⟩ := entry
    refine .bind (inheritFrom_mapSpans hf id key group) (fun chosen chosen' h => ?_)
    subst h
    cases chosen with
    | none => exact ih _
    | some member => exact ih _

theorem checkConcrete_mapSpans (id : ClassId) (methods : OrderedMap MethodKey MemberMethod) :
    SameUpTo f Eq (t.checkConcrete id methods) ((t.mapSpans f).checkConcrete id methods) := by
  have habstract : ((t.mapSpans f).classAt id).isAbstract = (t.classAt id).isAbstract := by
    rw [classAt_mapSpans hf]
    rfl
  unfold checkConcrete
  simp only [habstract, nameOf_mapSpans hf, signature_mapSpans hf]
  split
  · exact .ok rfl
  · split
    · exact error_locationOf_mapSpans hf _ id
    · exact .ok rfl

theorem memberSet_mapSpans (id : ClassId) (supers : List MemberSet) :
    SameUpTo f Eq (t.memberSet id supers) ((t.mapSpans f).memberSet id supers) := by
  have hfields (inherited : OrderedMap Name FieldRef) :
      visibleFields ((t.classAt id).mapSpans f) id inherited =
        visibleFields (t.classAt id) id inherited := by
    unfold visibleFields ClassDef.mapSpans
    rw [List.zipIdx_map, List.foldl_map]
    rfl
  have hmethods : ((t.classAt id).mapSpans f).methods.zipIdx =
      (t.classAt id).methods.zipIdx.map (fun entry => (entry.1.mapSpan f, entry.2)) :=
    List.zipIdx_map
  unfold memberSet
  simp only [classAt_mapSpans hf, inheritedGroups_mapSpans hf, hfields, hmethods]
  refine .bind (declareMethods_mapSpans hf id _ _ _) (fun found found' h => ?_)
  subst h
  refine .bind (inheritMethods_mapSpans hf id _ _) (fun methods methods' h => ?_)
  subst h
  exact .bind (checkConcrete_mapSpans hf id methods) (fun _ _ _ => .ok rfl)

/-! ## §5 The stage -/

theorem computeMembers_mapSpans (order : List ClassId) (sets : OrderedMap ClassId MemberSet) :
    SameUpTo f Eq (t.computeMembers order sets) ((t.mapSpans f).computeMembers order sets) := by
  induction order generalizing sets with
  | nil => exact .ok rfl
  | cons id rest ih =>
    unfold computeMembers
    rw [directSupertypes_mapSpans hf]
    refine .bind (memberSet_mapSpans hf id _) (fun set set' h => ?_)
    subst h
    exact ih _

omit hf in
/-- The same checks of the same items. -/
theorem forM_sameUpTo {α : Type} {check check' : α → Except Violation Unit} {items : List α}
    (h : ∀ a ∈ items, SameUpTo f Eq (check a) (check' a)) :
    SameUpTo f Eq (items.forM check) (items.forM check') := by
  induction items with
  | nil => exact .ok rfl
  | cons a items ih =>
    obtain ⟨hfirst, hothers⟩ := List.forall_mem_cons.mp h
    exact .bind hfirst (fun _ _ _ => ih hothers)

/-- Tables that differ in spans have the same members, or break the same rule. -/
theorem checkHierarchy_mapSpans :
    SameUpTo f Eq t.checkHierarchy (t.mapSpans f).checkHierarchy := by
  unfold checkHierarchy
  rw [ids_mapSpans]
  refine .bind (forM_sameUpTo (fun id _ => checkSupertypeEdges_mapSpans hf id)) (fun _ _ _ => ?_)
  refine .bind (dependencyOrder_mapSpans hf) (fun order order' h => ?_)
  subst h
  refine .bind (forM_sameUpTo (fun id _ => checkDuplicates_mapSpans hf id)) (fun _ _ _ => ?_)
  refine .bind (computeMembers_mapSpans hf order ∅) (fun sets sets' h => ?_)
  subst h
  exact .ok rfl

end JoosStatics.TypeTable
