/-
JoosStatics.Proofs.Linking.Lowered — what linking promises about the table.

* `SymbolTable.LowersTo` — what the signature of one unit owes to the unit;
  `lowerUnit_ensures` proves it of every signature that is lowered.
* `TypeTable.WellLinked` — the same facts read off a whole table, in terms of the
  table alone. The later stages rely on nothing else.
* `link_wellLinked` — every table that linking returns is such a table.
-/
import JoosStatics.Linking.Packages
import JoosStatics.Proofs.Linking.Resolution
import JoosStatics.Proofs.Types.Supertypes

namespace JoosStatics

/-- A set of modifiers has the flags of each of its two parts. -/
theorem Modifiers.contains_union_right (m : Modifiers) {other flag : Modifiers}
    (h : other.contains flag = true) : (m ||| other).contains flag = true := by
  have hbits : other.bits &&& flag.bits = flag.bits := by simpa [contains] using h
  show ((m.bits ||| other.bits) &&& flag.bits == flag.bits) = true
  rw [beq_iff_eq]
  apply UInt16.toBitVec_inj.mp
  have hvec := congrArg UInt16.toBitVec hbits
  simp only [UInt16.toBitVec_and, UInt16.toBitVec_or] at hvec ⊢
  apply BitVec.eq_of_getElem_eq
  intro i hi
  have hbit := congrArg (fun b : BitVec 16 => b[i]) hvec
  simp only [BitVec.getElem_and, BitVec.getElem_or] at hbit ⊢
  grind

namespace SymbolTable

variable {s : SymbolTable} {id : ClassId}

/-! ## §1 One unit -/

/-- What a signature owes to the unit that it is lowered from. -/
structure LowersTo (s : SymbolTable) (id : ClassId) (d : ClassDef) : Prop where
  name_eq : d.name = (s.unitAt id).typeName
  superclass_lt : ∀ sup, d.superclass = some sup → sup < s.size
  interfaces_lt : ∀ sup ∈ d.interfaces, sup < s.size
  superclass_of_interface : d.isInterface = true → d.superclass = none
  name_of_superclass_none : d.isInterface = false → d.superclass = none → d.name = objectName
  methods_of_interface : d.isInterface = true → ∀ m ∈ d.methods, m.isAbstract = true
  isDefault_eq : ∀ c ∈ d.constructors, c.isDefault = (s.unitAt id).decl.constructors.isEmpty

theorem lowerSuperclass_ensures (hs : s.Indexed) (hid : id < s.size) :
    Ensures s.AnswersInRange (s.lowerSuperclass id) (fun superclass =>
      (∀ sup, superclass = some sup → sup < s.size) ∧
      ((s.unitAt id).decl.isInterface = true → superclass = none) ∧
      ((s.unitAt id).decl.isInterface = false → superclass = none →
        (s.unitAt id).typeName = objectName)) := by
  unfold lowerSuperclass TypeDecl.isInterface
  simp only
  split
  · rename_i hkind
    rw [hkind]
    exact Ensures.pure (by simp)
  · rename_i ref hkind href
    rw [hkind]
    refine Ensures.bind (resolveRef_ensures hs hid ref) (fun sup hsup => ?_)
    refine Ensures.pure ⟨?_, by simp, by simp⟩
    intro other heq
    cases heq
    exact hsup
  · rename_i hkind hnone
    rw [hkind]
    split
    · rename_i hname
      exact Ensures.pure ⟨by simp, by simp, fun _ _ => hname⟩
    · split
      · rename_i object hobject
        refine Ensures.pure ⟨?_, by simp, by simp⟩
        intro other heq
        cases heq
        exact (hs.lookup_iff.mp hobject).1
      · exact Ensures.throw

theorem lowerField_ensures (hs : s.Indexed) (hid : id < s.size) (field : FieldDecl) :
    Ensures s.AnswersInRange (s.lowerField id field) (fun _ => True) := by
  refine Ensures.bind (resolveType_ensures hs hid field.type) (fun _ _ => ?_)
  exact Ensures.pure trivial

theorem lowerParams_ensures (hs : s.Indexed) (hid : id < s.size) (params : List Param) :
    Ensures s.AnswersInRange (s.lowerParams id params) (fun _ => True) :=
  Ensures.mono
    (Ensures.mapM_all (fun param _ => resolveType_ensures hs hid param.type)) (fun _ _ => trivial)

theorem lowerThrows_ensures (hs : s.Indexed) (hid : id < s.size) (throws : List TypeRef) :
    Ensures s.AnswersInRange (s.lowerThrows id throws) (fun ids => ∀ e ∈ ids, e < s.size) :=
  Ensures.mapM_all (fun ref _ => resolveRef_ensures hs hid ref)

theorem lowerResult_ensures (hs : s.Indexed) (hid : id < s.size) (result : Option TypeSyntax) :
    Ensures s.AnswersInRange (s.lowerResult id result) (fun _ => True) := by
  cases result with
  | none => exact Ensures.pure trivial
  | some type => exact resolveType_ensures hs hid type

/-- The methods of an interface are abstract. -/
theorem lowerMethod_ensures (hs : s.Indexed) (hid : id < s.size) (isInterface : Bool)
    (method : MethodDecl) :
    Ensures s.AnswersInRange (s.lowerMethod id isInterface method) (fun m =>
      isInterface = true → m.isAbstract = true) := by
  refine Ensures.bind (lowerParams_ensures hs hid method.params) (fun params _ => ?_)
  refine Ensures.bind (lowerResult_ensures hs hid method.returnType) (fun result _ => ?_)
  refine Ensures.bind (lowerThrows_ensures hs hid method.throws) (fun throws _ => ?_)
  refine Ensures.pure ?_
  rintro rfl
  exact Modifiers.contains_union_right method.modifiers (by decide)

/-- A written constructor is no default one. -/
theorem lowerConstructor_ensures (hs : s.Indexed) (hid : id < s.size)
    (constructor : ConstructorDecl) :
    Ensures s.AnswersInRange (s.lowerConstructor id constructor) (fun c =>
      c.isDefault = false) := by
  refine Ensures.bind (lowerParams_ensures hs hid constructor.params) (fun params _ => ?_)
  refine Ensures.bind (lowerThrows_ensures hs hid constructor.throws) (fun throws _ => ?_)
  exact Ensures.pure rfl

theorem lowerConstructors_ensures (hs : s.Indexed) (hid : id < s.size) (decl : TypeDecl) :
    Ensures s.AnswersInRange (s.lowerConstructors id decl) (fun cs =>
      ∀ c ∈ cs, c.isDefault = decl.constructors.isEmpty) := by
  unfold lowerConstructors
  split
  · exact Ensures.pure (by simp)
  · split
    · rename_i hempty
      refine Ensures.pure (fun c hc => ?_)
      rw [List.mem_singleton.mp hc, hempty]
      rfl
    · rename_i hwritten
      refine Ensures.mono
        (Ensures.mapM_all (fun c _ => lowerConstructor_ensures hs hid c)) (fun cs hcs c hc => ?_)
      rw [hcs c hc]
      simpa using hwritten

theorem linkBodies_ensures (hs : s.Indexed) (hid : id < s.size) (decl : TypeDecl) :
    Ensures s.AnswersInRange (s.linkBodies id decl) (fun _ => True) := by
  unfold linkBodies
  split
  · refine Ensures.forM (fun type _ => ?_)
    refine Ensures.bind (resolveType_ensures hs hid type) (fun _ _ => ?_)
    exact Ensures.pure trivial
  · exact Ensures.pure trivial

/-- A unit is lowered to a signature of its own. -/
theorem lowerUnit_ensures (hs : s.Indexed) (hid : id < s.size) :
    Ensures s.AnswersInRange (s.lowerUnit id) (s.LowersTo id) := by
  refine Ensures.bind (lowerSuperclass_ensures hs hid) (fun superclass hsuperclass => ?_)
  obtain ⟨hlt, hinterface, hnone⟩ := hsuperclass
  have hrefs : Ensures s.AnswersInRange ((s.unitAt id).decl.interfaces.mapM (s.resolveRef id))
      (fun ids => ∀ sup ∈ ids, sup < s.size) :=
    Ensures.mapM_all (fun ref _ => resolveRef_ensures hs hid ref)
  refine Ensures.bind hrefs (fun interfaces hinterfaces => ?_)
  have hfields : Ensures s.AnswersInRange ((s.unitAt id).decl.fields.mapM (s.lowerField id))
      (fun fields => ∀ f ∈ fields, True) :=
    Ensures.mapM_all (fun field _ => lowerField_ensures hs hid field)
  refine Ensures.bind hfields (fun fields _ => ?_)
  refine Ensures.bind
    (Ensures.mapM_all (fun method _ => lowerMethod_ensures hs hid _ method))
    (fun methods hmethods => ?_)
  refine Ensures.bind (lowerConstructors_ensures hs hid _) (fun constructors hconstructors => ?_)
  refine Ensures.bind (linkBodies_ensures hs hid _) (fun _ _ => ?_)
  exact Ensures.pure {
    name_eq := rfl
    superclass_lt := hlt
    interfaces_lt := hinterfaces
    superclass_of_interface := hinterface
    name_of_superclass_none := hnone
    methods_of_interface := fun h m hm => hmethods m hm h
    isDefault_eq := hconstructors }

end SymbolTable

/-! ## §2 The whole table -/

namespace TypeTable

/-- What linking promises about the signatures of a table. -/
structure WellLinked (t : TypeTable) : Prop where
  /-- Every direct supertype is a type of the table. -/
  supertype_lt : ∀ {sub sup : ClassId}, t.Extends sub sup → sup < t.size
  superclass_of_interface : ∀ {id : ClassId}, (t.classAt id).isInterface = true →
    (t.classAt id).superclass = none
  /-- Only `java.lang.Object` is a class without a superclass. -/
  eq_object : ∀ {id : ClassId}, id < t.size → (t.classAt id).isInterface = false →
    (t.classAt id).superclass = none → id = t.wellKnown.object
  methods_of_interface : ∀ {id : ClassId}, (t.classAt id).isInterface = true →
    ∀ m ∈ (t.classAt id).methods, m.isAbstract = true
  object_lt : t.wellKnown.object < t.size
  throwable_lt : t.wellKnown.throwable < t.size
  throwable_ne_object : t.wellKnown.throwable ≠ t.wellKnown.object

/-- A type that the rules mention is found by its name. -/
theorem require_eq_ok {classes : Array ClassDef} {name : String} {id : ClassId}
    (h : require classes name = .ok id) :
    id < classes.size ∧ (classes.getD id default).name = .ofDotted name := by
  unfold require indexIn at h
  split at h
  · rename_i found hfound
    cases h
    obtain ⟨hlt, hname, -⟩ := Array.findIdx?_eq_some_iff_getElem.mp hfound
    refine ⟨hlt, ?_⟩
    rw [Array.getD_eq_getD_getElem?, Array.getElem?_eq_getElem hlt]
    exact eq_of_beq hname
  · cases h

/-- A table that is made of signatures finds the types that the rules mention by their names. -/
theorem ofClasses_requires {classes : Array ClassDef} {t : TypeTable}
    (h : ofClasses classes = .ok t) :
    t.classes = classes ∧
    require classes "java.lang.Object" = .ok t.wellKnown.object ∧
    require classes "java.lang.Cloneable" = .ok t.wellKnown.cloneable ∧
    require classes "java.io.Serializable" = .ok t.wellKnown.serializable ∧
    require classes "java.lang.Throwable" = .ok t.wellKnown.throwable := by
  obtain ⟨object, hobject, h⟩ := bind_eq_ok.mp h
  obtain ⟨string, -, h⟩ := bind_eq_ok.mp h
  obtain ⟨cloneable, hcloneable, h⟩ := bind_eq_ok.mp h
  obtain ⟨serializable, hserializable, h⟩ := bind_eq_ok.mp h
  obtain ⟨throwable, hthrowable, h⟩ := bind_eq_ok.mp h
  obtain ⟨runtimeException, -, h⟩ := bind_eq_ok.mp h
  obtain ⟨error, -, h⟩ := bind_eq_ok.mp h
  cases h
  exact ⟨rfl, hobject, hcloneable, hserializable, hthrowable⟩

/-- What a table that is made of signatures knows of the types that the rules
mention. -/
theorem ofClasses_eq_ok {classes : Array ClassDef} {t : TypeTable}
    (h : ofClasses classes = .ok t) :
    t.classes = classes ∧
    (t.wellKnown.object < t.size ∧
      (t.classAt t.wellKnown.object).name = SymbolTable.objectName) ∧
    (t.wellKnown.throwable < t.size ∧
      (t.classAt t.wellKnown.throwable).name = .ofDotted "java.lang.Throwable") := by
  obtain ⟨rfl, hobject, -, -, hthrowable⟩ := ofClasses_requires h
  exact ⟨rfl, require_eq_ok hobject, require_eq_ok hthrowable⟩

end TypeTable

namespace SymbolTable

variable {s : SymbolTable}

theorem checkImports_ensures (s : SymbolTable) {I : LookupState → Prop} (id : ClassId) :
    Ensures I (ExceptT.mk (pure (s.checkImports id)) : LookupM Unit) (fun _ => True) := by
  intro st a st' hst hrun
  obtain rfl : st = st' := congrArg Prod.snd hrun
  exact ⟨hst, trivial⟩

/-- The signatures of all units, each lowered from its own unit. -/
theorem lowerAll_ensures {I : LookupState → Prop} {R : ClassId → ClassDef → Prop}
    (hunit : ∀ id < s.size, Ensures I (s.lowerUnit id) (R id)) :
    Ensures I s.lowerAll (fun t =>
      t.size = s.size ∧ (∀ id < s.size, R id (t.classAt id)) ∧
      ∃ classes, TypeTable.ofClasses classes = .ok t) := by
  unfold lowerAll
  refine Ensures.bind (Ensures.forM (fun id _ => s.checkImports_ensures id)) (fun _ _ => ?_)
  have hunits : Ensures I (s.ids.mapM s.lowerUnit) (List.Forall₂ R s.ids) :=
    Ensures.mapM (fun id hid => hunit id (List.mem_range.mp hid))
  refine Ensures.bind hunits (fun defs hdefs => ?_)
  split
  · rename_i t ht
    have hclasses := (TypeTable.ofClasses_eq_ok ht).1
    have hsize : t.size = s.size := by
      unfold TypeTable.size
      rw [hclasses, List.size_toArray, ← hdefs.length_eq]
      exact List.length_range
    refine Ensures.pure ⟨hsize, fun id hid => ?_, _, ht⟩
    have hlt : id < defs.length := by
      rw [← hdefs.length_eq]
      simpa [ids] using hid
    have hget := hdefs.get (i := id) (by simpa [ids] using hid) hlt
    have hat : t.classAt id = defs[id] := by
      unfold TypeTable.classAt
      rw [hclasses, Array.getD_eq_getD_getElem?, List.getElem?_toArray,
        List.getElem?_eq_getElem hlt]
      rfl
    rw [hat]
    simpa [ids] using hget
  · exact Ensures.throw

/-- What a successful link has gone through. -/
theorem link_run {l : Linked} (h : s.link = .ok l) :
    l.symbols = s ∧ s.lowerAll {} = (.ok l.table, l.lookups) ∧
    s.checkPackageClashes l.lookups.usedPackages = .ok () := by
  unfold link at h
  rcases hrun : s.lowerAll {} with ⟨result, lookups⟩
  rw [hrun] at h
  cases result with
  | error violation => cases h
  | ok t =>
    obtain ⟨_, ht, h⟩ := bind_eq_ok.mp h
    cases ht
    obtain ⟨_, hclashes, h⟩ := bind_eq_ok.mp h
    cases h
    exact ⟨rfl, rfl, hclashes⟩

/-- A linked program keeps its symbols, and its table is lowered from them. -/
theorem link_eq_ok (hs : s.Indexed) {l : Linked} (h : s.link = .ok l) :
    l.symbols = s ∧ l.table.size = s.size ∧
    (∀ id < s.size, s.LowersTo id (l.table.classAt id)) ∧
    ∃ classes, TypeTable.ofClasses classes = .ok l.table := by
  obtain ⟨hsymbols, hrun, -⟩ := link_run h
  exact ⟨hsymbols, (lowerAll_ensures (fun _ hid => lowerUnit_ensures hs hid) _ _ _
    s.answersInRange_empty hrun).2⟩

/-- Linking keeps its promises. -/
theorem link_wellLinked (hs : s.Indexed) {l : Linked} (h : s.link = .ok l) :
    l.table.WellLinked := by
  obtain ⟨-, hsize, hlowers, classes, hclasses⟩ := link_eq_ok hs h
  obtain ⟨-, ⟨hobject, hobjectName⟩, hthrowable, hthrowableName⟩ :=
    TypeTable.ofClasses_eq_ok hclasses
  have hat : ∀ {id}, id < l.table.size → s.LowersTo id (l.table.classAt id) :=
    fun hid => hlowers _ (hsize ▸ hid)
  have hin : ∀ {id : ClassId}, (l.table.classAt id).isInterface = true → id < l.table.size := by
    intro id hinterface
    by_contra hge
    rw [l.table.classAt_of_size_le (Nat.le_of_not_lt hge)] at hinterface
    cases hinterface
  constructor
  · intro sub sup hedge
    have hsub := hat hedge.lt_size
    rw [hsize]
    rcases List.mem_append.mp hedge with h | h
    · exact hsub.superclass_lt sup (Option.mem_toList.mp h)
    · exact hsub.interfaces_lt sup h
  · intro id hinterface
    exact (hat (hin hinterface)).superclass_of_interface hinterface
  · intro id hid hclass hnone
    apply hs.eq_of_typeName_eq (hsize ▸ hid) (hsize ▸ hobject)
    rw [← (hat hid).name_eq, ← (hat hobject).name_eq, hobjectName]
    exact (hat hid).name_of_superclass_none hclass hnone
  · intro id hinterface
    exact (hat (hin hinterface)).methods_of_interface hinterface
  · exact hobject
  · exact hthrowable
  · intro heq
    rw [heq, hobjectName] at hthrowableName
    exact absurd hthrowableName (by decide)

end SymbolTable

end JoosStatics
