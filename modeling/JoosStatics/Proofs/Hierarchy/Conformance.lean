/-
JoosStatics.Proofs.Hierarchy.Conformance — a method conforms to the methods
it replaces, however far above.

The hierarchy stage compares a method with one method of each direct
supertype only. Conformance with a method `o` further up follows along a
chain of supertypes on which every type either has the method of the next
one or replaces it: `Traced` describes such a chain, `ReplacesVia` the
replacements that are met on it. A type that keeps one of several abstract
methods compares their result types only and breaks the chain.

* `Accepted.traced_of_superclass` — superclass chains never break.
* `HasHierarchy.members_conform` — the five rules for every method above.
* `conformance_needs_tracing` — none of the conditions can be left out.
-/
import JoosStatics.Proofs.Hierarchy.Dispatch
import JoosStatics.Proofs.Hierarchy.Exceptions

namespace JoosStatics

namespace TypeTable

variable {t : TypeTable} {h : Hierarchy} {id sup c d : ClassId} {key : MethodKey}
  {P : MethodDef → Prop} {o : MethodRef}

/-! ## §1 Replacement in several steps -/

/-- A method replaces `o`, directly or through methods with a property. -/
inductive ReplacesVia (t : TypeTable) (P : MethodDef → Prop) (o : MethodRef) : MethodRef → Prop
  | direct {new : MethodRef} (hreplaces : t.Replaces new o) : ReplacesVia t P o new
  | via {new mid : MethodRef} (hreplaces : t.Replaces new mid) (hmid : P (t.methodAt mid))
      (hrest : ReplacesVia t P o mid) : ReplacesVia t P o new

namespace ReplacesVia

variable {new : MethodRef}

theorem notFinal (hvia : t.ReplacesVia P o new) : (t.methodAt o).modifiers.isFinal = false := by
  induction hvia with
  | direct hreplaces => exact hreplaces.notFinal
  | via _ _ _ ih => exact ih

theorem isStatic_eq (hvia : t.ReplacesVia P o new) :
    (t.methodAt new).isStatic = (t.methodAt o).isStatic := by
  induction hvia with
  | direct hreplaces => exact hreplaces.isStatic_eq
  | via hreplaces _ _ ih => exact hreplaces.isStatic_eq.trans ih

/-- A public method stays accessible when no method on the way leaves its
access open. -/
theorem notNarrower
    (hvia : t.ReplacesVia (fun m => m.modifiers.isPublic = true ∨ m.modifiers.isProtected = true)
      o new)
    (hpublic : (t.methodAt o).modifiers.isPublic = true) :
    (t.methodAt new).modifiers.isProtected = false := by
  induction hvia with
  | direct hreplaces => exact hreplaces.notNarrower hpublic
  | via hreplaces hmid _ ih =>
    rw [ih] at hmid
    rcases hmid with hmid | hmid
    · exact hreplaces.notNarrower hmid
    · cases hmid

/-- A checked exception class stays covered when the methods on the way name
only throwable types above it. -/
theorem throws (hl : t.WellLinked) (ha : t.Accepted h) {exception : ClassId}
    (hclass : (t.classAt exception).isInterface = false)
    (hchecked : t.isCheckedException exception = true)
    (hvia : t.ReplacesVia (fun m => ∀ declared ∈ m.throws, t.isSubclass exception declared = true →
      t.isSubclass declared t.wellKnown.throwable = true) o new)
    {thrown : ClassId} (hthrown : thrown ∈ (t.methodAt new).throws)
    (hsub : t.isSubclass exception thrown = true)
    (hthrownChecked : t.isCheckedException thrown = true) :
    t.isCovered exception (t.methodAt o).throws = true := by
  induction hvia generalizing thrown with
  | direct hreplaces =>
    obtain ⟨declared, hdeclared, hcovers⟩ :=
      isCovered_iff.mp (hreplaces.throws thrown hthrown hthrownChecked)
    exact isCovered_iff.mpr
      ⟨declared, hdeclared, ha.isSubclass_trans hl hclass hchecked hsub hcovers⟩
  | via hreplaces hmid _ ih =>
    obtain ⟨declared, hdeclared, hcovers⟩ :=
      isCovered_iff.mp (hreplaces.throws thrown hthrown hthrownChecked)
    have habove := ha.isSubclass_trans hl hclass hchecked hsub hcovers
    have hthrowable := hmid declared hdeclared habove
    exact ih hdeclared habove (ha.isCheckedException_above hl hclass hchecked habove hthrowable)

end ReplacesVia

/-! ## §2 Chains of supertypes -/

/-- A chain of direct supertypes leads from a type to the owner of `o`. Where
a type keeps an abstract method without declaring it, the next type has the
same one; the other methods that the types above have are `o` or have a
property. -/
inductive Traced (t : TypeTable) (h : Hierarchy) (key : MethodKey) (P : MethodDef → Prop)
    (o : MethodRef) : ClassId → Prop
  | owner : Traced t h key P o o.owner
  | step {sub sup : ClassId} (hedge : t.Extends sub sup)
      (hkept : ∀ kept above, (h.members sub).method? key = some kept →
        (h.members sup).method? key = some above → kept.isAbstract = true →
        t.Declares sub key ∨ kept.method = above.method)
      (hproperty : ∀ above, (h.members sup).method? key = some above → above.method ≠ o →
        P (t.methodAt above.method))
      (hrest : Traced t h key P o sup) : Traced t h key P o sub

theorem Traced.owner_mem_supertypes (htraced : t.Traced h key P o d) :
    o.owner ∈ t.supertypes d := by
  induction htraced with
  | owner => exact t.mem_supertypes_self o.owner
  | step hedge _ _ _ ih => exact t.mem_supertypes_iff.mpr (.head hedge (t.mem_supertypes_iff.mp ih))

/-- A type has the method of a direct supertype or replaces it, unless it
keeps another abstract method. -/
theorem Accepted.eq_or_replaces (ha : t.Accepted h) (hedge : t.Extends id sup)
    {kept above : MemberMethod} (hkept : (h.members id).method? key = some kept)
    (habove : (h.members sup).method? key = some above)
    (hsame : kept.isAbstract = true → t.Declares id key ∨ kept.method = above.method) :
    kept.method = above.method ∨ t.Replaces kept.method above.method := by
  have hassembles := ha.assembles hedge.lt_size
  have hinherits := Accepted.inherits (t := t) hedge habove
  rcases hassembles.cases_method hkept with ⟨index, m, hm, rfl, heq⟩ | ⟨hnot, hkeeps, -⟩
  · rw [heq]
    exact Or.inr (hassembles.replaces hm hinherits)
  · cases hflag : kept.isAbstract with
    | true =>
      rcases hsame hflag with ⟨m, hm, hkey⟩ | hsame
      · exact absurd hkey (hnot m hm)
      · exact Or.inl hsame
    | false =>
      obtain ⟨other, hother, hmethod⟩ := exists_mem_group hinherits
      by_cases heq : other.method = kept.method
      · exact Or.inl (heq.symm.trans hmethod)
      · refine Or.inr ?_
        rw [← hmethod]
        exact hkeeps.replaces hflag hother heq

/-- Along a chain that does not break a type has `o` or replaces it. -/
theorem Accepted.eq_or_replacesVia (ha : t.Accepted h) {m : MethodDef}
    (hm : (t.classAt o.owner).methods[o.index]? = some m) (hkey : m.key = key)
    (hlt : o.owner < t.size) (htraced : t.Traced h key P o d) {member : MemberMethod}
    (hfind : (h.members d).method? key = some member) :
    member.method = o ∨ t.ReplacesVia P o member.method := by
  subst hkey
  have howner := (ha.assembles hlt).declared hm
  induction htraced generalizing member with
  | owner =>
    rw [howner] at hfind
    cases hfind
    exact Or.inl rfl
  | step hedge hkept hproperty hrest ih =>
    obtain ⟨above, habove, -⟩ := ha.keeps_method hrest.owner_mem_supertypes howner
    rcases ha.eq_or_replaces hedge hfind habove (hkept member above hfind habove) with
      heq | hreplaces
    · rw [heq]
      exact ih habove
    · right
      by_cases heq : above.method = o
      · exact .direct (heq ▸ hreplaces)
      · exact .via hreplaces (hproperty above habove heq) ((ih habove).resolve_left heq)

/-- A class has from its superclass whatever it does not declare. -/
theorem Accepted.keeps_superclass (hl : t.WellLinked) (ha : t.Accepted h)
    (hsup : (t.classAt id).superclass = some sup) (hnot : ¬ t.Declares id key)
    {above : MemberMethod} (habove : (h.members sup).method? key = some above) :
    (h.members id).method? key = some above := by
  have hedge := extends_of_superclass hsup
  have hclass : (t.classAt id).isInterface = false := by
    cases hkind : (t.classAt id).isInterface with
    | false => rfl
    | true =>
      rw [hl.superclass_of_interface hkind] at hsup
      cases hsup
  have hnot : ∀ m ∈ (t.classAt id).methods, m.key ≠ key := fun m hm heq => hnot ⟨m, hm, heq⟩
  have hkeeps := (ha.assembles hedge.lt_size).inherited hnot
  have hhead := head?_group_of_superclass hsup habove
  obtain ⟨chosen, hchosen⟩ := hkeeps.exists_some (List.mem_of_mem_head? hhead)
  rw [hchosen] at hkeeps ⊢
  cases hflag : chosen.isAbstract with
  | true =>
    -- all inherited methods are abstract, and the first one is kept
    cases hkeeps with
    | concrete _ hconcrete _ =>
      rw [hflag] at hconcrete
      cases hconcrete
    | allAbstract hgroup _ _ =>
      rw [hgroup] at hhead
      exact hhead
  | false =>
    -- a method that is not abstract can only come from the superclass
    have hdispatches := ha.origin hl hedge.lt_size hchosen
    cases hdispatches with
    | declared hm hkey _ => exact absurd hkey (hnot _ (List.mem_of_getElem? hm))
    | inherited _ hother hfind =>
      rcases List.mem_append.mp hother with hmem | hmem
      · rw [hsup] at hmem
        obtain rfl := List.mem_singleton.mp hmem
        exact hfind.symm.trans habove
      · rw [ha.isAbstract_of_interface hl (hl.supertype_lt hother)
          (ha.interfaces_areInterfaces hmem) hfind] at hflag
        cases hflag
    | implicit _ hinterface _ =>
      rw [hclass] at hinterface
      cases hinterface

/-- A superclass chain never breaks. -/
theorem Accepted.traced_of_superclass (hl : t.WellLinked) (ha : t.Accepted h)
    (hchain : t.OnSuperclassChain d o.owner) : t.Traced h key (fun _ => True) o d := by
  induction hchain using Relation.ReflTransGen.head_induction_on with
  | refl => exact .owner
  | @head sub sup hsup _ ih =>
    refine .step (extends_of_superclass hsup) ?_ (fun _ _ _ => trivial) ih
    intro kept above hkept habove _
    by_cases hdeclares : t.Declares sub key
    · exact Or.inl hdeclares
    · rw [ha.keeps_superclass hl hsup hdeclares habove] at hkept
      cases hkept
      exact Or.inr rfl

end TypeTable

/-! ## §3 Conformance -/

/-- The method of a type conforms to every other method of its signature that a
supertype declares. The result types always agree. The chain to the supertype
must not break for the rules on `final` and `static`; on such a chain the
rule on access needs that the methods replaced on the way are public or
protected, the rule on a checked exception class that their throws clauses
name only throwable types above it. Superclass chains never break. -/
theorem HasHierarchy.members_conform {program library : List CompilationUnit} {l : Linked}
    {h : Hierarchy} (hh : HasHierarchy program library l h) {d : ClassId} {member : MemberMethod}
    {o : MethodRef} {m : MethodDef} (hm : (l.table.classAt o.owner).methods[o.index]? = some m)
    (hfind : (h.members d).method? m.key = some member)
    (habove : o.owner ∈ l.table.supertypes d) (hne : member.method ≠ o) :
    (l.table.methodAt member.method).returnType = m.returnType ∧
    (l.table.Traced h m.key (fun _ => True) o d →
      m.modifiers.isFinal = false ∧ (l.table.methodAt member.method).isStatic = m.isStatic) ∧
    (l.table.Traced h m.key
        (fun n => n.modifiers.isPublic = true ∨ n.modifiers.isProtected = true) o d →
      m.modifiers.isPublic = true →
      (l.table.methodAt member.method).modifiers.isProtected = false) ∧
    (∀ exception ∈ (l.table.methodAt member.method).throws,
      l.table.isCheckedException exception = true →
      (l.table.classAt exception).isInterface = false →
      l.table.Traced h m.key (fun n => ∀ declared ∈ n.throws,
        l.table.isSubclass exception declared = true →
        l.table.isSubclass declared l.table.wellKnown.throwable = true) o d →
      l.table.isCovered exception m.throws = true) ∧
    (l.table.OnSuperclassChain d o.owner → l.table.Traced h m.key (fun _ => True) o d) := by
  have hl := hh.wellLinked
  have ha := hh.accepted
  have hlt : o.owner < l.table.size := by
    by_contra hge
    rw [l.table.classAt_of_size_le (Nat.le_of_not_lt hge)] at hm
    cases hm
  have hat : l.table.methodAt o = m := TypeTable.methodAt_of_getElem? hm
  have hvia : ∀ {P}, l.table.Traced h m.key P o d → l.table.ReplacesVia P o member.method :=
    fun htraced => (ha.eq_or_replacesVia hm rfl hlt htraced hfind).resolve_left hne
  refine ⟨?_, fun htraced => ⟨?_, ?_⟩, fun htraced hpublic => ?_, ?_, ha.traced_of_superclass hl⟩
  · obtain ⟨kept, hkept, hreturn⟩ := ha.keeps_method habove ((ha.assembles hlt).declared hm)
    rw [hfind] at hkept
    cases hkept
    rw [hreturn, ← hat]
  · rw [← hat]
    exact (hvia htraced).notFinal
  · rw [← hat]
    exact (hvia htraced).isStatic_eq
  · rw [← hat] at hpublic
    exact (hvia htraced).notNarrower hpublic
  · intro exception hthrown hchecked hclass htraced
    rw [← hat]
    exact (hvia htraced).throws hl ha hclass hchecked hthrown
      (l.table.isSubclass_self exception) hchecked

/-- The square conforms to the interface, which it implements by inheritance. -/
theorem square_conforms_to_shape : ∃ l h, HasHierarchy shapes coreUnits l h ∧
    l.table.methodAt ⟨1, 0⟩ ≠ l.table.methodAt ⟨0, 0⟩ ∧
    (l.table.methodAt ⟨1, 0⟩).returnType = (l.table.methodAt ⟨0, 0⟩).returnType ∧
    (l.table.methodAt ⟨0, 0⟩).modifiers.isFinal = false ∧
    (l.table.methodAt ⟨1, 0⟩).isStatic = (l.table.methodAt ⟨0, 0⟩).isStatic := by
  obtain ⟨l, h, hh, htest⟩ := exists_hasHierarchy shapes coreUnits (fun l h => decide (
      (l.table.classAt 0).methods[0]? = some (l.table.methodAt ⟨0, 0⟩) ∧
      (h.members 2).method? (l.table.methodAt ⟨0, 0⟩).key = some ⟨⟨1, 0⟩, false⟩ ∧
      0 ∈ (l.table.classAt 2).directSupertypes ∧ 0 ∈ l.table.supertypes 2 ∧
      l.table.methodAt ⟨1, 0⟩ ≠ l.table.methodAt ⟨0, 0⟩)) (by decide +kernel)
  obtain ⟨hm, hfind, hedge, habove, hne⟩ := of_decide_eq_true htest
  obtain ⟨hreturn, hrules, -⟩ :=
    hh.members_conform (o := ⟨0, 0⟩) hm hfind habove (by decide)
  have htraced : l.table.Traced h (l.table.methodAt ⟨0, 0⟩).key (fun _ => True) ⟨0, 0⟩ 2 := by
    refine .step hedge ?_ (fun _ _ _ => trivial) .owner
    intro kept above hkept _ habstract
    rw [hfind] at hkept
    cases hkept
    cases habstract
  exact ⟨l, h, hh, hne, hreturn, hrules htraced⟩

/-! ## §4 The conditions -/

/-- The five rules can be computed. -/
instance (t : TypeTable) (new old : MethodRef) : Decidable (t.Replaces new old) :=
  match hcheck : t.checkReplace new old (.ofType "") with
  | .ok () => isTrue (TypeTable.checkReplace_eq_ok.mp hcheck)
  | .error _ => isFalse (fun hreplaces => by
      rw [TypeTable.checkReplace_eq_ok.mpr hreplaces] at hcheck
      cases hcheck)

/-- A type has a method that is not abstract and breaks a rule with respect to
another method of its signature that a supertype declares. -/
def BreaksRule (l : Linked) (h : Hierarchy) (d : ClassId) (o : MethodRef) : Prop :=
  ∃ member, (h.members d).method? (l.table.methodAt o).key = some member ∧
    member.isAbstract = false ∧ o.owner ∈ l.table.supertypes d ∧
    o.index < (l.table.classAt o.owner).methods.length ∧ member.method ≠ o ∧
    ¬ l.table.Replaces member.method o

/-- An interface that keeps one of two abstract methods, and a class that
conforms to that one only. -/
def mergedInterfaces : List CompilationUnit :=
  let m := Library.procedure "m"
  unitsOf [
    { Library.interfaceNamed "A" with methods := [{ m with throws := [.ofDotted "Near"] }] },
    { Library.interfaceNamed "B" with methods := [{ m with throws := [.ofDotted "Far"] }] },
    ((Library.interfaceNamed "C").extending "A").extending "B",
    { (Library.classNamed "D").implementing "C" with
      methods := [{ m with throws := [.ofDotted "Near"] }] },
    (Library.classNamed "Near").extending "Exception",
    (Library.classNamed "Far").extending "Exception"]

/-- A throws clause that names `java.lang.Object` between two others. -/
def throwsObject : List CompilationUnit :=
  let m := Library.procedure "m"
  unitsOf [
    { Library.classNamed "A" with methods := [m] },
    { (Library.classNamed "B").extending "A" with
      methods := [{ m with throws := [.ofDotted "Object"] }] },
    { (Library.classNamed "C").extending "B" with
      methods := [{ m with throws := [.ofDotted "Exception"] }] }]

/-- A method that is neither public nor protected between two others. -/
def unsaidAccess : List CompilationUnit :=
  let m := Library.procedure "m"
  unitsOf [
    { Library.classNamed "A" with methods := [m] },
    { (Library.classNamed "B").extending "A" with methods := [{ m with modifiers := .none }] },
    { (Library.classNamed "C").extending "B" with
      methods := [{ m with modifiers := .protected }] }]

/-- Accepted programs break the rules where a chain breaks, where a throws
clause on the way names a type that is not throwable, and where a method on
the way leaves its access open. -/
theorem conformance_needs_tracing :
    (∃ l h, HasHierarchy mergedInterfaces coreUnits l h ∧ BreaksRule l h 3 ⟨1, 0⟩) ∧
    (∃ l h, HasHierarchy throwsObject coreUnits l h ∧ BreaksRule l h 2 ⟨0, 0⟩) ∧
    ∃ l h, HasHierarchy unsaidAccess coreUnits l h ∧ BreaksRule l h 2 ⟨0, 0⟩ := by
  have hbreaks : ∀ {program d o}, passesHierarchy program coreUnits (fun l h => decide (
      (h.members d).method? (l.table.methodAt o).key = some ⟨⟨d, 0⟩, false⟩ ∧
      o.owner ∈ l.table.supertypes d ∧ o.index < (l.table.classAt o.owner).methods.length ∧
      ⟨d, 0⟩ ≠ o ∧ ¬ l.table.Replaces ⟨d, 0⟩ o)) = true →
      ∃ l h, HasHierarchy program coreUnits l h ∧ BreaksRule l h d o := by
    intro program d o hpasses
    obtain ⟨l, h, hh, htest⟩ := exists_hasHierarchy program coreUnits _ hpasses
    obtain ⟨hfind, habove, hindex, hne, hbroken⟩ := of_decide_eq_true htest
    exact ⟨l, h, hh, _, hfind, rfl, habove, hindex, hne, hbroken⟩
  exact ⟨hbreaks (by decide +kernel), hbreaks (by decide +kernel), hbreaks (by decide +kernel)⟩

end JoosStatics
