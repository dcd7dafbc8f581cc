/-
JoosStatics.Proofs.Hierarchy.Inheritance — subtypes keep the members of their
supertypes.

Each direct supertype hands its methods and fields on (`Accepted.keeps`), so
chains of supertypes do. Interfaces reach `java.lang.Object` only through
their implied methods; its public instance methods arrive in every type all
the same (`Accepted.has_objectMethod`). Nothing else gets into a member set:
§3 traces each entry back to the type that declares it.
-/
import JoosStatics.Proofs.Hierarchy.Accepted

namespace JoosStatics

namespace TypeTable

variable {t : TypeTable} {h : Hierarchy} {id c d : ClassId}

/-! ## §1 Chains of supertypes -/

/-- A signature of a supertype is one of the type, with the same result
type. -/
theorem Accepted.keeps_method (ha : t.Accepted h) (hsub : c ∈ t.supertypes d) {key : MethodKey}
    {member : MemberMethod} (hfind : (h.members c).method? key = some member) :
    ∃ kept, (h.members d).method? key = some kept ∧
      (t.methodAt kept.method).returnType = (t.methodAt member.method).returnType := by
  induction t.mem_supertypes_iff.mp hsub using Relation.ReflTransGen.head_induction_on with
  | refl => exact ⟨member, hfind, rfl⟩
  | head hedge hpath ih =>
    obtain ⟨above, habove, hreturn⟩ := ih (t.mem_supertypes_iff.mpr hpath)
    obtain ⟨kept, hkept, hsame⟩ := ha.keeps hedge habove
    exact ⟨kept, hkept, hsame.trans hreturn⟩

/-- A field name of a supertype is one of the type. -/
theorem Accepted.keeps_field (ha : t.Accepted h) (hsub : c ∈ t.supertypes d) {name : Name}
    (hfield : ((h.members c).field? name).isSome = true) :
    ((h.members d).field? name).isSome = true := by
  induction t.mem_supertypes_iff.mp hsub using Relation.ReflTransGen.head_induction_on with
  | refl => exact hfield
  | head hedge hpath ih =>
    obtain ⟨ref, href⟩ := Option.isSome_iff_exists.mp (ih (t.mem_supertypes_iff.mpr hpath))
    show ((h.members _).fields.find? name).isSome = true
    rw [(ha.assembles hedge.lt_size).fields_eq]
    exact isSome_visibleFields (List.mem_map.mpr ⟨_, hedge, rfl⟩)
      (OrderedMap.mem_entries_of_find? href)

/-! ## §2 Methods of `java.lang.Object` -/

/-- Every type, interfaces included, has the public instance methods of
`java.lang.Object` with their result types. -/
theorem Accepted.has_objectMethod (hl : t.WellLinked) (ha : t.Accepted h) {m : MethodDef}
    (hm : m ∈ (t.classAt t.wellKnown.object).methods) (hpublic : m.modifiers.isPublic = true)
    (hinstance : m.isStatic = false) (hid : id < t.size) :
    ∃ member, (h.members id).method? m.key = some member ∧
      (t.methodAt member.method).returnType = m.returnType := by
  obtain ⟨index, hindex⟩ := List.mem_iff_getElem?.mp hm
  have hat : t.methodAt ⟨t.wellKnown.object, index⟩ = m := methodAt_of_getElem? hindex
  induction id using ha.wellFounded.induction with
  | _ id ih =>
    -- a type with a direct supertype has the method from there
    have hsuper : ∀ sup, t.Extends id sup → ∃ member, (h.members id).method? m.key = some member ∧
        (t.methodAt member.method).returnType = m.returnType := by
      intro sup hedge
      obtain ⟨above, habove, hreturn⟩ := ih sup hedge (hl.supertype_lt hedge)
      obtain ⟨kept, hkept, hsame⟩ := ha.keeps hedge habove
      exact ⟨kept, hkept, hsame.trans hreturn⟩
    cases hkind : (t.classAt id).isInterface with
    | true =>
      cases hinterfaces : (t.classAt id).interfaces with
      | cons sup rest =>
        refine hsuper sup (List.mem_append_right _ ?_)
        rw [hinterfaces]
        exact List.mem_cons_self ..
      | nil =>
        have himplicit : (m.key, { method := ⟨t.wellKnown.object, index⟩, isAbstract := true }) ∈
            t.implicitMembers :=
          mem_implicitMembers.mpr ⟨index, m, hindex, hpublic, hinstance, rfl, rfl⟩
        obtain ⟨kept, hkept, hsame⟩ :=
          (ha.assembles hid).keeps (.implicit hkind hinterfaces himplicit)
        exact ⟨kept, hkept, by rw [hsame, hat]⟩
    | false =>
      cases hsuperclass : (t.classAt id).superclass with
      | some sup => exact hsuper sup (List.mem_append_left _ (Option.mem_toList.mpr hsuperclass))
      | none =>
        obtain rfl := hl.eq_object hid hkind hsuperclass
        exact ⟨_, (ha.assembles hid).declared hindex, by rw [hat]⟩

/-! ## §3 Declarations behind the entries -/

/-- A method declares the signature that it is stored under. -/
theorem Accepted.declares_key (hl : t.WellLinked) (ha : t.Accepted h) (hid : id < t.size)
    {key : MethodKey} {member : MemberMethod} (hfind : (h.members id).method? key = some member) :
    (∃ m, (t.classAt member.method.owner).methods[member.method.index]? = some m ∧ m.key = key) ∧
    (member.method.owner ∈ t.supertypes id ∨ member.method.owner = t.wellKnown.object) := by
  induction id using ha.wellFounded.induction with
  | _ id ih =>
    cases ha.origin hl hid hfind with
    | declared hm hkey heq =>
      subst heq
      exact ⟨⟨_, hm, hkey⟩, Or.inl (t.mem_supertypes_self id)⟩
    | inherited _ hedge habove =>
      obtain ⟨hdeclares, howner⟩ := ih _ hedge (hl.supertype_lt hedge) habove
      refine ⟨hdeclares, howner.imp_left (fun hmem => ?_)⟩
      exact t.mem_supertypes_iff.mpr (.head hedge (t.mem_supertypes_iff.mp hmem))
    | implicit _ _ himplicit =>
      obtain ⟨index, m, hm, -, -, rfl, rfl⟩ := mem_implicitMembers.mp himplicit
      exact ⟨⟨m, hm, rfl⟩, Or.inr rfl⟩

/-- A field declares the name that it is stored under. -/
theorem Accepted.declares_name (hl : t.WellLinked) (ha : t.Accepted h) (hid : id < t.size)
    {name : Name} {ref : FieldRef} (hfind : (h.members id).field? name = some ref) :
    (∃ f, (t.classAt ref.owner).fields[ref.index]? = some f ∧ f.name = name) ∧
    ref.owner ∈ t.supertypes id := by
  induction id using ha.wellFounded.induction with
  | _ id ih =>
    have hvisible : (h.members id).fields.find? name = some ref := hfind
    rw [(ha.assembles hid).fields_eq] at hvisible
    rcases find?_visibleFields hvisible with ⟨index, f, hf, hname, rfl⟩ | ⟨set, hset, hentry⟩
    · exact ⟨⟨f, hf, hname⟩, t.mem_supertypes_self id⟩
    · obtain ⟨sup, hedge, rfl⟩ := List.mem_map.mp hset
      have hsorted := (ha.assembles (hl.supertype_lt hedge)).sorted_fields
      obtain ⟨hdeclares, howner⟩ := ih sup hedge (hl.supertype_lt hedge)
        (OrderedMap.find?_of_mem_entries hsorted hentry)
      exact ⟨hdeclares, t.mem_supertypes_iff.mpr (.head hedge (t.mem_supertypes_iff.mp howner))⟩

end TypeTable

/-- In an accepted hierarchy subtypes keep every signature, with its result
type, and every field name of their supertypes; every type has the public
instance methods of `java.lang.Object`; and every entry of a member set is
declared under its key by the type, a supertype or `java.lang.Object`. -/
theorem HasHierarchy.subtypes_keep_members {program library : List CompilationUnit} {l : Linked}
    {h : Hierarchy} (hh : HasHierarchy program library l h) :
    (∀ d < l.table.size, ∀ c ∈ l.table.supertypes d,
      (∀ key member, (h.members c).method? key = some member →
        ∃ kept, (h.members d).method? key = some kept ∧
          (l.table.methodAt kept.method).returnType =
            (l.table.methodAt member.method).returnType) ∧
      ∀ name, ((h.members c).field? name).isSome = true →
        ((h.members d).field? name).isSome = true) ∧
    (∀ d < l.table.size, ∀ m ∈ (l.table.classAt l.table.wellKnown.object).methods,
      m.modifiers.isPublic = true → m.isStatic = false →
        ∃ member, (h.members d).method? m.key = some member ∧
          (l.table.methodAt member.method).returnType = m.returnType) ∧
    ∀ d < l.table.size,
      (∀ key member, (key, member) ∈ (h.members d).methods.entries →
        (∃ m, (l.table.classAt member.method.owner).methods[member.method.index]? = some m ∧
          m.key = key) ∧
        (member.method.owner ∈ l.table.supertypes d ∨
          member.method.owner = l.table.wellKnown.object)) ∧
      ∀ name ref, (name, ref) ∈ (h.members d).fields.entries →
        (∃ f, (l.table.classAt ref.owner).fields[ref.index]? = some f ∧ f.name = name) ∧
        ref.owner ∈ l.table.supertypes d := by
  have hl := hh.wellLinked
  have ha := hh.accepted
  refine ⟨fun d _ c hsub => ⟨fun key member => ?_, fun name => ?_⟩, fun d hd m hm => ?_,
    fun d hd => ⟨fun key member hentry => ?_, fun name ref hentry => ?_⟩⟩
  · exact ha.keeps_method hsub
  · exact ha.keeps_field hsub
  · intro hpublic hinstance
    exact ha.has_objectMethod hl hm hpublic hinstance hd
  · have hsorted := (ha.assembles hd).sorted_methods
    exact ha.declares_key hl hd (OrderedMap.find?_of_mem_entries hsorted hentry)
  · have hsorted := (ha.assembles hd).sorted_fields
    exact ha.declares_name hl hd (OrderedMap.find?_of_mem_entries hsorted hentry)

/-- A class that takes its implementation of an interface from its
superclass. -/
def shapes : List CompilationUnit :=
  unitsOf [
    { Library.interfaceNamed "Shape" with methods := [Library.method "area" Library.int] },
    { Library.classNamed "Base" with methods := [Library.method "area" Library.int] },
    ((Library.classNamed "Square").extending "Base").implementing "Shape"]

theorem shapes_keep_members : ∃ l h, HasHierarchy shapes coreUnits l h ∧
    ∃ kept, (h.members 2).method? ⟨"area", []⟩ = some kept ∧
      (l.table.methodAt kept.method).returnType = .int := by
  obtain ⟨l, h, hh, htest⟩ := exists_hasHierarchy shapes coreUnits (fun l h => decide (
      2 < l.table.size ∧ 0 ∈ l.table.supertypes 2 ∧
      (h.members 0).method? ⟨"area", []⟩ = some ⟨⟨0, 0⟩, true⟩ ∧
      (l.table.methodAt ⟨0, 0⟩).returnType = .int)) (by decide +kernel)
  obtain ⟨hlt, hsub, hfind, hreturn⟩ := of_decide_eq_true htest
  obtain ⟨hkeeps, -, -⟩ := hh.subtypes_keep_members
  obtain ⟨kept, hkept, hsame⟩ := (hkeeps 2 hlt 0 hsub).1 _ _ hfind
  exact ⟨l, h, hh, kept, hkept, hsame.trans hreturn⟩

end JoosStatics
