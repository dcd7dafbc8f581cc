/-
JoosStatics.Hierarchy.Members — the members visible in each type.

`TypeTable.memberSet` computes the members of a type from those of its
direct supertypes and checks every method that takes the place of another:

* a declared method replaces all inherited methods of its signature;
* among inherited methods of one signature, the first that is not abstract
  is kept and replaces the others; if all are abstract the first is kept
  and their return types have to agree;
* an interface without superinterfaces inherits the public instance methods
  of `java.lang.Object` as abstract methods.
-/
import JoosStatics.Types.Relations
import JoosStatics.OrderedMap
import JoosStatics.Violation

namespace JoosStatics

/-- A method signature: a name with parameter types. -/
structure MethodKey where
  name : Name
  params : List Ty
  deriving DecidableEq, Repr

/-- Signatures are ordered by name, then by parameter types from left to
right. -/
instance : Ord MethodKey := ⟨fun a b => (compare a.name b.name).then (compare a.params b.params)⟩

/-- Signatures that stand at the same place are the same. -/
instance : Std.LawfulEqOrd MethodKey where
  compare_self := Ordering.then_eq_eq.mpr ⟨Std.ReflCmp.compare_self, Std.ReflCmp.compare_self⟩
  eq_of_compare {a b} h := by
    obtain ⟨hname, hparams⟩ := Ordering.then_eq_eq.mp h
    cases a
    cases b
    exact congr (congrArg _ (Std.LawfulEqOrd.eq_of_compare hname))
      (Std.LawfulEqOrd.eq_of_compare hparams)

/-- The signature of a method. -/
def MethodDef.key (m : MethodDef) : MethodKey := ⟨m.name, m.params⟩

/-- The method that a signature denotes in some type. It can be abstract there
without being declared so. -/
structure MemberMethod where
  method : MethodRef
  isAbstract : Bool
  deriving DecidableEq, Repr

/-- The methods and fields visible in a type, declared or inherited. -/
structure MemberSet where
  methods : OrderedMap MethodKey MemberMethod := ∅
  fields : OrderedMap Name FieldRef := ∅
  deriving DecidableEq

namespace MemberSet

instance : Inhabited MemberSet := ⟨{}⟩

/-- The method of a signature. -/
def method? (m : MemberSet) (key : MethodKey) : Option MemberMethod := m.methods.find? key

/-- The methods with a name, one for each signature. -/
def methodsNamed (m : MemberSet) (name : Name) : List MethodRef :=
  (m.methods.entries.filter (fun entry => entry.1.name == name)).map (fun entry => entry.2.method)

/-- The field with a name. -/
def field? (m : MemberSet) (name : Name) : Option FieldRef := m.fields.find? name

/-- The methods that are abstract in the type. -/
def abstractMethods (m : MemberSet) : List MethodRef :=
  (m.methods.values.filter MemberMethod.isAbstract).map MemberMethod.method

end MemberSet

/-- Inherited methods by signature, in the order in which they are met. -/
abbrev InheritedGroups := OrderedMap MethodKey (List MemberMethod)

namespace InheritedGroups

/-- The methods inherited under a signature. -/
def group (g : InheritedGroups) (key : MethodKey) : List MemberMethod := (g.find? key).getD []

/-- Adds a method at the end of its group, unless the group has it already. -/
def addNew (g : InheritedGroups) (key : MethodKey) (member : MemberMethod) : InheritedGroups :=
  if (g.group key).any (fun other => other.method == member.method) then g
  else g.insert key (g.group key ++ [member])

/-- Adds a method at the end of its group. -/
def append (g : InheritedGroups) (key : MethodKey) (member : MemberMethod) : InheritedGroups :=
  g.insert key (g.group key ++ [member])

/-- Adds all methods of a supertype. -/
def addAll (g : InheritedGroups) (set : MemberSet) : InheritedGroups :=
  set.methods.entries.foldl (fun g entry => g.addNew entry.1 entry.2) g

end InheritedGroups

namespace TypeTable

/-- The rules for a method that takes the place of another one. -/
def checkReplace (t : TypeTable) (new old : MethodRef) (location : Location) :
    Except Violation Unit :=
  let n := t.methodAt new
  let o := t.methodAt old
  let signature := t.methodSignature n
  let replaced := t.nameOf old.owner
  let fail (cause : Cause) : Except Violation Unit := .error { cause, location }
  if n.returnType ≠ o.returnType then fail (.differentReturnType signature replaced)
  else if o.modifiers.isFinal then fail (.replaceFinal signature replaced)
  else if n.modifiers.isProtected && o.modifiers.isPublic then
    fail (.protectedReplacePublic signature replaced)
  else if !n.isStatic && o.isStatic then fail (.nonstaticReplaceStatic signature replaced)
  else if n.isStatic && !o.isStatic then fail (.staticReplaceNonstatic signature replaced)
  else
    match n.throws.find? (fun e => t.isCheckedException e && !t.isCovered e o.throws) with
    | some exception => fail (.illegalThrowsInReplace signature (t.nameOf exception))
    | none => .ok ()

/-- The methods that an interface without superinterfaces has from
`java.lang.Object`. -/
def implicitMembers (t : TypeTable) : List (MethodKey × MemberMethod) :=
  let object := t.wellKnown.object
  (t.classAt object).methods.zipIdx.filterMap (fun (m, index) =>
    if m.modifiers.isPublic && !m.isStatic then
      some (m.key, { method := ⟨object, index⟩, isAbstract := true })
    else none)

/-- The methods that a type inherits, superclass first. -/
def inheritedGroups (t : TypeTable) (d : ClassDef) (supers : List MemberSet) : InheritedGroups :=
  let groups := supers.foldl InheritedGroups.addAll (∅ : InheritedGroups)
  if d.isInterface && d.interfaces.isEmpty then
    t.implicitMembers.foldl (fun g entry => g.append entry.1 entry.2) groups
  else groups

/-- The fields that a type inherits; the first supertype that has a name
provides it. -/
def inheritedFields (supers : List MemberSet) : OrderedMap Name FieldRef :=
  supers.foldl (fun fields set =>
    set.fields.entries.foldl (fun fields entry => fields.insertNew entry.1 entry.2) fields) ∅

/-- A place inside a type, named by a signature. -/
def memberLocation (t : TypeTable) (id : ClassId) (name : Name) (params : List Ty)
    (span : Span) : Location :=
  ((Location.ofType (t.nameOf id)).inMember (t.signature name params)).atSpan span

/-- Checks that one method may take the place of each of several others. -/
def checkReplaceAll (t : TypeTable) (new : MethodRef) (location : Location) :
    List MemberMethod → Except Violation Unit
  | [] => .ok ()
  | old :: rest => do
    t.checkReplace new old.method location
    t.checkReplaceAll new location rest

/-- Adds the methods that a type declares to its member set, each in place of
the methods inherited under its signature. Returns the groups that no
declared method replaces. -/
def declareMethods (t : TypeTable) (id : ClassId) :
    List (MethodDef × Nat) → InheritedGroups → OrderedMap MethodKey MemberMethod →
    Except Violation (InheritedGroups × OrderedMap MethodKey MemberMethod)
  | [], groups, methods => .ok (groups, methods)
  | (m, index) :: rest, groups, methods => do
    let declared : MethodRef := ⟨id, index⟩
    t.checkReplaceAll declared (t.memberLocation id m.name m.params m.span) (groups.group m.key)
    t.declareMethods id rest (groups.erase m.key)
      (methods.insert m.key { method := declared, isAbstract := m.isAbstract })

/-- The method that a type inherits from a group of methods of one
signature. -/
def inheritFrom (t : TypeTable) (id : ClassId) (key : MethodKey) (group : List MemberMethod) :
    Except Violation (Option MemberMethod) := do
  let location := t.memberLocation id key.name key.params (t.classAt id).span
  match group.find? (fun member => !member.isAbstract) with
  | some concrete =>
    t.checkReplaceAll concrete.method location
      (group.filter (fun other => other.method ≠ concrete.method))
    return some concrete
  | none =>
    match group with
    | [] => return none
    | first :: others =>
      let expected := (t.methodAt first.method).returnType
      match others.find? (fun other => (t.methodAt other.method).returnType ≠ expected) with
      | some other =>
        throw {
          cause := .differentReturnType (t.signature key.name key.params)
            (t.nameOf other.method.owner)
          location }
      | none => return some first

/-- Adds the methods that a type inherits, in the order of signatures. -/
def inheritMethods (t : TypeTable) (id : ClassId) :
    List (MethodKey × List MemberMethod) → OrderedMap MethodKey MemberMethod →
    Except Violation (OrderedMap MethodKey MemberMethod)
  | [], methods => .ok methods
  | (key, group) :: rest, methods => do
    match ← t.inheritFrom id key group with
    | some chosen => t.inheritMethods id rest (methods.insert key chosen)
    | none => t.inheritMethods id rest methods

/-- The fields of a type: the inherited ones, hidden by the declared ones. -/
def visibleFields (d : ClassDef) (id : ClassId) (inherited : OrderedMap Name FieldRef) :
    OrderedMap Name FieldRef :=
  d.fields.zipIdx.foldl (fun fields (f, index) => fields.insert f.name ⟨id, index⟩) inherited

/-- A class that is not abstract has no abstract method. -/
def checkConcrete (t : TypeTable) (id : ClassId) (methods : OrderedMap MethodKey MemberMethod) :
    Except Violation Unit :=
  if (t.classAt id).isAbstract then .ok ()
  else
    match methods.entries.find? (fun entry => entry.2.isAbstract) with
    | some (key, _) =>
      .error {
        cause := .classMustBeAbstract (t.nameOf id) (t.signature key.name key.params)
        location := t.locationOf id }
    | none => .ok ()

/-- The members of a type, given those of its direct supertypes. -/
def memberSet (t : TypeTable) (id : ClassId) (supers : List MemberSet) :
    Except Violation MemberSet := do
  let d := t.classAt id
  let (groups, declared) ← t.declareMethods id d.methods.zipIdx (t.inheritedGroups d supers) ∅
  let methods ← t.inheritMethods id groups.entries declared
  t.checkConcrete id methods
  return { methods, fields := visibleFields d id (inheritedFields supers) }

end TypeTable

end JoosStatics
