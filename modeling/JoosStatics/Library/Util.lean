/-
JoosStatics.Library.Util — the types of the package `java.util`.

`ArrayList` and `LinkedList` are absent: programs commonly bring their own,
which would then be declared twice. For the same reason `List` has only the
methods on which such lists agree.
-/
import JoosStatics.Library.Signature

namespace JoosStatics.Library

/-- The type `Collection`. -/
def collection : TypeSyntax := named "Collection"
/-- The type `SortedSet`. -/
def sortedSet : TypeSyntax := named "SortedSet"

/-- The class `java.util.Arrays`. -/
def arraysClass : TypeBlueprint :=
  { classNamed "Arrays" with
    constructors := [constructor]
    methods := [
      staticMethod "equals" boolean [(.array boolean, "a1"), (.array boolean, "a2")],
      staticMethod "equals" boolean [(.array char, "a1"), (.array char, "a2")]] }

/-- The interface `java.util.Comparator`. -/
def comparatorInterface : TypeBlueprint :=
  { interfaceNamed "Comparator" with
    methods := [
      abstractMethod "compare" int [(object, "o1"), (object, "o2")],
      abstractMethod "equals" boolean [(object, "other")]] }

/-- The interface `java.util.Iterator`. -/
def iteratorInterface : TypeBlueprint :=
  { interfaceNamed "Iterator" with
    methods := [
      abstractMethod "hasNext" boolean, abstractMethod "next" object,
      abstractProcedure "remove"] }

/-- The interface `java.util.List`. -/
def listInterface : TypeBlueprint :=
  { interfaceNamed "List" with
    methods := [abstractMethod "size" int, abstractMethod "add" boolean [(object, "o")]] }

/-- The interface `java.util.Collection`. -/
def collectionInterface : TypeBlueprint :=
  { interfaceNamed "Collection" with
    methods := [
      abstractMethod "add" boolean [(object, "o")],
      abstractMethod "addAll" boolean [(collection, "c")],
      abstractProcedure "clear",
      abstractMethod "contains" boolean [(object, "o")],
      abstractMethod "containsAll" boolean [(collection, "c")],
      abstractMethod "isEmpty" boolean,
      abstractMethod "iterator" (named "Iterator"),
      abstractMethod "remove" boolean [(object, "o")],
      abstractMethod "removeAll" boolean [(collection, "c")],
      abstractMethod "retainAll" boolean [(collection, "c")],
      abstractMethod "size" int,
      abstractMethod "toArray" (.array object)] }

/-- The interface `java.util.SortedSet`. -/
def sortedSetInterface : TypeBlueprint :=
  { (interfaceNamed "SortedSet").extending "Set" with
    methods := [
      abstractMethod "comparator" (named "Comparator"),
      abstractMethod "first" object,
      abstractMethod "headSet" sortedSet [(object, "to")],
      abstractMethod "last" object,
      abstractMethod "subSet" sortedSet [(object, "from"), (object, "to")],
      abstractMethod "tailSet" sortedSet [(object, "from")]] }

/-- The types of `java.util`. -/
def utilTypes : List TypeBlueprint := [
  arraysClass, comparatorInterface, iteratorInterface, listInterface, collectionInterface,
  (interfaceNamed "Set").extending "Collection", sortedSetInterface]

end JoosStatics.Library
