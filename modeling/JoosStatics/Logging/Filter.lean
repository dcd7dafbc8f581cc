/-
JoosStatics.Logging.Filter — log filters made of directives.

* `Filter.ofText?` — directives separated by commas; one that is invalid
  makes the whole filter invalid.
* `Filter.toText` — the directives of a filter, the most specific first.
-/
import JoosStatics.Logging.Directive
import JoosStatics.OrderedMap

namespace JoosStatics.Logging

/-- A filter as its levels by scope. The scopes that are decided once for every
record are kept apart from those that depend on spans. -/
structure Filter where
  fixed : OrderedMap Scope Level := ∅
  dynamic : OrderedMap Scope Level := ∅
  deriving DecidableEq

namespace Filter

/-- The levels of directives by scope; a later directive replaces one with the
same scope. -/
def table (directives : List Directive) : OrderedMap Scope Level :=
  .ofList (directives.map (fun d => (d.scope, d.level)))

/-- The filter of a list of directives. A dynamic directive that can also be
decided beforehand counts on both sides, after those that are fixed. -/
def ofDirectives (directives : List Directive) : Filter :=
  let dynamic := directives.filter (fun d => d.scope.isDynamic)
  let fixed := directives.filter (fun d => !d.scope.isDynamic)
  { fixed := table (fixed ++ dynamic.filter (fun d => d.scope.isStatic))
    dynamic := table dynamic }

/-- The pieces of a text between its commas, without the empty ones. -/
def pieces (text : List Char) : List (List Char) :=
  (text.splitBy (fun a b => a != ',' && b != ',')).filter (fun piece => piece != [','])

/-- The filter that a text stands for. -/
def ofText? (text : String) : Option Filter :=
  ((pieces text.toList).mapM Directive.ofPiece?).map ofDirectives

/-- The directives of a filter in order. -/
def directives (f : Filter) : List Directive :=
  (f.fixed.entries ++ f.dynamic.entries).map (fun (scope, level) => { scope, level })

/-- A filter as it is written. -/
def toText (f : Filter) : String := ",".intercalate (f.directives.map Directive.toText)

end Filter

end JoosStatics.Logging
