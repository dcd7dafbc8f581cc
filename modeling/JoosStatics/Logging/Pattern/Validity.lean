/-
JoosStatics.Logging.Pattern.Validity — which patterns can be run.

* `Pattern.after?` — the modes after a pattern, if all that it holds is
  available in the modes it stands in.
* `Pattern.isValid` — whether a text is a pattern that can be run.

Without character tables a pattern matches texts by what it spells out: in the
unicode mode there is no ignoring of case, no word boundary and no shorthand.
With the unicode mode off bytes are matched, and since the text stays UTF-8,
no byte, dot or negation may reach beyond ASCII.
-/
import JoosStatics.Logging.Pattern.Reader

namespace JoosStatics.Logging.Pattern

/-- Whether a character is in the ASCII range. -/
def Symbol.isAscii (s : Symbol) : Bool := s.char.toNat < 0x80

/-- Whether a construct without parts is available. -/
def Atom.isAvailable (modes : Modes) : Atom → Bool
  | .symbol s => if modes.unicode then !modes.ignoreCase else !s.isByte || s.isAscii
  | .dot => modes.unicode
  | .anchor => true
  | .boundary => !modes.unicode
  | .shorthand negated => !modes.unicode && !negated

mutual

/-- Whether a set of characters is available. -/
def CharSet.isAvailable (modes : Modes) : CharSet → Bool
  | .symbol s => if modes.unicode then !modes.ignoreCase else s.isAscii
  | .range first last =>
    if modes.unicode then !modes.ignoreCase else first.isAscii && last.isAscii
  | .shorthand negated => !modes.unicode && !negated
  | .named negated => if modes.unicode then !modes.ignoreCase else !negated
  | .bracketed negated body => (modes.unicode || !negated) && body.isAvailable modes
  | .union items => CharSet.areAvailable modes items
  | .operation left right => left.isAvailable modes && right.isAvailable modes

/-- Whether all of some sets of characters are available. -/
def CharSet.areAvailable (modes : Modes) : List CharSet → Bool
  | [] => true
  | item :: items => item.isAvailable modes && CharSet.areAvailable modes items

end

mutual

/-- The modes after a pattern, if it is available. Modes that a group sets end
with the group. -/
def after? (modes : Modes) : Pattern → Option Modes
  | .empty => some modes
  | .modes change => some (modes.apply change)
  | .atom a => if a.isAvailable modes then some modes else none
  | .charSet set => if set.isAvailable modes then some modes else none
  | .repetition body => body.after? modes
  | .group change body => (body.after? (modes.apply change)).map (fun _ => modes)
  | .sequence items => afterAll? modes items
  | .choice branches => afterAll? modes branches

/-- The modes after some patterns, each in the modes that the one before
leaves. -/
def afterAll? (modes : Modes) : List Pattern → Option Modes
  | [] => some modes
  | item :: items => (item.after? modes).bind (fun modes => afterAll? modes items)

end

/-- How deep a pattern may be nested. -/
def maxDepth : Nat := 250

/-- Whether a text is a pattern that can be run. -/
def isValid (text : String) : Bool :=
  match read? text with
  | some pattern => pattern.depth ≤ maxDepth && (pattern.after? {}).isSome
  | none => false

end JoosStatics.Logging.Pattern
