/-
JoosStatics.Logging.Pattern.Basic — regular expressions as trees.

* `Pattern` — a regular expression; `Pattern.CharSet` is what stands in the
  brackets of a class.
* `Pattern.Modes`, `Pattern.ModeChange` — the modes that a pattern is read and
  judged in, and what a pattern says about them.
* `Pattern.ofItems`, `Pattern.ofBranches`, `CharSet.ofItems` — a sequence, a
  choice and a union; one part alone stands for itself.
* `Pattern.depth`, `CharSet.depth` — how deep a tree is nested.

Patterns are never run, so a tree keeps no more than its validity hangs on:
an anchor does not say where it holds, and a repetition not how often.
-/

namespace JoosStatics.Logging

namespace Pattern

/-! ## Modes -/

/-- What may be switched on and off inside a pattern. -/
inductive Mode where
  | ignoreCase
  | multiLine
  | dotMatchesLineEnd
  | swapGreed
  | carriageReturns
  | unicode
  /-- Blanks and comments do not count. -/
  | extended
  deriving DecidableEq, Repr

/-- The mode that a letter names. -/
def Mode.ofLetter? : Char → Option Mode
  | 'i' => some .ignoreCase
  | 'm' => some .multiLine
  | 's' => some .dotMatchesLineEnd
  | 'U' => some .swapGreed
  | 'R' => some .carriageReturns
  | 'u' => some .unicode
  | 'x' => some .extended
  | _ => none

/-- The modes that are switched on and off at one place. -/
structure ModeChange where
  on : List Mode := []
  off : List Mode := []
  deriving DecidableEq, Repr

namespace ModeChange

/-- The modes that letters switch on and, after a minus sign, off. No mode may
be named twice, and a minus sign needs a mode behind it. -/
def ofLetters? (letters : List Char) : Option ModeChange :=
  match letters.span (· != '-') with
  | (_, ['-']) => none
  | (on, off) => do
    let on ← on.mapM Mode.ofLetter?
    let off ← (off.drop 1).mapM Mode.ofLetter?
    if (on ++ off).Nodup then some { on, off } else none

/-- What a mode is after a change, given what it was. -/
def apply (change : ModeChange) (mode : Mode) (value : Bool) : Bool :=
  change.on.contains mode || (value && !change.off.contains mode)

/-- A change that names no mode leaves every mode as it was. -/
@[simp] theorem apply_nil (mode : Mode) (value : Bool) :
    ({} : ModeChange).apply mode value = value := by
  simp [apply]

end ModeChange

/-- The modes that decide whether a construct is available. -/
structure Modes where
  ignoreCase : Bool := false
  /-- Characters are matched, and not bytes. -/
  unicode : Bool := true
  deriving DecidableEq, Repr

/-- The modes after a change. -/
def Modes.apply (modes : Modes) (change : ModeChange) : Modes where
  ignoreCase := change.apply .ignoreCase modes.ignoreCase
  unicode := change.apply .unicode modes.unicode

/-! ## Characters and classes -/

/-- A character that means itself. -/
structure Symbol where
  char : Char
  /-- Written as a byte of two hexadecimal digits. -/
  isByte : Bool := false
  deriving DecidableEq, Repr

/-- A construct without parts. -/
inductive Atom where
  | symbol (symbol : Symbol)
  | dot
  /-- The beginning or the end of a line or of the text. -/
  | anchor
  /-- The beginning or the end of a word, or neither. -/
  | boundary
  /-- The digits, the blanks or the characters of words, or all others. -/
  | shorthand (negated : Bool)
  deriving DecidableEq, Repr

/-- A set of characters. -/
inductive CharSet where
  | symbol (symbol : Symbol)
  | range (first last : Symbol)
  | shorthand (negated : Bool)
  /-- One of the ASCII classes, such as `[:alpha:]`. -/
  | named (negated : Bool)
  | bracketed (negated : Bool) (body : CharSet)
  | union (items : List CharSet)
  /-- An intersection or a difference. -/
  | operation (left right : CharSet)

/-- The union of some sets. -/
def CharSet.ofItems : List CharSet → CharSet
  | [item] => item
  | items => .union items

/-- What a class may hold of the constructs without parts. -/
def Atom.charSet? : Atom → Option CharSet
  | .symbol s => some (.symbol s)
  | .shorthand negated => some (.shorthand negated)
  | _ => none

end Pattern

/-! ## Patterns -/

/-- A regular expression. -/
inductive Pattern where
  | empty
  | modes (change : Pattern.ModeChange)
  | atom (atom : Pattern.Atom)
  | charSet (set : Pattern.CharSet)
  | repetition (body : Pattern)
  | group (change : Pattern.ModeChange) (body : Pattern)
  | sequence (items : List Pattern)
  | choice (branches : List Pattern)

namespace Pattern

/-- The sequence of some patterns. -/
def ofItems : List Pattern → Pattern
  | [] => .empty
  | [item] => item
  | items => .sequence items

/-- The choice between some patterns. -/
def ofBranches : List Pattern → Pattern
  | [branch] => branch
  | branches => .choice branches

/-- A repetition needs something to repeat, which a change of modes is not. -/
def isRepeatable : Pattern → Bool
  | .empty | .modes _ => false
  | _ => true

/-! ## Depth -/

mutual

/-- How deep brackets, unions and operations are nested. -/
def CharSet.depth : CharSet → Nat
  | .symbol _ | .range _ _ | .shorthand _ | .named _ => 0
  | .bracketed _ body => body.depth + 1
  | .union [] => 0
  | .union items => CharSet.listDepth items + 1
  | .operation left right => max left.depth right.depth + 1

/-- The depth of the deepest of some sets. -/
def CharSet.listDepth : List CharSet → Nat
  | [] => 0
  | item :: items => max item.depth (CharSet.listDepth items)

end

mutual

/-- How deep groups, repetitions, sequences, choices and classes are nested. -/
def depth : Pattern → Nat
  | .empty | .modes _ | .atom _ => 0
  | .charSet set => set.depth
  | .repetition body | .group _ body => body.depth + 1
  | .sequence items => listDepth items + 1
  | .choice branches => listDepth branches + 1

/-- The depth of the deepest of some patterns. -/
def listDepth : List Pattern → Nat
  | [] => 0
  | item :: items => max item.depth (listDepth items)

end

end Pattern

end JoosStatics.Logging
