/-
JoosStatics.Logging.Pattern.Reader — patterns from their texts.

* `Pattern.read?` — the tree of a regular expression.
* `Pattern.readClassBody?` — the tree of a bracketed class.
* `Pattern.skip_length_le` — skipping blanks and comments never lengthens a
  text.

In the extended mode blanks and comments do not count, but for those in the
names and the modes of groups, in the names of ASCII classes and behind a
backslash. Every reader hands back what follows the part that it read.
-/
import JoosStatics.Logging.Pattern.Basic
import JoosStatics.Text.Alphanumeric
import JoosStatics.Text.Blank
import JoosStatics.Text.Digits

namespace JoosStatics.Logging.Pattern

/-! ## Blanks and comments -/

/-- The text without the blanks and comments at its front; a comment runs to
the end of its line. -/
def skipComments : (inComment : Bool) → List Char → List Char
  | _, [] => []
  | true, c :: cs => skipComments (c != '\n') cs
  | false, c :: cs =>
    if Text.isBlank c then skipComments false cs
    else if c == '#' then skipComments true cs
    else c :: cs

/-- The text without what does not count at its front. -/
def skip (extended : Bool) (cs : List Char) : List Char :=
  if extended then skipComments false cs else cs

theorem skipComments_length_le (inComment : Bool) (cs : List Char) :
    (skipComments inComment cs).length ≤ cs.length := by
  induction cs generalizing inComment with
  | nil => cases inComment <;> simp [skipComments]
  | cons c cs ih =>
    cases inComment with
    | true =>
      have := ih (c != '\n')
      simp only [skipComments, List.length_cons]
      omega
    | false =>
      have hblank := ih false
      have hcomment := ih true
      simp only [skipComments, List.length_cons]
      split
      · omega
      · split
        · omega
        · simp

/-- Skipping blanks and comments never lengthens a text. -/
theorem skip_length_le (extended : Bool) (cs : List Char) :
    (skip extended cs).length ≤ cs.length := by
  unfold skip
  split
  · exact skipComments_length_le false cs
  · exact Nat.le_refl _

/-! ## Escapes -/

/-- The character whose code is written in `count` hexadecimal digits, with
blanks and comments around them in the extended mode. -/
def readCode? (extended : Bool) : (count code : Nat) → List Char → Option (Char × List Char)
  | 0, code, cs => if h : code.isValidChar then some (Char.ofNatAux code h, cs) else none
  | count + 1, code, c :: cs => do
    readCode? extended count (code * 16 + (← Text.hexDigit? c)) (skip extended cs)
  | _ + 1, _, [] => none

/-- The escape whose backslash has been taken. Every ASCII character but
letters, digits and angle brackets may be escaped to mean itself. -/
def readEscape? (extended : Bool) : List Char → Option (Atom × List Char)
  | [] => none
  | c :: cs =>
    match c with
    | 'x' =>
      (readCode? extended 2 0 (skip extended cs)).map (fun (code, rest) =>
        (.symbol { char := code, isByte := true }, rest))
    | 'u' =>
      (readCode? extended 4 0 (skip extended cs)).map (fun (code, rest) =>
        (.symbol { char := code }, rest))
    | 'U' =>
      (readCode? extended 8 0 (skip extended cs)).map (fun (code, rest) =>
        (.symbol { char := code }, rest))
    | 'd' | 's' | 'w' => some (.shorthand false, cs)
    | 'D' | 'S' | 'W' => some (.shorthand true, cs)
    | 'A' | 'z' => some (.anchor, cs)
    | 'b' | 'B' | '<' | '>' => some (.boundary, cs)
    | 'a' => some (.symbol { char := '\x07' }, cs)
    | 'f' => some (.symbol { char := '\x0c' }, cs)
    | 't' => some (.symbol { char := '\t' }, cs)
    | 'n' => some (.symbol { char := '\n' }, cs)
    | 'r' => some (.symbol { char := '\r' }, cs)
    | 'v' => some (.symbol { char := '\x0b' }, cs)
    | _ =>
      if c.toNat < 0x80 && !c.isAlphanum then some (.symbol { char := c }, cs) else none

/-! ## Bracketed classes -/

/-- The names of the ASCII classes. -/
def asciiClasses : List String :=
  ["alnum", "alpha", "ascii", "blank", "cntrl", "digit", "graph", "lower", "print", "punct",
    "space", "upper", "word", "xdigit"]

/-- An ASCII class such as `[:alpha:]` or `[:^alpha:]`, whose opening bracket
has been taken. -/
def readNamedClass? : List Char → Option (CharSet × List Char)
  | ':' :: cs =>
    let (negated, cs) := match cs with
      | '^' :: cs => (true, cs)
      | cs => (false, cs)
    match cs.span (· != ':') with
    | (name, ':' :: ']' :: rest) =>
      if asciiClasses.contains (String.ofList name) then some (.named negated, rest) else none
    | _ => none
  | _ => none

/-- The dashes at the front of a class, which mean themselves. -/
def readDashes (extended : Bool) : (fuel : Nat) → List Char → List CharSet × List Char
  | fuel + 1, '-' :: cs =>
    let (dashes, rest) := readDashes extended fuel (skip extended cs)
    (.symbol { char := '-' } :: dashes, rest)
  | _, cs => ([], cs)

/-- What stands at the front of a class whose bracket has been taken: whether
it is negated, and the dashes or the one closing bracket that mean
themselves. -/
def readClassFront (extended : Bool) (cs : List Char) : Bool × List CharSet × List Char :=
  let (negated, cs) := match skip extended cs with
    | '^' :: cs => (true, skip extended cs)
    | cs => (false, cs)
  match cs with
  | ']' :: rest => (negated, [.symbol { char := ']' }], skip extended rest)
  | cs => (negated, readDashes extended cs.length cs)

/-- One end of a range, or a character or shorthand of a class. -/
def readMember? (extended : Bool) : List Char → Option (Atom × List Char)
  | '\\' :: cs => readEscape? extended cs
  | c :: cs => some (.symbol { char := c }, cs)
  | [] => none

/-- What comes first behind a dash. The extended mode looks over blanks and the
mark of one comment, but not over what the comment says. -/
def behindDash? (extended : Bool) (cs : List Char) : Option Char :=
  if !extended then cs.head?
  else match cs.dropWhile Text.isBlank with
    | '#' :: rest => (rest.dropWhile Text.isBlank).head?
    | rest => rest.head?

/-- A range, or a character or shorthand of a class. A dash before a closing
bracket or another dash forms no range. -/
def readClassItem? (extended : Bool) (cs : List Char) : Option (CharSet × List Char) := do
  let (first, rest) ← readMember? extended cs
  match skip extended rest with
  | '-' :: behind =>
    let next := behindDash? extended behind
    if next == some ']' || next == some '-' then
      return (← first.charSet?, '-' :: behind)
    let (last, rest) ← readMember? extended (skip extended behind)
    match first, last with
    | .symbol first, .symbol last =>
      if first.char ≤ last.char then return (.range first last, rest) else none
    | _, _ => none
  | rest => return (← first.charSet?, rest)

/-- What a class is so far: the set left of the last operator, if there was one,
and the items since, last one first. -/
def joinClass (left : Option CharSet) (items : List CharSet) : CharSet :=
  let right := CharSet.ofItems items.reverse
  match left with
  | none => right
  | some left => .operation left right

/-- The rest of a class, to its closing bracket. Operators take what stands
between them, the leftmost first. -/
def readClassBody? (extended : Bool) : (fuel : Nat) → (left : Option CharSet) →
    (items : List CharSet) → List Char → Option (CharSet × List Char)
  | 0, _, _, _ => none
  | fuel + 1, left, items, cs =>
    match skip extended cs with
    | ']' :: rest => some (joinClass left items, rest)
    | '[' :: rest =>
      match readNamedClass? rest with
      | some (item, rest) => readClassBody? extended fuel left (item :: items) rest
      | none =>
        let (negated, front, rest) := readClassFront extended rest
        match readClassBody? extended fuel none front rest with
        | some (body, rest) =>
          readClassBody? extended fuel left (.bracketed negated body :: items) rest
        | none => none
    | '&' :: '&' :: rest | '-' :: '-' :: rest | '~' :: '~' :: rest =>
      readClassBody? extended fuel (some (joinClass left items)) [] rest
    | rest =>
      match readClassItem? extended rest with
      | some (item, rest) => readClassBody? extended fuel left (item :: items) rest
      | none => none

/-- A class whose opening bracket has been taken. -/
def readClass? (extended : Bool) (cs : List Char) : Option (CharSet × List Char) :=
  let (negated, front, rest) := readClassFront extended cs
  (readClassBody? extended (rest.length + 1) none front rest).map (fun (body, rest) =>
    (.bracketed negated body, rest))

/-! ## Groups -/

/-- A place in a pattern. -/
structure Cursor where
  rest : List Char
  extended : Bool := false
  /-- The names that groups have so far. -/
  names : List (List Char) := []

/-- The place behind blanks and comments. -/
def Cursor.skip (cursor : Cursor) : Cursor :=
  { cursor with rest := Pattern.skip cursor.extended cursor.rest }

/-- Whether a text can be the name of a group. -/
def isGroupName : List Char → Bool
  | [] => false
  | first :: rest =>
    (first == '_' || Text.isAlphabetic first) &&
    rest.all (fun c => ['_', '.', '[', ']'].contains c || Text.isAlphanumeric c)

/-- The place behind the name of a group and the bracket that ends it; no two
groups have one name. -/
def readGroupName? (cursor : Cursor) : Option Cursor :=
  match cursor.rest.span (· != '>') with
  | (name, '>' :: rest) =>
    if isGroupName name && !cursor.names.contains name then
      some { cursor with rest, names := name :: cursor.names }
    else none
  | _ => none

/-- What an opening parenthesis begins: a group, or modes for what follows. -/
inductive Opening where
  | group (change : ModeChange)
  | modes (change : ModeChange)

/-- What begins at an opening parenthesis that has been taken. -/
def readOpening? (cursor : Cursor) : Option (Opening × Cursor) :=
  match cursor.skip.rest with
  | '?' :: 'P' :: '<' :: rest | '?' :: '<' :: rest =>
    (readGroupName? { cursor with rest }).map (.group {}, ·)
  | '?' :: rest => do
    let (letters, rest) := rest.span (fun c => c != ':' && c != ')')
    let change ← ModeChange.ofLetters? letters
    match rest with
    | ':' :: rest => return (.group change, { cursor with rest })
    | ')' :: rest => if letters.isEmpty then none else return (.modes change, { cursor with rest })
    | _ => none
  | rest => some (.group {}, { cursor with rest })

/-- The place after a change of modes. -/
def Cursor.apply (cursor : Cursor) (change : ModeChange) : Cursor :=
  { cursor with extended := change.apply .extended cursor.extended }

/-! ## Patterns -/

/-- The text after the mark of a repetition that takes as little as it can. -/
def skipLazy : List Char → List Char
  | '?' :: cs => cs
  | cs => cs

/-- The construct at the front of a text that has neither parts nor a bracket. -/
def readAtom? (extended : Bool) : List Char → Option (Atom × List Char)
  | '\\' :: cs => readEscape? extended cs
  | '.' :: cs => some (.dot, cs)
  | '^' :: cs | '$' :: cs => some (.anchor, cs)
  -- A count would need a closing brace, which ends the field.
  | '\x7b' :: _ | [] => none
  | c :: cs => some (.symbol { char := c }, cs)

/-- The rest of a pattern, to its end or to the parenthesis that closes the
group it is in. The branches before this one and its items so far come last
one first. Modes set in a branch hold in the branches after it. -/
def readBranches? : (fuel : Nat) → (branches items : List Pattern) → Cursor →
    Option (Pattern × Cursor)
  | 0, _, _, _ => none
  | fuel + 1, branches, items, cursor =>
    let cursor := cursor.skip
    match cursor.rest with
    | [] | ')' :: _ => some (ofBranches (ofItems items.reverse :: branches).reverse, cursor)
    | '|' :: rest =>
      readBranches? fuel (ofItems items.reverse :: branches) [] { cursor with rest }
    | '(' :: rest =>
      match readOpening? { cursor with rest } with
      | some (.modes change, cursor) =>
        readBranches? fuel branches (.modes change :: items) (cursor.apply change)
      | some (.group change, inside) =>
        match readBranches? fuel [] [] (inside.apply change) with
        | some (body, { rest := ')' :: rest, names, .. }) =>
          readBranches? fuel branches (.group change body :: items) { cursor with rest, names }
        | _ => none
      | none => none
    | '*' :: rest | '+' :: rest | '?' :: rest =>
      match items with
      | item :: items =>
        if item.isRepeatable then
          readBranches? fuel branches (.repetition item :: items)
            { cursor with rest := skipLazy rest }
        else none
      | [] => none
    | '[' :: rest =>
      match readClass? cursor.extended rest with
      | some (set, rest) => readBranches? fuel branches (.charSet set :: items) { cursor with rest }
      | none => none
    | rest =>
      match readAtom? cursor.extended rest with
      | some (a, rest) => readBranches? fuel branches (.atom a :: items) { cursor with rest }
      | none => none

/-- The tree of a regular expression. -/
def read? (text : String) : Option Pattern :=
  let cs := text.toList
  match readBranches? (cs.length + 1) [] [] { rest := cs } with
  | some (pattern, { rest := [], .. }) => some pattern
  | _ => none

end JoosStatics.Logging.Pattern
