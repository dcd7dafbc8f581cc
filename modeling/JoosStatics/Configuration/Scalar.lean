/-
JoosStatics.Configuration.Scalar — numbers, dates and times of settings files.

No setting takes one of these values, but an item that does not count may be
one, and what is written there has to be right.

* `SettingsText.skipNumber?` — the rest after an integer or a real number.
* `SettingsText.skipDateTime?` — the rest after a date, a time, or both.

Integers have 64 bits and reals are doubles; a number beyond them is refused,
except that reals may fall below the least double.
-/
import JoosStatics.Decimal.Double
import JoosStatics.Text.Digits

namespace JoosStatics.SettingsText

/-! ## Digits -/

/-- The digits at the front of a text; single underscores may stand between
them. -/
def spanDigits (isDigit : Char → Bool) : List Char → List Char × List Char
  | d :: '_' :: e :: cs =>
    if isDigit d then
      if isDigit e then
        let (digits, rest) := spanDigits isDigit (e :: cs)
        (d :: digits, rest)
      else ([d], '_' :: e :: cs)
    else ([], d :: '_' :: e :: cs)
  | d :: cs =>
    if isDigit d then
      let (digits, rest) := spanDigits isDigit cs
      (d :: digits, rest)
    else ([], d :: cs)
  | [] => ([], [])

/-- Nothing is added: what is missing of the text are the underscores. -/
theorem spanDigits_length_le (isDigit : Char → Bool) (cs : List Char) :
    (spanDigits isDigit cs).1.length + (spanDigits isDigit cs).2.length ≤ cs.length := by
  fun_induction spanDigits isDigit cs with
  | case1 d e cs hd he digits rest heq ih =>
    rw [heq] at ih
    simp only [List.length_cons] at ih ⊢
    omega
  | case2 d e cs hd he => simp only [List.length_cons, List.length_nil]; omega
  | case3 d e cs hd => simp
  | case4 d cs hne hd digits rest heq ih =>
    rw [heq] at ih
    simp only [List.length_cons] at ih ⊢
    omega
  | case5 d cs hne hd => simp
  | case6 => simp

/-- The number at the front of a text with exactly `count` digits, if it lies
in a range. -/
def readPart? (count low high : Nat) (cs : List Char) : Option (Nat × List Char) :=
  match Text.digits? (cs.take count) with
  | some n =>
    if count ≤ cs.length ∧ low ≤ n ∧ n ≤ high then some (n, cs.drop count) else none
  | none => none

/-- The rest after a character. -/
def skipChar? (c : Char) : List Char → Option (List Char)
  | d :: cs => if d == c then some cs else none
  | [] => none

/-! ## Numbers -/

/-- The rest after an integer to a base other than ten, whose two signs have
been taken. -/
def skipRadix? (base : Nat) (cs : List Char) : Option (List Char) :=
  let value (d : Char) : Nat := (Text.hexDigit? d).getD base
  match spanDigits (fun d => value d < base) cs with
  | ([], _) => none
  | (digits, rest) =>
    let magnitude := digits.foldl (fun n d => n * base + value d) 0
    if magnitude ≤ Int64.maxValue.toInt.toNat then some rest else none

/-- The fraction at the front of a text, if a point begins one. -/
def readFraction? : List Char → Option (List Char × List Char)
  | '.' :: cs =>
    match spanDigits Char.isDigit cs with
    | ([], _) => none
    | (digits, rest) => some (digits, rest)
  | cs => some ([], cs)

/-- The exponent at the front of a text, if a letter begins one. -/
def readExponent? : List Char → Option (Int × List Char)
  | c :: cs =>
    if c == 'e' || c == 'E' then
      let (negative, cs) := match cs with
        | '-' :: cs => (true, cs)
        | '+' :: cs => (false, cs)
        | cs => (false, cs)
      match spanDigits Char.isDigit cs with
      | ([], _) => none
      | (digits, rest) =>
        let magnitude := Int.ofNat (Text.digitsValue digits)
        some (if negative then -magnitude else magnitude, rest)
    else some (0, c :: cs)
  | [] => some (0, [])

/-- The rest after a number to the base ten without its sign. A fraction or an
exponent, that is, anything behind the whole digits, makes it a real number;
only one below zero may be infinite. -/
def skipDecimal? (negative : Bool) (cs : List Char) : Option (List Char) := do
  let (whole, afterWhole) := spanDigits Char.isDigit cs
  if whole.isEmpty || (1 < whole.length && whole.head? == some '0') then none
  else
    let (fraction, afterFraction) ← readFraction? afterWhole
    let (exponent, rest) ← readExponent? afterFraction
    if rest.length == afterWhole.length then
      let magnitude := Int.ofNat (Text.digitsValue whole)
      let value := if negative then -magnitude else magnitude
      if Int64.minValue.toInt ≤ value ∧ value ≤ Int64.maxValue.toInt then some rest else none
    else
      let magnitude := Double.ofDecimal (Text.digitsValue (whole ++ fraction))
        (exponent - Int.ofNat fraction.length)
      if magnitude == Double.infinity && !negative then none else some rest

/-- The rest after a number without its sign. -/
def skipUnsigned? (negative : Bool) : List Char → Option (List Char)
  | 'i' :: 'n' :: 'f' :: cs | 'n' :: 'a' :: 'n' :: cs => some cs
  | cs => skipDecimal? negative cs

/-- The rest after an integer or a real number. -/
def skipNumber? : List Char → Option (List Char)
  | '-' :: cs => skipUnsigned? true cs
  | '+' :: cs => skipUnsigned? false cs
  | '0' :: 'x' :: cs => skipRadix? 16 cs
  | '0' :: 'o' :: cs => skipRadix? 8 cs
  | '0' :: 'b' :: cs => skipRadix? 2 cs
  | cs => skipUnsigned? false cs

/-! ## Dates and times -/

/-- The number of days of a month. -/
def daysOfMonth (year month : Nat) : Nat :=
  if month == 2 then if year % 4 == 0 && (year % 100 != 0 || year % 400 == 0) then 29 else 28
  else if [4, 6, 9, 11].contains month then 30
  else 31

/-- The rest after a date such as `1979-05-27`. -/
def skipDate? (cs : List Char) : Option (List Char) := do
  let (year, cs) ← readPart? 4 0 9999 cs
  let (month, cs) ← readPart? 2 1 12 (← skipChar? '-' cs)
  let (_, cs) ← readPart? 2 1 (daysOfMonth year month) (← skipChar? '-' cs)
  return cs

/-- The rest after a fraction of a second, if there is one. -/
def skipFraction (cs : List Char) : List Char :=
  match cs with
  | '.' :: c :: rest => if c.isDigit then rest.dropWhile Char.isDigit else cs
  | _ => cs

/-- The rest after a time such as `07:32:00.5`. A minute may end in a leap
second. -/
def skipTime? (cs : List Char) : Option (List Char) := do
  let (_, cs) ← readPart? 2 0 23 cs
  let (_, cs) ← readPart? 2 0 59 (← skipChar? ':' cs)
  let (_, cs) ← readPart? 2 0 60 (← skipChar? ':' cs)
  return skipFraction cs

/-- The rest after the distance from universal time, if it is given. -/
def skipOffset? : List Char → Option (List Char)
  | c :: cs =>
    if c == 'Z' || c == 'z' then some cs
    else if c == '+' || c == '-' then do
      let (_, cs) ← readPart? 2 0 23 cs
      let (_, cs) ← readPart? 2 0 59 (← skipChar? ':' cs)
      return cs
    else some (c :: cs)
  | [] => some []

/-- The rest after a time that follows a date, if one does. -/
def skipTimeOfDay? (cs : List Char) : Option (List Char) :=
  match cs with
  | c :: rest =>
    if c == 'T' || c == 't' || c == ' ' then
      match skipTime? rest with
      | some rest => skipOffset? rest
      | none => some cs
    else some cs
  | [] => some []

/-- The rest after a date, a time, or both. -/
def skipDateTime? (cs : List Char) : Option (List Char) :=
  match skipDate? cs with
  | some rest => skipTimeOfDay? rest
  | none => skipTime? cs

/-- The rest after a number, a date or a time. -/
def skipScalar? (cs : List Char) : Option (List Char) := (skipDateTime? cs).or (skipNumber? cs)

end JoosStatics.SettingsText
