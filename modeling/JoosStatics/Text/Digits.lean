/-
JoosStatics.Text.Digits — numbers written in digits.

* `digitsValue` — the number that decimal digits denote.
* `unsigned?`, `signed?` — the whole number that a text denotes.
* `hexDigit?`, `readCode?` — hexadecimal digits and the characters they
  denote.
-/

namespace JoosStatics.Text

/-- The number written by decimal digits. -/
def digitsValue (digits : List Char) : Nat :=
  digits.foldl (fun n d => n * 10 + (d.toNat - '0'.toNat)) 0

/-- The number that a text of digits alone denotes. -/
def digits? (cs : List Char) : Option Nat :=
  if cs.isEmpty || !cs.all Char.isDigit then none else some (digitsValue cs)

/-- The natural number that a text denotes; it may begin with a plus sign. -/
def unsigned? : List Char → Option Nat
  | '+' :: digits => digits? digits
  | digits => digits? digits

/-- The integer that a text denotes; it may begin with a sign. -/
def signed? : List Char → Option Int
  | '-' :: digits => (digits? digits).map (fun n => -Int.ofNat n)
  | cs => (unsigned? cs).map Int.ofNat

/-- The value of a hexadecimal digit. -/
def hexDigit? (c : Char) : Option Nat :=
  if c.isDigit then some (c.toNat - '0'.toNat)
  else if 'a' ≤ c ∧ c ≤ 'f' then some (c.toNat - 'a'.toNat + 10)
  else if 'A' ≤ c ∧ c ≤ 'F' then some (c.toNat - 'A'.toNat + 10)
  else none

/-- The character with a code of `count` hexadecimal digits. -/
def readCode? : (count code : Nat) → List Char → Option (Char × List Char)
  | 0, code, cs => if h : code.isValidChar then some (Char.ofNatAux code h, cs) else none
  | count + 1, code, c :: cs => do readCode? count (code * 16 + (← hexDigit? c)) cs
  | _ + 1, _, [] => none

end JoosStatics.Text
