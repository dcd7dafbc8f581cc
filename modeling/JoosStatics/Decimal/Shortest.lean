/-
JoosStatics.Decimal.Shortest — the shortest decimal text of a double.

The text has the fewest digits among the decimals that round to the double,
and of those it is nearest to it; of two equally near, the greater.

* `Double.readsBack` — whether a decimal rounds to a magnitude.
* `Double.shortest` — the digits and the exponent.
* `Double.toText` — written without exponent, however long.
-/
import JoosStatics.Decimal.Double

namespace JoosStatics.Double

open Decimal

/-- Whether `digits · 10^exponent` lies among the reals that round to a
magnitude: halfway to its neighbours, both ends included when its last
significant bit is zero. The neighbour below a power of two is half as far
away. All lengths are in quarters of a unit. -/
def readsBack (units digits : Nat) (exponent : Int) : Bool :=
  let gap := 1 <<< gapBits units
  let below := if 1 < gap && units == 1 <<< units.log2 then gap else 2 * gap
  let scale := power (-exponent).toNat
  let value := digits * power exponent.toNat * (4 * unitsOfPower 0)
  let low := (4 * units - below) * scale
  let high := (4 * units + 2 * gap) * scale
  if units / gap % 2 == 0 then low ≤ value && value ≤ high else low < value && value < high

/-- How many decimal zeros follow the point of a magnitude below one. -/
def leadingZeros : (fuel units : Nat) → Nat
  | 0, _ => 0
  | fuel + 1, units =>
    if units * 10 < unitsOfPower 0 then leadingZeros fuel (units * 10) + 1 else 0

/-- The least `k` for which a magnitude is below `10^k`. -/
def decimalScale (units : Nat) : Int :=
  let whole := units / unitsOfPower 0
  if whole = 0 then -Int.ofNat (leadingZeros 324 units)
  else Int.ofNat (Nat.toDigits 10 whole).length

/-- The nearer of a magnitude's two neighbours on the grid `10^exponent` that
round to it. -/
def onGrid? (units : Nat) (exponent : Int) : Option (Nat × Int) :=
  let scaled := units * power (-exponent).toNat
  let grid := power exponent.toNat * unitsOfPower 0
  let digits := scaled / grid
  match readsBack units digits exponent, readsBack units (digits + 1) exponent with
  | true, true =>
    if (2 * digits + 1) * grid ≤ 2 * scaled then some (digits + 1, exponent)
    else some (digits, exponent)
  | true, false => some (digits, exponent)
  | false, true => some (digits + 1, exponent)
  | false, false => none

/-- The shortest decimal that rounds to a magnitude; seventeen digits are
always enough. -/
def shortest (units : Nat) : Nat × Int :=
  let scale := decimalScale units
  ((List.range 17).findSome? (fun count => onGrid? units (scale - Int.ofNat count - 1))).getD
    (units * Nat.pow 5 1074, -1074)

/-- A decimal written without exponent and without zeros at the end of its
fraction. -/
def positional (digits : Nat) : (exponent : Int) → String
  | .ofNat zeros => String.ofList (Nat.toDigits 10 digits ++ List.replicate zeros '0')
  | .negSucc places =>
    let places := places + 1
    let text := Nat.toDigits 10 digits
    let text := List.replicate (places + 1 - text.length) '0' ++ text
    let whole := text.take (text.length - places)
    let fraction := (text.drop (text.length - places)).reverse.dropWhile (· == '0')
    if fraction.isEmpty then String.ofList whole
    else String.ofList (whole ++ '.' :: fraction.reverse)

/-- The shortest text of a double. -/
def toText (x : Double) : String :=
  let magnitude :=
    if x.isInfinite then "inf"
    else if x.units = 0 then "0"
    else
      let (digits, exponent) := shortest x.units
      positional digits exponent
  if x.negative then "-" ++ magnitude else magnitude

end JoosStatics.Double
