import DecisionRules.Number.Binary

/-!
Decimal digits of a binary number: the fewest digits that read back as the same float, of those the
nearest to it, and the digits of a rounding to a fixed number of places.
-/
namespace DecisionRules.Number

/-- `digits · 10 ^ exponent`. -/
structure Decimal where
  digits : Nat
  exponent : Int
  deriving DecidableEq, Repr

def digitChars (n : Nat) : List Char := Nat.toDigits 10 n

def digitCount (n : Nat) : Nat := (digitChars n).length

namespace Decimal

def leading (d : Decimal) : Int := d.exponent + (digitCount d.digits : Int) - 1

def trimFrom (d : Decimal) : Nat → Decimal
  | 0 => d
  | fuel + 1 =>
    if d.digits != 0 && d.digits % 10 == 0 then trimFrom ⟨d.digits / 10, d.exponent + 1⟩ fuel else d

def trim (d : Decimal) : Decimal := d.trimFrom (digitCount d.digits)

end Decimal

def scaledTen (num den : Nat) (shift : Int) : Nat × Nat :=
  if shift < 0 then (num, den * Nat.pow 10 shift.natAbs) else (num * Nat.pow 10 shift.natAbs, den)

def decimalExponent (num den : Nat) : Int :=
  let guess : Int := (digitCount num : Int) - digitCount den
  let (n, d) := scaledTen num den (-guess)
  if n < d then guess - 1 else guess

/-- The rationals that round to `mantissa · 2 ^ exponent`, in quarters of its last place. -/
structure Interval where
  low : Nat
  high : Nat
  closed : Bool
  deriving DecidableEq, Repr

def roundingInterval (mantissa : Nat) (exponent : Int) : Interval :=
  let narrow := mantissa == Nat.pow 2 fractionBits && leastExponent < exponent
  ⟨4 * mantissa - (if narrow then 1 else 2), 4 * mantissa + 2, mantissa % 2 == 0⟩

def Interval.holds (i : Interval) (n d : Nat) : Bool :=
  if i.closed then i.low * d ≤ n && n ≤ i.high * d else i.low * d < n && n < i.high * d

/-- The two neighbours of the number on the grid of `10 ^ unit`: the nearer one of those that read
back, if one does. -/
def onGrid? (mantissa : Nat) (exponent : Int) (unit : Int) : Option Decimal :=
  let (vn, vd) := scaled mantissa 1 exponent
  let (gn, gd) := scaledTen vn vd (-unit)
  let below := gn / gd
  let interval := roundingInterval mantissa exponent
  let reads (k : Nat) : Bool :=
    let (kn, kd) := scaledTen k 1 unit
    let (qn, qd) := scaled kn kd (2 - exponent)
    interval.holds qn qd
  let nearer := roundDiv gn gd
  let other := if nearer == below then below + 1 else below
  if nearer != 0 && reads nearer then some ⟨nearer, unit⟩
  else if other != 0 && reads other then some ⟨other, unit⟩
  else none

/-- Tries the grids from `count` digits on, at most `fuel` of them. -/
def shortestFrom (mantissa : Nat) (exponent lead : Int) : Nat → Nat → Decimal
  | count, 0 => ⟨mantissa, count⟩
  | count, fuel + 1 =>
    match onGrid? mantissa exponent (lead + 1 - count) with
    | some d => d
    | none => shortestFrom mantissa exponent lead (count + 1) fuel

/-- The fewest digits that read back as `mantissa · 2 ^ exponent`; seventeen always do. -/
def shortest (mantissa : Nat) (exponent : Int) : Decimal :=
  if mantissa == 0 then ⟨0, 0⟩
  else
    let (n, d) := scaled mantissa 1 exponent
    (shortestFrom mantissa exponent (decimalExponent n d) 1 17).trim

def roundedTo (mantissa : Nat) (exponent unit : Int) : Decimal :=
  let (vn, vd) := scaled mantissa 1 exponent
  let (gn, gd) := scaledTen vn vd (-unit)
  ⟨roundDiv gn gd, unit⟩

def significant (mantissa : Nat) (exponent : Int) (count : Nat) : Decimal :=
  if mantissa == 0 then ⟨0, 0⟩
  else
    let (n, d) := scaled mantissa 1 exponent
    let lead := decimalExponent n d
    roundedTo mantissa exponent (lead + 1 - count)

end DecisionRules.Number
