/-!
Binary floating-point numbers as exact rationals: a finite float is `± mantissa · 2 ^ exponent`, and
a rational has one nearest float, a tie going to the even mantissa. All of it is arithmetic on `Nat`.
-/
namespace DecisionRules.Number

inductive Form where
  | nan
  | infinity (negative : Bool)
  | finite (negative : Bool) (mantissa : Nat) (exponent : Int)
  deriving DecidableEq, Repr

def fractionBits : Nat := 52
def leastExponent : Int := -1074
def infinityBits : Nat := 0x7ff0000000000000
def signBit : Nat := 0x8000000000000000

def Form.ofBits (bits : Nat) : Form :=
  let negative := bits / signBit % 2 == 1
  let biased := bits / Nat.pow 2 fractionBits % 2048
  let fraction := bits % Nat.pow 2 fractionBits
  if biased == 2047 then
    if fraction == 0 then .infinity negative else .nan
  else if biased == 0 then .finite negative fraction leastExponent
  else .finite negative (Nat.pow 2 fractionBits + fraction) (leastExponent + ((biased : Int) - 1))

def form (x : Float) : Form := .ofBits x.toBits.toNat

def isFinite (x : Float) : Bool :=
  match form x with
  | .finite .. => true
  | _ => false

def positiveInfinity : Float := Float.ofBits infinityBits.toUInt64
def negativeInfinity : Float := Float.ofBits (signBit + infinityBits).toUInt64
def notANumber : Float := Float.ofBits (infinityBits + Nat.pow 2 51).toUInt64

def roundDiv (num den : Nat) : Nat :=
  let q := num / den
  let r := num % den
  if 2 * r > den || (2 * r == den && q % 2 == 1) then q + 1 else q

def scaled (num den : Nat) (shift : Int) : Nat × Nat :=
  if shift < 0 then (num, den * Nat.pow 2 shift.natAbs) else (num * Nat.pow 2 shift.natAbs, den)

/-- The exponent of the greatest power of two that is at most `num / den`, both positive. -/
def binaryExponent (num den : Nat) : Int :=
  let guess : Int := (num.log2 : Int) - den.log2
  let (n, d) := scaled num den (-guess)
  if n < d then guess - 1 else guess

/-- The bits of the float nearest to `num / den`, the sign bit left out; `infinityBits` or more when
the quotient is too large. -/
def nearestBits (num den : Nat) : Nat :=
  if num == 0 then 0
  else
    let exponent := max (binaryExponent num den - fractionBits) leastExponent
    let (n, d) := scaled num den (-exponent)
    (exponent - leastExponent).toNat * Nat.pow 2 fractionBits + roundDiv n d

def nearest? (negative : Bool) (num den : Nat) : Option Float :=
  let bits := nearestBits num den
  if bits ≥ infinityBits then none
  else some (Float.ofBits ((if negative then signBit else 0) + bits).toUInt64)

def ofInt? (n : Int) : Option Float := nearest? (n < 0) n.natAbs 1

/-- The float nearest to `± digits · 10 ^ exponent`, infinite on overflow. -/
def ofDecimal (negative : Bool) (digits : Nat) (exponent : Int) : Float :=
  let infinite := if negative then negativeInfinity else positiveInfinity
  let zero := if negative then Float.ofBits signBit.toUInt64 else 0
  if digits == 0 then zero
  else
    let magnitude : Int := digits.log2 * 3 / 10 + exponent
    if magnitude > 400 then infinite
    else if magnitude < -400 then zero
    else
      let found := if exponent < 0 then nearest? negative digits (Nat.pow 10 exponent.natAbs)
        else nearest? negative (digits * Nat.pow 10 exponent.natAbs) 1
      found.getD infinite

def floorForm (negative : Bool) (mantissa : Nat) (exponent : Int) : Int :=
  let signed : Int := if negative then -mantissa else mantissa
  if exponent < 0 then signed.fdiv (Nat.pow 2 exponent.natAbs : Int)
  else signed * (Nat.pow 2 exponent.natAbs : Int)

def floor? (x : Float) : Option Int :=
  match form x with
  | .finite s m e => some (floorForm s m e)
  | _ => none

def ceil? (x : Float) : Option Int :=
  match form x with
  | .finite s m e => some (-floorForm (!s) m e)
  | _ => none

def toInt? (x : Float) : Option Int :=
  match form x with
  | .finite s m e =>
    if e < 0 && m % Nat.pow 2 e.natAbs != 0 then none else some (floorForm s m e)
  | _ => none

/-- The remainder of the truncating division, exact, with the sign of the dividend. The divisor is
not zero. -/
def remainder (x y : Float) : Float :=
  match form x, form y with
  | .nan, _ | _, .nan | .infinity _, _ => notANumber
  | _, .infinity _ => x
  | .finite s mx ex, .finite _ my ey =>
    let e := min ex ey
    let r := (mx * Nat.pow 2 (ex - e).toNat) % (my * Nat.pow 2 (ey - e).toNat)
    if r == 0 then (if s then Float.ofBits signBit.toUInt64 else 0)
    else
      let (n, d) := scaled r 1 e
      (nearest? s n d).getD notANumber

end DecisionRules.Number
