import DecisionRules.Breach
import DecisionRules.Number.Binary

/-!
Arithmetic on integers, floats and complex numbers. Integers are exact and unbounded; a mixed
operation is done in the wider kind, and an integer without a nearest float overflows. Remainders
have the sign of the divisor.
-/
namespace DecisionRules

inductive Numeral where
  | int (n : Int)
  | real (x : Float)
  | complex (re im : Float)

namespace Numeral
open Number

def ofInt (n : Int) : Except Breach Float :=
  match Number.ofInt? n with
  | some x => .ok x
  | none => .error .overflow

def toReal : Numeral → Except Breach Float
  | int n => ofInt n
  | real x => .ok x
  | complex _ _ => .error .wrongType

def toComplex : Numeral → Except Breach (Float × Float)
  | complex re im => .ok (re, im)
  | v => do return (← v.toReal, 0)

def isComplex : Numeral → Bool
  | complex _ _ => true
  | _ => false

def lift (ints : Int → Int → Except Breach Numeral) (reals : Float → Float → Except Breach Numeral)
    (complexes : Float × Float → Float × Float → Except Breach Numeral) (a b : Numeral) :
    Except Breach Numeral :=
  match a, b with
  | int m, int n => ints m n
  | _, _ =>
    if a.isComplex || b.isComplex then do complexes (← a.toComplex) (← b.toComplex)
    else do reals (← a.toReal) (← b.toReal)

def add : Numeral → Numeral → Except Breach Numeral :=
  lift (fun m n => .ok (int (m + n))) (fun x y => .ok (real (x + y)))
    fun (a, b) (c, d) => .ok (complex (a + c) (b + d))

def sub : Numeral → Numeral → Except Breach Numeral :=
  lift (fun m n => .ok (int (m - n))) (fun x y => .ok (real (x - y)))
    fun (a, b) (c, d) => .ok (complex (a - c) (b - d))

def timesComplex (x y : Float × Float) : Float × Float :=
  (x.1 * y.1 - x.2 * y.2, x.1 * y.2 + x.2 * y.1)

def mul : Numeral → Numeral → Except Breach Numeral :=
  lift (fun m n => .ok (int (m * n))) (fun x y => .ok (real (x * y)))
    fun x y => let (re, im) := timesComplex x y; .ok (complex re im)

/-- The quotient of integers, rounded once; a zero keeps the sign of the quotient. -/
def divInts (m n : Int) : Except Breach Numeral :=
  if n == 0 then .error .divisionByZero
  else match nearest? ((m < 0) != (n < 0)) m.natAbs n.natAbs with
    | some x => .ok (real x)
    | none => .error .overflow

def divReals (x y : Float) : Except Breach Numeral :=
  if y == 0 then .error .divisionByZero else .ok (real (x / y))

/-- Scales by the larger part of the divisor, so that no square overflows. -/
def divComplex (x y : Float × Float) : Except Breach (Float × Float) :=
  if y.1 == 0 && y.2 == 0 then .error .divisionByZero
  else if y.1.abs ≥ y.2.abs then
    let ratio := y.2 / y.1
    let den := y.1 + y.2 * ratio
    .ok ((x.1 + x.2 * ratio) / den, (x.2 - x.1 * ratio) / den)
  else
    let ratio := y.1 / y.2
    let den := y.1 * ratio + y.2
    .ok ((x.1 * ratio + x.2) / den, (x.2 * ratio - x.1) / den)

def div : Numeral → Numeral → Except Breach Numeral :=
  lift divInts divReals fun x y => do
    let (re, im) ← divComplex x y
    return complex re im

def modReals (x y : Float) : Except Breach Numeral :=
  if y == 0 then .error .divisionByZero
  else
    let r := remainder x y
    if r == 0 then .ok (real (if y < 0 then -0.0 else 0.0))
    else .ok (real (if (y < 0) != (r < 0) then r + y else r))

def mod : Numeral → Numeral → Except Breach Numeral :=
  lift (fun m n => if n == 0 then .error .divisionByZero else .ok (int (m.fmod n))) modReals
    fun _ _ => .error .wrongType

def isOdd (x : Float) : Bool :=
  match toInt? x with
  | some n => n % 2 != 0
  | none => false

/-- Powers by repeated squaring, `fuel` bits of the exponent. -/
def powerComplex (result base : Float × Float) (n : Nat) : Nat → Float × Float
  | 0 => result
  | fuel + 1 =>
    if n == 0 then result
    else
      let result := if n % 2 == 1 then timesComplex result base else result
      powerComplex result (timesComplex base base) (n / 2) fuel

def polarPower (a b : Float × Float) : Except Breach (Float × Float) :=
  if b.1 == 0 && b.2 == 0 then .ok (1, 0)
  else if a.1 == 0 && a.2 == 0 then
    if b.2 != 0 || b.1 < 0 then .error .divisionByZero else .ok (0, 0)
  else
    let size := if a.2 == 0 then a.1.abs else Float.sqrt (a.1 * a.1 + a.2 * a.2)
    let angle := Float.atan2 a.2 a.1
    let length := Float.pow size b.1
    let phase := angle * b.1
    let (length, phase) := if b.2 != 0 then
      (length * Float.exp (-angle * b.2), phase + b.2 * Float.log size) else (length, phase)
    .ok (length * Float.cos phase, length * Float.sin phase)

def powComplex (a b : Float × Float) : Except Breach Numeral := do
  let small := b.2 == 0 && b.1 == Float.floor b.1 && b.1.abs ≤ 100
  let (re, im) ← match small, toInt? b.1 with
    | true, some n =>
      let p := powerComplex (1, 0) a n.natAbs 7
      if n > 0 then .ok p else divComplex (1, 0) p
    | _, _ => polarPower a b
  if re.isInf || im.isInf then .error .overflow else return complex re im

/-- A power of floats: anything to the power zero is one, a negative base to a fractional power is
complex, zero has no negative power, and what is too large overflows. -/
def powReals (x y : Float) : Except Breach Numeral :=
  if y == 0 then .ok (real 1)
  else if x.isNaN then .ok (real x)
  else if y.isNaN then .ok (real (if x == 1 then 1 else y))
  else if y.isInf then
    let size := x.abs
    if size == 1 then .ok (real 1)
    else if (y > 0) == (size > 1) then .ok (real y.abs) else .ok (real 0)
  else if x.isInf then
    if y > 0 then .ok (real (if isOdd y then x else x.abs))
    else .ok (real (if isOdd y && x < 0 then -0.0 else 0))
  else if x == 0 then
    if y < 0 then .error .divisionByZero else .ok (real (if isOdd y then x else 0))
  else if x < 0 && y != Float.floor y then powComplex (x, 0) (y, 0)
  else
    let negative := x < 0 && isOdd y
    let size := x.abs
    let p := if size == 1 then 1 else Float.pow size y
    if p.isInf then .error .overflow else .ok (real (if negative then -p else p))

/-- A power of integers: exact, but a float when the exponent is negative. -/
def powInts (m n : Int) : Except Breach Numeral :=
  if n < 0 then do powReals (← ofInt m) (← ofInt n) else .ok (int (Int.pow m n.toNat))

def pow : Numeral → Numeral → Except Breach Numeral := lift powInts powReals powComplex

def neg : Numeral → Numeral
  | int n => int (-n)
  | real x => real (-x)
  | complex re im => complex (-re) (-im)

def abs : Numeral → Numeral
  | int n => int n.natAbs
  | real x => real x.abs
  | complex re im => real (Float.sqrt (re * re + im * im))

def roundReal (round : Float → Option Int) (x : Float) : Except Breach Numeral :=
  match round x with
  | some n => .ok (int n)
  | none => .error (if x.isNaN then .badValue else .overflow)

def floor : Numeral → Except Breach Numeral
  | int n => .ok (int n)
  | real x => roundReal Number.floor? x
  | complex _ _ => .error .wrongType

def ceil : Numeral → Except Breach Numeral
  | int n => .ok (int n)
  | real x => roundReal Number.ceil? x
  | complex _ _ => .error .wrongType

def roundHalfUp (v : Numeral) : Except Breach Numeral := do floor (← add v (real 0.5))

/-- Compares an integer with a float, exactly; nothing when the float is no number. -/
def compareInt? (n : Int) (x : Float) : Option Ordering :=
  match form x with
  | .nan => none
  | .infinity negative => some (if negative then .gt else .lt)
  | .finite s m e =>
    let signed : Int := if s then -m else m
    some (if e < 0 then compare (n * (Nat.pow 2 e.natAbs : Int)) signed
      else compare n (signed * (Nat.pow 2 e.natAbs : Int)))

def equal : Numeral → Numeral → Bool
  | int m, int n => m == n
  | real x, real y => x == y
  | int n, real x | real x, int n => compareInt? n x == some .eq
  | complex a b, complex c d => a == c && b == d
  | complex re im, int n | int n, complex re im => im == 0 && compareInt? n re == some .eq
  | complex re im, real x | real x, complex re im => im == 0 && re == x

end Numeral

inductive Relation where
  | lt
  | le
  | gt
  | ge
  deriving DecidableEq, Repr

namespace Relation

def ofOrdering : Relation → Ordering → Bool
  | lt, o => o == .lt
  | le, o => o != .gt
  | gt, o => o == .gt
  | ge, o => o != .lt

def floats : Relation → Float → Float → Bool
  | lt, x, y => x < y
  | le, x, y => x ≤ y
  | gt, x, y => x > y
  | ge, x, y => x ≥ y

def ints (r : Relation) (m n : Int) : Bool := r.ofOrdering (compare m n)

def numerals (r : Relation) : Numeral → Numeral → Except Breach Bool
  | .int m, .int n => .ok (r.ints m n)
  | .real x, .real y => .ok (r.floats x y)
  | .int n, .real x => .ok ((Numeral.compareInt? n x).any r.ofOrdering)
  | .real x, .int n => .ok ((Numeral.compareInt? n x).any fun o => r.ofOrdering o.swap)
  | _, _ => .error .wrongType

end Relation
end DecisionRules
