import DecisionRules.Number.Shortest

/-!
How numbers are written. The default form of a float has the fewest digits that read back, is
positional from `0.0001` up to sixteen digits before the point and always shows that it is no
integer; other layouts round to a given precision.
-/
namespace DecisionRules.Number

structure FloatStyle where
  positionalFrom : Int
  positionalBelow : Int
  exponentWidth : Nat
  nan : String
  infinity : String
  negativeInfinity : String
  deriving DecidableEq, Repr

/-- Positional from `1e-4` up to, but not including, `1e16`; exponents have two digits or more. -/
def plainStyle : FloatStyle := ⟨-4, 16, 2, "nan", "inf", "-inf"⟩

def structuredStyle : FloatStyle := { plainStyle with
  nan := "NaN", infinity := "Infinity", negativeInfinity := "-Infinity" }

def zeros (n : Nat) : List Char := List.replicate n '0'

def positionalChars (d : Decimal) (minFraction : Nat) : List Char :=
  let digits := digitChars d.digits
  if 0 ≤ d.exponent then
    let whole := if d.digits == 0 then ['0'] else digits ++ zeros d.exponent.natAbs
    if minFraction == 0 then whole else whole ++ ['.'] ++ zeros minFraction
  else
    let places := d.exponent.natAbs
    let padded := zeros (places + 1 - digits.length) ++ digits
    let whole := padded.take (padded.length - places)
    let fraction := padded.drop (padded.length - places)
    whole ++ ['.'] ++ fraction ++ zeros (minFraction - fraction.length)

def exponentChars (mark : Char) (width : Nat) (e : Int) : List Char :=
  let digits := digitChars e.natAbs
  mark :: (if e < 0 then '-' else '+') :: (zeros (width - digits.length) ++ digits)

def scientificChars (d : Decimal) (mark : Char) (width : Nat) : List Char :=
  let mantissa := match digitChars d.digits with
    | [] => ['0']
    | [c] => [c]
    | c :: rest => c :: '.' :: rest
  mantissa ++ exponentChars mark width d.leading

def magnitudeChars (style : FloatStyle) (d : Decimal) : List Char :=
  if d.digits == 0 then ['0', '.', '0']
  else if style.positionalFrom ≤ d.leading && d.leading < style.positionalBelow then positionalChars d 1
  else scientificChars d 'e' style.exponentWidth

def floatText (style : FloatStyle) (x : Float) : String :=
  match form x with
  | .nan => style.nan
  | .infinity negative => if negative then style.negativeInfinity else style.infinity
  | .finite negative m e =>
    let digits := magnitudeChars style (shortest m e)
    String.ofList (if negative then '-' :: digits else digits)

def maxTextDigits : Nat := 4300

/-- Is the integer small enough to be written in decimal? The cheap bound comes first, so that no
digit of a huge number is computed. -/
def writable (n : Int) : Bool :=
  if n.natAbs.log2 < 3 * maxTextDigits then true else n.natAbs < Nat.pow 10 maxTextDigits

def intChars (n : Int) : List Char :=
  if n < 0 then '-' :: digitChars n.natAbs else digitChars n.natAbs

def intText? (n : Int) : Option String :=
  if writable n then some (String.ofList (intChars n)) else none

end DecisionRules.Number
