import DecisionRules.Number.Layout

/-!
Magnitudes of floats written with a chosen precision: with a fixed count of places, with an
exponent, or in the shorter of the two. An alternate form keeps the point and the zeros.
-/
namespace DecisionRules.Number

/-- Digits of a rounding to `count` significant places; a rounding up to the next power of ten gives
up its last zero. -/
def significantDigits (mantissa : Nat) (exponent : Int) (count : Nat) : Decimal :=
  let d := significant mantissa exponent count
  if digitCount d.digits > count then ⟨d.digits / 10, d.exponent + 1⟩ else d

def withPoint (alternate : Bool) (cs : List Char) : List Char :=
  if alternate && !cs.contains '.' then cs ++ ['.'] else cs

def fixedChars (mantissa : Nat) (exponent : Int) (places : Nat) (alternate : Bool) : List Char :=
  withPoint alternate (positionalChars (roundedTo mantissa exponent (-places)) 0)

def exponentForm (d : Decimal) (places : Nat) (mark : Char) (alternate : Bool) : List Char :=
  let digits := digitChars d.digits
  let padded := digits ++ zeros (places + 1 - digits.length)
  let lead := if d.digits == 0 then 0 else d.leading
  let mantissa := match padded with
    | [] => ['0']
    | [c] => if alternate then [c, '.'] else [c]
    | c :: rest => c :: '.' :: rest
  mantissa ++ exponentChars mark 2 lead

def scientific (mantissa : Nat) (exponent : Int) (places : Nat) (mark : Char) (alternate : Bool) :
    List Char :=
  exponentForm (significantDigits mantissa exponent (places + 1)) places mark alternate

/-- `count` significant digits, positional when the exponent is at least -4 and below the count;
zeros at the end are dropped unless the form is alternate. -/
def generalChars (mantissa : Nat) (exponent : Int) (count : Nat) (mark : Char) (alternate : Bool) :
    List Char :=
  let count := max count 1
  let d := significantDigits mantissa exponent count
  let lead := if d.digits == 0 then 0 else d.leading
  let positional := -4 ≤ lead && lead < count
  if alternate then
    if positional then
      let places := ((count : Int) - 1 - lead).toNat
      fixedChars mantissa exponent places true
    else exponentForm d (count - 1) mark true
  else
    let t := d.trim
    if positional then positionalChars t 0
    else exponentForm t (digitCount t.digits - 1) mark false

end DecisionRules.Number
