import DecisionRules.Breach
import DecisionRules.Number.Layout

/-!
Instants of the proleptic Gregorian calendar in UTC, to the microsecond.
-/
namespace DecisionRules.Calendar

structure Date where
  year : Int
  month : Nat
  day : Nat
  deriving DecidableEq, Repr

/-- The date of a number of days after the first of January 1970. Years are counted from March, so
that a leap day is the last day of its year. -/
def dateOfDays (days : Int) : Date :=
  let shifted := days + 719468
  let era := shifted.fdiv 146097
  let dayOfEra := (shifted - era * 146097).toNat
  let yearOfEra := (dayOfEra - dayOfEra / 1460 + dayOfEra / 36524 - dayOfEra / 146096) / 365
  let dayOfYear := dayOfEra - (365 * yearOfEra + yearOfEra / 4 - yearOfEra / 100)
  let monthFromMarch := (5 * dayOfYear + 2) / 153
  let month := if monthFromMarch < 10 then monthFromMarch + 3 else monthFromMarch - 9
  { year := yearOfEra + era * 400 + (if month ≤ 2 then 1 else 0)
    month := month
    day := dayOfYear - (153 * monthFromMarch + 2) / 5 + 1 }

def padded (width n : Nat) : List Char :=
  let digits := Nat.toDigits 10 n
  Number.zeros (width - digits.length) ++ digits

def nearestEven (x : Float) : Option Int := do
  let below ← Number.floor? x
  let rest := x - Float.ofInt below
  return if rest < 0.5 then below
    else if 0.5 < rest then below + 1
    else if below % 2 == 0 then below
    else below + 1

def microseconds (seconds : Float) : Except Breach Int :=
  if seconds.isNaN then .error .badValue
  else match Number.floor? seconds with
    | none => .error .overflow
    | some whole =>
      match nearestEven ((seconds - Float.ofInt whole) * 1000000) with
      | some fraction => .ok (whole * 1000000 + fraction)
      | none => .error .overflow

def isoText (micros : Int) : Except Breach String :=
  let seconds := micros.fdiv 1000000
  let fraction := (micros - seconds * 1000000).toNat
  let days := seconds.fdiv 86400
  let time := (seconds - days * 86400).toNat
  let date := dateOfDays days
  if date.year < 1 || 9999 < date.year then .error .badValue
  else
    let clock := padded 2 (time / 3600) ++ [':'] ++ padded 2 (time / 60 % 60) ++ [':'] ++
      padded 2 (time % 60)
    let rest := if fraction == 0 then [] else '.' :: padded 6 fraction
    .ok (String.ofList (padded 4 date.year.toNat ++ ['-'] ++ padded 2 date.month ++ ['-'] ++
      padded 2 date.day ++ ['T'] ++ clock ++ rest ++ ['Z']))

end DecisionRules.Calendar
