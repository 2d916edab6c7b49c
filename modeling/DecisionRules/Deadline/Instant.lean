import DecisionRules.Breach
import DecisionRules.Number.Binary

/-!
Instants and spans of time. They are of any type with sums, differences and an order, so that laws can
be stated in exact arithmetic while programs run on floats.
-/
namespace DecisionRules

class Instant (τ : Type) extends Add τ, Sub τ, LT τ, LE τ where
  zero : τ
  ofSeconds : Int → Except Breach τ
  decideLt : DecidableLT τ
  decideLe : DecidableLE τ

instance decidableLT {τ : Type} [Instant τ] : DecidableLT τ := Instant.decideLt
instance decidableLE {τ : Type} [Instant τ] : DecidableLE τ := Instant.decideLe

instance : Instant Float where
  zero := 0
  ofSeconds n := match Number.ofInt? n with
    | some x => .ok x
    | none => .error .overflow
  decideLt := fun a b => Float.decLt a b
  decideLe := fun a b => Float.decLe a b

def earlier {τ : Type} [Instant τ] (a b : τ) : τ := if b < a then b else a

def later {τ : Type} [Instant τ] (a b : τ) : τ := if a < b then b else a

class Span (τ : Type) extends Instant τ, Mul τ where
  half : τ
  /-- A power of two; a type may not reach it. -/
  twoPow : Nat → Except Breach τ

instance : Span Float where
  half := 0.5
  twoPow n := if n < 1024 then .ok (Float.scaleB 1 n) else .error .overflow

end DecisionRules
