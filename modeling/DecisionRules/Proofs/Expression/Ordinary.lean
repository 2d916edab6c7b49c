import DecisionRules.Proofs.Expression.Extent
import DecisionRules.Proofs.Expression.Failing
import Mathlib.Logic.Relation

/-! Which failures of expressions are not their own. Every text has an answer or a fault of expressions, unless on the
way a template is filled, something else than a text is looked for in a text, or an integer is written out that has too
many digits for that. -/
namespace DecisionRules

namespace Number

/-- Too many digits to be written out -/
def Long (n : Int) : Prop := 4300 < digitCount n.natAbs

theorem unwritableLong {n : Int} (refused : writable n = false) : Long n := by
  by_contra short
  have below := (digitCountBelow (by decide)).mp (Nat.le_of_not_lt short)
  have same : 4300 = maxTextDigits := rfl
  rw [same] at below
  unfold writable at refused
  split at refused
  · cases refused
  · generalize maxTextDigits = most at below refused
    exact absurd below (of_decide_eq_false refused)

end Number

namespace Value
open Number (Long writable)

/-- All values in it are of the kinds that expressions have. -/
def Ordinary (v : Value) : Prop := ∀ w, Occurs w v → w.written = true

theorem ordinaryAtom {v : Value} (atom : v.list? = none) (kind : v.written = true) : Ordinary v := by
  intro w occurs
  rw [(occursAtom atom).mp occurs]
  exact kind

theorem ordinaryList {items : List Value} : Ordinary (.list items) ↔ ∀ v ∈ items, Ordinary v := by
  constructor
  · exact fun ordinary v member w inside => ordinary w (.item member inside)
  · intro each w occurs
    rcases occursList.mp occurs with rfl | ⟨v, member, inside⟩
    · rfl
    · exact each v member w inside

theorem ordinaryNumeral (a : Numeral) : Ordinary (ofNumeral a) := by
  cases a <;> exact ordinaryAtom rfl rfl

/-- An integer in it is too long to be written out. -/
def Lengthy (v : Value) : Prop := ∃ n, Occurs (.int n) v ∧ Long n

mutual
theorem charsFail {v : Value} {b : Breach} (ordinary : Ordinary v)
    (failed : Text.Json.chars Text.Json.spaced v = .error b) : Lengthy v := by
  cases v with
  | null | float | complex | text => cases failed
  | bool truth => cases truth <;> cases failed
  | int n =>
    unfold Text.Json.chars at failed
    split at failed
    · cases failed
    · rename_i refused
      exact ⟨n, .self, Number.unwritableLong (Bool.eq_false_iff.mpr refused)⟩
  | list items =>
    unfold Text.Json.chars at failed
    rcases bindFails.mp failed with failed | ⟨_, _, failed⟩
    · obtain ⟨v, member, n, occurs, long⟩ := itemCharsFail (ordinaryList.mp ordinary) failed
      exact ⟨n, .item member occurs, long⟩
    · cases failed
  | object | pattern | callable => cases ordinary _ .self
theorem itemCharsFail {items : List Value} {b : Breach} (ordinary : ∀ v ∈ items, Ordinary v)
    (failed : Text.Json.itemChars Text.Json.spaced items = .error b) : ∃ v ∈ items, Lengthy v := by
  cases items with
  | nil => cases failed
  | cons v rest =>
    obtain ⟨first, others⟩ := List.forall_mem_cons.mp ordinary
    unfold Text.Json.itemChars at failed
    rcases bindFails.mp failed with failed | ⟨_, _, failed⟩
    · exact ⟨v, List.mem_cons_self, charsFail first failed⟩
    · rcases bindFails.mp failed with failed | ⟨_, _, failed⟩
      · obtain ⟨w, member, lengthy⟩ := itemCharsFail others failed
        exact ⟨w, List.mem_cons_of_mem v member, lengthy⟩
      · cases failed
end

theorem intTextFails {n : Int} {b : Breach} (failed : intText n = .error b) : Long n := by
  unfold intText Number.intText? at failed
  cases fits : writable n with
  | true => simp [fits] at failed
  | false => exact Number.unwritableLong fits

theorem stringifyFails {v : Value} {b : Breach} (ordinary : Ordinary v) (failed : v.stringify = .error b) :
    Lengthy v := by
  cases v with
  | null | bool | float | complex | text => cases failed
  | int n => exact ⟨n, .self, intTextFails failed⟩
  | list items =>
    rcases bindFails.mp failed with failed | ⟨_, _, failed⟩
    · exact charsFail ordinary failed
    · cases failed
  | object | pattern | callable => cases ordinary _ .self

end Value

namespace Expression
open Value (Ordinary ordinaryAtom ordinaryList ordinaryNumeral)
open Number (Long)

/-! What evaluation comes to -/

theorem applyUnaryOrdinary {op : UnaryOp} {v w : Value} (applied : applyUnary op v = .ok w) : Ordinary w := by
  unfold applyUnary at applied
  split at applied <;> cases applied <;> exact ordinaryAtom rfl rfl

theorem applyBinaryOrdinary {op : BinaryOp} {l r v : Value} (left : Ordinary l) (right : Ordinary r)
    (applied : applyBinary op l r = .ok v) : Ordinary v := by
  rcases applyBinaryFacts applied with ⟨_, _, s, t, _, _, rfl⟩ | ⟨_, _, found, _⟩
  · exact ordinaryAtom rfl rfl
  · cases atom : v.list? with
    | some items =>
      cases v with
      | list =>
        refine ordinaryList.mpr fun w member => ?_
        obtain ⟨xs, rfl | rfl, inside⟩ := itemsKept found member
        · exact ordinaryList.mp left w inside
        · exact ordinaryList.mp right w inside
      | _ => cases atom
    | none =>
      cases computeMakes found with
      | texts | repeatedText | template => exact ordinaryAtom rfl rfl
      | lists | repeatedList => cases atom
      | number a same => exact same ▸ ordinaryNumeral a

theorem Evaluates.ordinary {e : Expr} {v : Value} (evaluates : Evaluates e v) (leaves : e.Leaves Ordinary) :
    Ordinary v := by
  induction evaluates with
  | literal v => exact leaves v .self
  | noItems => exact ordinaryList.mpr (by simp)
  | item _ _ head tail =>
    have first := head (leaves.child (by simp [Expr.children]))
    exact ordinaryList.mpr (List.forall_mem_cons.mpr ⟨first, ordinaryList.mp (tail leaves.tail)⟩)
  | unary _ applied => exact applyUnaryOrdinary applied
  | binary _ _ applied first second =>
    exact applyBinaryOrdinary (first (leaves.child (by simp [Expr.children])))
      (second (leaves.child (by simp [Expr.children]))) applied
  | settled _ _ first => exact first (leaves.child (by simp [Expr.children]))
  | unsettled _ _ _ _ second => exact second (leaves.child (by simp [Expr.children]))
  | compare _ _ applied =>
    obtain ⟨truth, rfl⟩ := applyCompareTruth applied
    exact ordinaryAtom rfl rfl

/-- To interpret the one comes to interpreting the other, once what comes before it has a value. -/
inductive Enters : Expr → Expr → Prop
  | head {e : Expr} {rest : List Expr} : Enters (.list (e :: rest)) e
  | tail {e : Expr} {rest : List Expr} {v : Value} (first : Evaluates e v) :
      Enters (.list (e :: rest)) (.list rest)
  | operand {op : UnaryOp} {operand : Expr} : Enters (.unary op operand) operand
  | left {op : BinaryOp} {left right : Expr} : Enters (.binary op left right) left
  | right {op : BinaryOp} {left right : Expr} {l : Value} (first : Evaluates left l) :
      Enters (.binary op left right) right
  | decider {op : LogicalOp} {left right : Expr} : Enters (.logical op left right) left
  | other {op : LogicalOp} {left right : Expr} {l : Value} (first : Evaluates left l)
      (settles : op.settles l = false) : Enters (.logical op left right) right
  | compared {op : CompareOp} {left right : Expr} : Enters (.compare op left right) left
  | against {op : CompareOp} {left right : Expr} {l : Value} (first : Evaluates left l) :
      Enters (.compare op left right) right

abbrev Reaches : Expr → Expr → Prop := Relation.ReflTransGen Enters

theorem through {e child : Expr} {p : Expr → Prop} (enters : Enters e child)
    (found : ∃ sub, Reaches child sub ∧ p sub) : ∃ sub, Reaches e sub ∧ p sub := by
  obtain ⟨sub, reaches, holds⟩ := found
  exact ⟨sub, .head enters reaches, holds⟩

/-- A template is filled, or an integer is too long for the text that it is joined to, or for the message that
refuses it as an exponent. -/
inductive BinaryOp.Risks : BinaryOp → Value → Value → Prop
  | template (s : String) (r : Value) : Risks .mod (.text s) r
  | joined {l r : Value} (joins : isText l = true ∨ isText r = true) (lengthy : l.Lengthy ∨ r.Lengthy) :
      Risks .add l r
  | exponent {l : Value} {n : Int} (long : Long n) : Risks .pow l (.int n)

inductive Expr.Risky : Expr → Prop
  | binary {op : BinaryOp} {left right : Expr} {l r : Value} (first : Evaluates left l)
      (second : Evaluates right r) (risks : op.Risks l r) : Risky (.binary op left right)
  | member {left right : Expr} {l : Value} {s : String} (first : Evaluates left l)
      (second : Evaluates right (.text s)) (other : isText l = false) : Risky (.compare .member left right)

/-! Breaches come from risky operations alone. -/

variable {b : Breach}

theorem checkOperandsBreaks {op : BinaryOp} {l r : Value} (failed : checkOperands op l r = .error (.breach b)) :
    op.Risks l r := by
  unfold checkOperands at failed
  split at failed
  · unfold checkPower at failed
    split at failed
    · rcases bindFails.mp failed with failed | ⟨_, _, failed⟩
      · obtain ⟨_, refused, _⟩ := liftFails.mp failed
        exact .exponent (Value.intTextFails refused)
      · cases failed
    · split at failed
      · split at failed <;> cases failed
      · cases failed
  · split at failed <;> cases failed
  · cases failed

theorem computeAvoids {op : BinaryOp} {l : Value} (numbers : op = .mod → isText l = false) (r : Value) :
    Avoids Breach.strange (compute op l r) := by
  cases op with
  | add => exact Value.addAvoids l r
  | sub => exact Value.onNumbersAvoids Numeral.subAvoids l r
  | mul => exact Value.mulAvoids l r
  | div => exact Value.onNumbersAvoids Numeral.divAvoids l r
  | mod =>
    refine Value.modAvoids (fun s same => ?_) r
    rw [same] at numbers
    cases numbers rfl
  | pow => exact Value.onNumbersAvoids Numeral.powAvoids l r

theorem computeBreaks {op : BinaryOp} {l r : Value} {refusal : Breach} (computed : compute op l r = .error refusal)
    (failed : unsupported op.symbol refusal = .breach b) : op.Risks l r := by
  by_cases numbers : op = .mod → isText l = false
  · have usual := computeAvoids numbers r refusal computed
    cases refusal with
    | divisionByZero | overflow | wrongType => cases failed
    | _ => cases usual
  · simp only [Classical.not_imp, Bool.not_eq_false] at numbers
    obtain ⟨rfl, text⟩ := numbers
    cases l with
    | text s => exact .template s r
    | _ => cases text

theorem checkResultBreaks {op : BinaryOp} {v : Value} : checkResult op v ≠ .error (.breach b) := by
  unfold checkResult
  split
  · split <;> nofun
  · nofun

theorem applyBinaryBreaks {op : BinaryOp} {l r : Value} (left : Ordinary l) (right : Ordinary r)
    (failed : applyBinary op l r = .error (.breach b)) : op.Risks l r := by
  unfold applyBinary at failed
  split at failed
  · rename_i joins
    simp only [Bool.and_eq_true, beq_iff_eq, Bool.or_eq_true] at joins
    obtain ⟨rfl, joins⟩ := joins
    rcases bindFails.mp failed with failed | ⟨_, _, failed⟩
    · obtain ⟨_, refused, _⟩ := liftFails.mp failed
      exact .joined joins (.inl (Value.stringifyFails left refused))
    · rcases bindFails.mp failed with failed | ⟨_, _, failed⟩
      · obtain ⟨_, refused, _⟩ := liftFails.mp failed
        exact .joined joins (.inr (Value.stringifyFails right refused))
      · cases failed
  · rcases bindFails.mp failed with failed | ⟨_, _, failed⟩
    · exact checkOperandsBreaks failed
    · split at failed
      · exact absurd failed checkResultBreaks
      · rename_i computed
        exact computeBreaks computed (Except.error.inj failed)

theorem applyUnaryBreaks {op : UnaryOp} {v : Value} : applyUnary op v ≠ .error (.breach b) := by
  unfold applyUnary
  split <;> nofun

theorem applyCompareBreaks {op : CompareOp} {l r : Value} (right : Ordinary r)
    (failed : applyCompare op l r = .error (.breach b)) :
    op = .member ∧ isText l = false ∧ ∃ s, r = .text s := by
  have relation (r : Relation) (left right : Value) : applyRelation r left right ≠ .error (.breach b) := by
    unfold applyRelation
    split <;> nofun
  cases op with
  | eq | strictEq | ne | strictNe => cases failed
  | lt | le | gt | ge => exact absurd failed (relation _ l r)
  | member =>
    cases r with
    | text s =>
      cases l with
      | text part => cases failed
      | _ => exact ⟨rfl, rfl, s, rfl⟩
    | object => cases right _ .self
    | _ => cases failed

mutual
theorem interpretBreaks {e : Expr} (leaves : e.Leaves Ordinary) (failed : interpret e = .error (.breach b)) :
    ∃ sub, Reaches e sub ∧ sub.Risky := by
  unfold interpret at failed
  cases e with
  | literal v => cases failed
  | list items =>
    rcases bindFails.mp failed with failed | ⟨_, _, failed⟩
    · exact interpretAllBreaks leaves failed
    · cases failed
  | unary op operand =>
    rcases bindFails.mp failed with failed | ⟨_, _, failed⟩
    · exact through .operand (interpretBreaks (leaves.child (by simp [Expr.children])) failed)
    · exact absurd failed applyUnaryBreaks
  | binary op left right =>
    have before : left.Leaves Ordinary := leaves.child (by simp [Expr.children])
    have after : right.Leaves Ordinary := leaves.child (by simp [Expr.children])
    rcases bindFails.mp failed with failed | ⟨l, first, failed⟩
    · exact through .left (interpretBreaks before failed)
    have first := interpretEvaluates first
    rcases bindFails.mp failed with failed | ⟨r, second, failed⟩
    · exact through (.right first) (interpretBreaks after failed)
    have second := interpretEvaluates second
    have risks := applyBinaryBreaks (first.ordinary before) (second.ordinary after) failed
    exact ⟨_, .refl, .binary first second risks⟩
  | logical op left right =>
    have after : right.Leaves Ordinary := leaves.child (by simp [Expr.children])
    rcases bindFails.mp failed with failed | ⟨l, first, failed⟩
    · exact through .decider (interpretBreaks (leaves.child (by simp [Expr.children])) failed)
    have first := interpretEvaluates first
    cases op <;> cases truth : l.truthy <;> simp only [truth] at failed
    · cases failed
    · exact through (.other first (by simp [LogicalOp.settles, truth])) (interpretBreaks after failed)
    · exact through (.other first truth) (interpretBreaks after failed)
    · cases failed
  | compare op left right =>
    have after : right.Leaves Ordinary := leaves.child (by simp [Expr.children])
    rcases bindFails.mp failed with failed | ⟨l, first, failed⟩
    · exact through .compared (interpretBreaks (leaves.child (by simp [Expr.children])) failed)
    have first := interpretEvaluates first
    rcases bindFails.mp failed with failed | ⟨r, second, failed⟩
    · exact through (.against first) (interpretBreaks after failed)
    have second := interpretEvaluates second
    obtain ⟨rfl, other, s, rfl⟩ := applyCompareBreaks (second.ordinary after) failed
    exact ⟨_, .refl, .member first second other⟩
theorem interpretAllBreaks {items : List Expr} (leaves : (Expr.list items).Leaves Ordinary)
    (failed : interpretAll items = .error (.breach b)) : ∃ sub, Reaches (.list items) sub ∧ sub.Risky := by
  unfold interpretAll at failed
  cases items with
  | nil => cases failed
  | cons e rest =>
    rcases bindFails.mp failed with failed | ⟨v, first, failed⟩
    · exact through .head (interpretBreaks (leaves.child (by simp [Expr.children])) failed)
    rcases bindFails.mp failed with failed | ⟨_, _, failed⟩
    · exact through (.tail (interpretEvaluates first)) (interpretAllBreaks leaves.tail failed)
    · cases failed
end

theorem parsedOrdinary {source : String} {e : Expr} (parsed : parse source = .ok e) : e.Leaves Ordinary := by
  intro w inside
  obtain ⟨_, _, _, leaves⟩ := parsedLeaves parsed
  obtain ⟨t, _, value, short⟩ := leaves w inside
  exact (tokenSized value short).written

theorem holdsBreaks {source : String} (failed : holds source = .error (.breach b)) :
    ∃ e sub, parse source = .ok e ∧ Reaches e sub ∧ sub.Risky := by
  unfold holds parseSource at failed
  cases parsed : parse source with
  | error fault =>
    rw [parsed] at failed
    cases failed
  | ok e =>
    rw [parsed] at failed
    change (interpret e >>= fun v => pure v.truthy) = .error (.breach b) at failed
    rcases bindFails.mp failed with failed | ⟨_, _, failed⟩
    · obtain ⟨sub, reaches, risky⟩ := interpretBreaks (parsedOrdinary parsed) failed
      exact ⟨e, sub, rfl, reaches, risky⟩
    · cases failed

def outside : Failure → Bool
  | .expression _ | .breach _ => false
  | _ => true

/-- Every text comes to a truth value or to a fault of expressions; and if not, to a breach, which a risky operation
must have been carried out for. -/
theorem failsOrdinarily (source : String) :
    (∃ truth, holds source = .ok truth) ∨ (∃ fault, holds source = .error (.expression fault)) ∨
    ∃ b e sub, holds source = .error (.breach b) ∧ parse source = .ok e ∧ Reaches e sub ∧ sub.Risky := by
  cases held : holds source with
  | ok truth => exact .inl ⟨truth, rfl⟩
  | error f =>
    have alien : Alien outside := ⟨fun _ => rfl, fun _ => rfl⟩
    have own := holdsAvoids alien source f held
    cases f with
    | expression fault => exact .inr (.inl ⟨fault, rfl⟩)
    | breach b =>
      obtain ⟨e, sub, parsed, reaches, risky⟩ := holdsBreaks held
      exact .inr (.inr ⟨b, e, sub, rfl, parsed, reaches, risky⟩)
    | _ => cases own

example : holds "1 in 'a'" = .error (.breach .wrongType) := by decide +kernel

end Expression
end DecisionRules
