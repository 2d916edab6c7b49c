import DecisionRules.Proofs.Expression.Reading
import Mathlib.Algebra.Ring.Nat

/-! Token lists in which single values have grown into powers. Every reading of a list has a counterpart
on the grown list, and the tree gains one operator for each new sign of power. -/
namespace DecisionRules.Expression

mutual
def Expr.outline : Expr → Expr
  | .literal _ => .literal .null
  | .list items => .list (outlineAll items)
  | .unary op operand => .unary op operand.outline
  | .binary op left right => .binary op left.outline right.outline
  | .logical op left right => .logical op left.outline right.outline
  | .compare op left right => .compare op left.outline right.outline
def Expr.outlineAll : List Expr → List Expr
  | [] => []
  | e :: rest => e.outline :: outlineAll rest
end

mutual
def Expr.operators : Expr → Nat
  | .literal _ => 0
  | .list items => operatorsAll items
  | .unary _ operand => operand.operators + 1
  | .binary _ left right => left.operators + right.operators + 1
  | .logical _ left right => left.operators + right.operators + 1
  | .compare _ left right => left.operators + right.operators + 1
def Expr.operatorsAll : List Expr → Nat
  | [] => 0
  | e :: rest => e.operators + operatorsAll rest
end

theorem Expr.outlineAllMap (items : List Expr) : outlineAll items = items.map Expr.outline := by
  induction items with
  | nil => rfl
  | cons e rest ih => simp only [outlineAll, ih, List.map_cons]

theorem Expr.operatorsAllSum (items : List Expr) :
    operatorsAll items = (items.map Expr.operators).sum := by
  induction items with
  | nil => rfl
  | cons e rest ih => simp only [operatorsAll, ih, List.map_cons, List.sum_cons]

mutual
theorem Expr.operatorsOutline : ∀ e : Expr, e.outline.operators = e.operators
  | .literal _ => rfl
  | .list items => by simp only [outline, operators, operatorsAllOutline items]
  | .unary _ operand => by simp only [outline, operators, operatorsOutline operand]
  | .binary _ left right => by
    simp only [outline, operators, operatorsOutline left, operatorsOutline right]
  | .logical _ left right => by
    simp only [outline, operators, operatorsOutline left, operatorsOutline right]
  | .compare _ left right => by
    simp only [outline, operators, operatorsOutline left, operatorsOutline right]
theorem Expr.operatorsAllOutline : ∀ items : List Expr, operatorsAll (outlineAll items) = operatorsAll items
  | [] => rfl
  | e :: rest => by simp only [outlineAll, operatorsAll, operatorsOutline e, operatorsAllOutline rest]
end

/-- The second tree is the first one with as many operators more; with none more, only literals differ. -/
structure Grows (e grown : Expr) (n : Nat) : Prop where
  operators : grown.operators = e.operators + n
  outline : n = 0 → grown.outline = e.outline

theorem Grows.count {e grown : Expr} {m n : Nat} (grows : Grows e grown m) (same : m = n) :
    Grows e grown n := same ▸ grows

theorem growsLiteral (v w : Value) : Grows (.literal v) (.literal w) 0 := ⟨rfl, fun _ => rfl⟩

theorem growsRefl (e : Expr) : Grows e e 0 := ⟨rfl, fun _ => rfl⟩

theorem growsPower (w : Value) {e grown : Expr} {n : Nat} (grows : Grows e grown n) :
    Grows e (.binary .pow (.literal w) grown) (n + 1) := by
  refine ⟨?_, fun none => by omega⟩
  have := grows.operators
  simp only [Expr.operators]
  omega

theorem growsUnary (op : UnaryOp) {e grown : Expr} {n : Nat} (grows : Grows e grown n) :
    Grows (.unary op e) (.unary op grown) n := by
  refine ⟨?_, fun none => ?_⟩
  · have := grows.operators
    simp only [Expr.operators]
    omega
  · simp only [Expr.outline, grows.outline none]

theorem growsPair (node : Expr → Expr → Expr)
    (counts : ∀ a b, (node a b).operators = a.operators + b.operators + 1)
    (outlines : ∀ a b, (node a b).outline = node a.outline b.outline) {a b c d : Expr} {m n : Nat}
    (left : Grows a c m) (right : Grows b d n) : Grows (node a b) (node c d) (m + n) := by
  refine ⟨?_, fun none => ?_⟩
  · have := left.operators
    have := right.operators
    simp only [counts]
    omega
  · simp only [outlines, left.outline (by omega), right.outline (by omega)]

theorem growsNode {level : Level} {t : Token} {node : Expr → Expr → Expr}
    (joins : chainNode? level t = some node) {a b c d : Expr} {m n : Nat} (left : Grows a c m)
    (right : Grows b d n) : Grows (node a b) (node c d) (m + n) := by
  unfold chainNode? at joins
  split at joins
  · contradiction
  · split at joins
    case h_3 =>
      obtain ⟨op, _, rfl⟩ := Option.map_eq_some_iff.mp joins
      exact growsPair (.compare op) (fun _ _ => rfl) (fun _ _ => rfl) left right
    all_goals cases joins
    · exact growsPair (.logical .or) (fun _ _ => rfl) (fun _ _ => rfl) left right
    · exact growsPair (.logical .and) (fun _ _ => rfl) (fun _ _ => rfl) left right
    all_goals exact growsPair (.binary _) (fun _ _ => rfl) (fun _ _ => rfl) left right

theorem growsCons {e grown : Expr} {items others : List Expr} {m n : Nat}
    (tail : Grows (.list items) (.list others) m) (head : Grows e grown n) :
    Grows (.list (e :: items)) (.list (grown :: others)) (m + n) := by
  refine ⟨?_, fun none => ?_⟩
  · have := head.operators
    have := tail.operators
    simp only [Expr.operators, Expr.operatorsAll] at *
    omega
  · have same := tail.outline (by omega)
    simp only [Expr.outline, Expr.list.injEq, Expr.outlineAll, head.outline (by omega)] at *
    rw [same]

theorem growsReverse {items others : List Expr} {n : Nat} (grows : Grows (.list items) (.list others) n) :
    Grows (.list items.reverse) (.list others.reverse) n := by
  refine ⟨?_, fun none => ?_⟩
  · have := grows.operators
    simp only [Expr.operators, Expr.operatorsAllSum, List.map_reverse, List.sum_reverse] at *
    exact this
  · have := grows.outline none
    simp only [Expr.outline, Expr.list.injEq, Expr.outlineAllMap, List.map_reverse] at *
    rw [this]

/-- The second list is the first one up to positions and values, with as many values more, each before
another one and a sign of power. -/
inductive Expands : List Token → List Token → Nat → Prop where
  | stop {t u} (ends : t.kind = .stop) (ends' : u.kind = .stop) : Expands [t] [u] 0
  | op {t u ts us n} (kind : t.kind = .op) (kind' : u.kind = .op) (text : u.text = t.text)
      (more : Expands ts us n) : Expands (t :: ts) (u :: us) n
  | value {t u v w ts us n} (value : t.value? = some v) (value' : u.value? = some w)
      (more : Expands ts us n) : Expands (t :: ts) (u :: us) n
  | power {t u stars v w ts us n} (value : t.value? = some v) (value' : u.value? = some w)
      (found : stars.isOp "**" = true) (more : Expands (t :: ts) us n) :
      Expands (t :: ts) (u :: stars :: us) (n + 1)

theorem valueKind {t : Token} {v : Value} (value : t.value? = some v) : t.kind ≠ .op ∧ t.kind ≠ .stop := by
  unfold Token.value? at value
  constructor <;> intro kind <;> simp [kind] at value

theorem isOpOther {t : Token} (other : t.kind ≠ .op) (op : String) : t.isOp op = false := by
  simp [Token.isOp, other]

theorem signOther {t : Token} (other : t.kind ≠ .op) : signOp? t = none := by
  simp [signOp?, isOpOther other]

theorem chainOther {t : Token} (other : t.kind ≠ .op) (level : Level) : chainNode? level t = none := by
  simp [chainNode?, other]

theorem isOpAlike {t u : Token} (kind : u.kind = t.kind) (text : u.text = t.text) (op : String) :
    u.isOp op = t.isOp op := by
  simp only [Token.isOp, kind, text]

theorem signAlike {t u : Token} (kind : u.kind = t.kind) (text : u.text = t.text) :
    signOp? u = signOp? t := by
  simp only [signOp?, isOpAlike kind text]

theorem chainAlike {t u : Token} (kind : u.kind = t.kind) (text : u.text = t.text) (level : Level) :
    chainNode? level u = chainNode? level t := by
  simp only [chainNode?, kind, text]

theorem expandsHead {ts us : List Token} {n : Nat} (expands : Expands ts us n) {u : Token}
    (first : u ∈ us.head?) : u.kind ≠ .op ∨ ∃ t ∈ ts.head?, u.kind = t.kind ∧ u.text = t.text := by
  cases expands with
  | stop _ ends =>
    cases first
    exact .inl (by simp [ends])
  | op kind kind' text =>
    cases first
    exact .inr ⟨_, rfl, kind'.trans kind.symm, text⟩
  | value _ value' =>
    cases first
    exact .inl (valueKind value').1
  | power _ value' =>
    cases first
    exact .inl (valueKind value').1

theorem expandsOther {α : Type} {f : Token → α} {none : α}
    (alike : ∀ {t u : Token}, u.kind = t.kind → u.text = t.text → f u = f t)
    (silent : ∀ {t : Token}, t.kind ≠ .op → f t = none) {ts us : List Token} {n : Nat}
    (expands : Expands ts us n) (other : ∀ t ∈ ts.head?, f t = none) : ∀ u ∈ us.head?, f u = none := by
  intro u first
  rcases expandsHead expands first with kind | ⟨t, head, kind, text⟩
  · exact silent kind
  · rw [alike kind text]
    exact other t head

theorem expandsIsOp {ts us : List Token} {n : Nat} {op : String} (expands : Expands ts us n) :
    (∀ t ∈ ts.head?, t.isOp op = false) → ∀ u ∈ us.head?, u.isOp op = false :=
  expandsOther (fun kind text => isOpAlike kind text op) (fun kind => isOpOther kind op) expands

theorem expandsSign {ts us : List Token} {n : Nat} (expands : Expands ts us n) :
    (∀ t ∈ ts.head?, signOp? t = none) → ∀ u ∈ us.head?, signOp? u = none :=
  expandsOther signAlike signOther expands

theorem expandsChain {ts us : List Token} {n : Nat} {level : Level} (expands : Expands ts us n) :
    (∀ t ∈ ts.head?, chainNode? level t = none) → ∀ u ∈ us.head?, chainNode? level u = none :=
  expandsOther (fun kind text => chainAlike kind text level)
    (fun kind => chainOther kind level) expands

theorem expandsOp {t : Token} {ts us : List Token} {n : Nat} (kind : t.kind = .op)
    (expands : Expands (t :: ts) us n) :
    ∃ u more, us = u :: more ∧ u.kind = t.kind ∧ u.text = t.text ∧ Expands ts more n := by
  cases expands with
  | stop ends => simp [kind] at ends
  | op _ kind' text more => exact ⟨_, _, rfl, kind'.trans kind.symm, text, more⟩
  | value value => exact absurd kind (valueKind value).1
  | power value => exact absurd kind (valueKind value).1

theorem expandsMark {op : String} {t : Token} {ts us : List Token} {n : Nat} (found : t.isOp op = true)
    (expands : Expands (t :: ts) us n) :
    ∃ u more, us = u :: more ∧ u.isOp op = true ∧ Expands ts more n := by
  obtain ⟨u, more, rfl, kind, text, rest⟩ := expandsOp (isOpFacts.mp found).1 expands
  exact ⟨u, more, rfl, by rw [isOpAlike kind text, found], rest⟩

theorem expandsEnd {t : Token} {ts us : List Token} {n : Nat} (ends : t.kind = .stop)
    (expands : Expands (t :: ts) us n) : ∃ u, us = [u] ∧ u.kind = .stop ∧ n = 0 := by
  cases expands with
  | stop _ ends' => exact ⟨_, rfl, ends', rfl⟩
  | op kind => simp [ends] at kind
  | value value => exact absurd ends (valueKind value).2
  | power value => exact absurd ends (valueKind value).2

inductive PartGrows : Part → Part → Nat → Prop where
  | level (level : Level) : PartGrows (.level level) (.level level) 0
  | operands {level before grown n} (grows : Grows before grown n) :
      PartGrows (.operands level before) (.operands level grown) n
  | items {before grown n} (grows : Grows (.list before) (.list grown) n) :
      PartGrows (.items before) (.items grown) n

/-- A reading of a grown list beside one that gives a tree and leaves some tokens: the new values are
either in the tree or among the tokens left. -/
def Answers (p : Part) (us : List Token) (m n : Nat) (e : Expr) (rest : List Token) : Prop :=
  ∃ grown left k l, n = k + l ∧ Reads p us grown left ∧ Grows e grown (k + m) ∧ Expands rest left l

def Simulates (p : Part) (ts : List Token) (e : Expr) (rest : List Token) : Prop :=
  ∀ q m us n, PartGrows p q m → Expands ts us n → Answers q us m n e rest

/-- A single value may become a power, so a reading of a primary is kept only when it is not one. -/
def Follows (p : Part) (ts : List Token) (e : Expr) (rest : List Token) : Prop :=
  Simulates p ts e rest ∨
    p = .level .primary ∧ ∃ t v, t.value? = some v ∧ ts = t :: rest ∧ e = .literal v

theorem Follows.simulates {p : Part} {ts rest : List Token} {e : Expr} (follows : Follows p ts e rest)
    (other : p ≠ .level .primary) : Simulates p ts e rest := by
  rcases follows with simulates | ⟨same, _⟩
  · exact simulates
  · exact absurd same other

theorem followsLevel {level : Level} {ts rest : List Token} {e : Expr}
    (answers : ∀ {us n}, Expands ts us n → Answers (.level level) us 0 n e rest) :
    Follows (.level level) ts e rest := by
  refine .inl fun q m us n same expands => ?_
  cases same
  exact answers expands

theorem Follows.answers {level : Level} {ts us rest : List Token} {e : Expr} {n : Nat}
    (follows : Follows (.level level) ts e rest) (other : Part.level level ≠ .level .primary)
    (expands : Expands ts us n) : Answers (.level level) us 0 n e rest :=
  follows.simulates other _ _ _ _ (.level level) expands

theorem tighterOther {level tighter : Level} (below : level.tighter? = some tighter) :
    Part.level tighter ≠ .level .primary := by
  cases level <;> cases below <;> simp

theorem powerSimulates {t : Token} {v : Value} {ts rest : List Token} {e : Expr}
    (value : t.value? = some v)
    (last : ∀ {u w us n}, u.value? = some w → Expands ts us n →
      Answers (.level .power) (u :: us) 0 n e rest) :
    Simulates (.level .power) (t :: ts) e rest := by
  intro q m us n same expands
  cases same
  -- the induction goes down to the last value of the power that the first one has become
  generalize shape : t :: ts = all at expands
  induction expands with
  | stop ends =>
    cases shape
    exact absurd ends (valueKind value).2
  | op kind =>
    cases shape
    exact absurd kind (valueKind value).1
  | value _ value' more =>
    cases shape
    exact last value' more
  | power _ value' stars more ih =>
    cases shape
    obtain ⟨grown, left, k, l, sum, reads, grows, after⟩ := ih rfl
    have plain := expandsSign more (by simpa using signOther (valueKind value).1)
    refine ⟨_, left, k + 1, l, by omega, .power stars (.leaf value') (.unsigned plain reads), ?_, after⟩
    simpa [Nat.add_assoc] using growsPower _ grows

theorem powerFollows {ts more rest : List Token} {base e : Expr} {t : Token}
    (stars : t.isOp "**" = true) (left : Follows (.level .primary) ts base (t :: more))
    (right : Simulates (.level .sign) more e rest) :
    Simulates (.level .power) ts (.binary .pow base e) rest := by
  rcases left with left | ⟨_, u, v, value, rfl, rfl⟩
  · intro q m us n same expands
    cases same
    obtain ⟨base', us', k, l, sum, reads, grows, after⟩ := left _ _ _ _ (.level _) expands
    obtain ⟨u, us'', rfl, stars', after⟩ := expandsMark stars after
    obtain ⟨e', us', k', l', sum', reads', grows', after⟩ := right _ _ _ _ (.level _) after
    refine ⟨_, us', k + k', l', by omega, .power stars' reads reads', ?_, after⟩
    simpa [Nat.add_assoc] using growsPair (.binary .pow) (fun _ _ => rfl) (fun _ _ => rfl) grows grows'
  · refine powerSimulates value fun {u w us n} value' expands => ?_
    obtain ⟨star, us', rfl, stars', after⟩ := expandsMark stars expands
    obtain ⟨e', us', k, l, sum, reads, grows, after⟩ := right _ _ _ _ (.level _) after
    refine ⟨_, us', k, l, sum, .power stars' (.leaf value') reads, ?_, after⟩
    simpa using growsPair (.binary .pow) (fun _ _ => rfl) (fun _ _ => rfl) (growsLiteral v w) grows

theorem baseFollows {ts rest : List Token} {base : Expr}
    (plain : ∀ t ∈ rest.head?, t.isOp "**" = false) (follows : Follows (.level .primary) ts base rest) :
    Simulates (.level .power) ts base rest := by
  rcases follows with simulates | ⟨_, u, v, value, rfl, rfl⟩
  · intro q m us n same expands
    cases same
    obtain ⟨base', us', k, l, sum, reads, grows, after⟩ := simulates _ _ _ _ (.level _) expands
    exact ⟨base', us', k, l, sum, .base (expandsIsOp after plain) reads, grows, after⟩
  · refine powerSimulates value fun {u w us n} value' expands => ?_
    exact ⟨_, us, 0, n, by omega, .base (expandsIsOp expands plain) (.leaf value'), growsLiteral v w,
      expands⟩

theorem Reads.follows {p : Part} {ts rest : List Token} {e : Expr} (reads : Reads p ts e rest) :
    Follows p ts e rest := by
  -- only a leaf may become a power, and its case leaves that to the level of powers around it
  induction reads with
  | chain below _ _ head tail =>
    refine followsLevel fun {us n} expands => ?_
    obtain ⟨first, us', k, l, sum, reads, grows, after⟩ := head.answers (tighterOther below) expands
    obtain ⟨grown, us', k', l', sum', reads', grows', after⟩ :=
      tail.simulates (by simp) _ _ _ _ (.operands grows) after
    exact ⟨grown, us', k + k', l', by omega, .chain below reads reads', grows'.count (by omega), after⟩
  | last ends =>
    refine .inl fun q m us n same expands => ?_
    cases same with
    | operands grows =>
      exact ⟨_, us, 0, n, by omega, .last (expandsChain expands ends), grows.count (by omega), expands⟩
  | join below joins _ _ head tail =>
    refine .inl fun q m us n same expands => ?_
    cases same with
    | operands before =>
      obtain ⟨u, more, rfl, kind', text, after⟩ := expandsOp (chainKind joins) expands
      obtain ⟨second, us', k, l, sum, reads, grows, after⟩ := head.answers (tighterOther below) after
      obtain ⟨grown, us', k', l', sum', reads', grows', after⟩ :=
        tail.simulates (by simp) _ _ _ _ (.operands (growsNode joins before grows)) after
      exact ⟨grown, us', k + k', l', by omega,
        .join below ((chainAlike kind' text _).trans joins) reads reads', grows'.count (by omega), after⟩
  | negation word _ operand =>
    refine followsLevel fun {us n} expands => ?_
    obtain ⟨u, more, rfl, word', after⟩ := expandsMark word expands
    obtain ⟨grown, us', k, l, sum, reads, grows, after⟩ := operand.answers (by simp) after
    exact ⟨_, us', k, l, sum, .negation word' reads, growsUnary .not grows, after⟩
  | relation plain _ operand =>
    refine followsLevel fun {us n} expands => ?_
    obtain ⟨grown, us', k, l, sum, reads, grows, after⟩ := operand.answers (by simp) expands
    exact ⟨grown, us', k, l, sum, .relation (expandsIsOp expands plain) reads, grows, after⟩
  | @signed _ _ op _ _ sign _ operand =>
    refine followsLevel fun {us n} expands => ?_
    obtain ⟨u, more, rfl, kind', text, after⟩ := expandsOp (signKind sign) expands
    obtain ⟨grown, us', k, l, sum, reads, grows, after⟩ := operand.answers (by simp) after
    exact ⟨_, us', k, l, sum, .signed ((signAlike kind' text).trans sign) reads, growsUnary op grows,
      after⟩
  | unsigned plain _ operand =>
    refine followsLevel fun {us n} expands => ?_
    obtain ⟨grown, us', k, l, sum, reads, grows, after⟩ := operand.answers (by simp) expands
    exact ⟨grown, us', k, l, sum, .unsigned (expandsSign expands plain) reads, grows, after⟩
  | power stars _ _ left right => exact .inl (powerFollows stars left (right.simulates (by simp)))
  | base plain _ operand => exact .inl (baseFollows plain operand)
  | leaf value => exact .inr ⟨rfl, _, _, value, rfl, rfl⟩
  | group opens closes _ inside =>
    refine followsLevel fun {us n} expands => ?_
    obtain ⟨u, more, rfl, opens', after⟩ := expandsMark opens expands
    obtain ⟨grown, us', k, l, sum, reads, grows, after⟩ := inside.answers (by simp) after
    obtain ⟨u, us', rfl, closes', after⟩ := expandsMark closes after
    exact ⟨grown, us', k, l, sum, .group opens' closes' reads, grows, after⟩
  | noItems opens closes =>
    refine followsLevel fun {us n} expands => ?_
    obtain ⟨u, more, rfl, opens', after⟩ := expandsMark opens expands
    obtain ⟨u, us', rfl, closes', after⟩ := expandsMark closes after
    exact ⟨_, us', 0, n, by omega, .noItems opens' closes', growsRefl _, after⟩
  | list opens filled _ inside =>
    refine followsLevel fun {us n} expands => ?_
    obtain ⟨u, more, rfl, opens', after⟩ := expandsMark opens expands
    obtain ⟨grown, us', k, l, sum, reads, grows, rest⟩ :=
      inside.simulates (by simp) _ _ _ _ (.items (growsRefl _)) after
    exact ⟨grown, us', k, l, sum, .list opens' (expandsIsOp after filled) reads, grows, rest⟩
  | item comma _ _ head tail =>
    refine .inl fun q m us n same expands => ?_
    cases same with
    | items before =>
      obtain ⟨first, us', k, l, sum, reads, grows, after⟩ := head.answers (by simp) expands
      obtain ⟨u, us', rfl, comma', after⟩ := expandsMark comma after
      obtain ⟨grown, us', k', l', sum', reads', grows', after⟩ :=
        tail.simulates (by simp) _ _ _ _ (.items (growsCons before grows)) after
      exact ⟨grown, us', k + k', l', by omega, .item comma' reads reads', grows'.count (by omega), after⟩
  | lastItem closes _ head =>
    refine .inl fun q m us n same expands => ?_
    cases same with
    | items before =>
      obtain ⟨first, us', k, l, sum, reads, grows, after⟩ := head.answers (by simp) expands
      obtain ⟨u, us', rfl, closes', after⟩ := expandsMark closes after
      have reversed := growsReverse (growsCons before grows)
      exact ⟨_, us', k, l, sum, .lastItem closes' reads, reversed.count (by omega), after⟩

end DecisionRules.Expression
