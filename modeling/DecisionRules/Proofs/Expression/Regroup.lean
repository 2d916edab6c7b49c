import DecisionRules.Proofs.Expression.Evaluation
import DecisionRules.Proofs.Expression.Grammar

/-! Token lists in which negative numbers have split into a minus and a number. A minus binds looser than a
power, so the tree keeps its shape unless a negative number is the base of one; the minus then goes before the
whole power. -/
namespace DecisionRules.Expression

/-- The second list is the first one up to positions, with negative numbers split in two. If one of them stands
before the sign of a power, then so much is allowed. -/
inductive Splits (based : Prop) : List Token → List Token → Prop where
  | none : Splits based [] []
  | alike {t u ts us} (kind : u.kind = t.kind) (text : u.text = t.text) (rest : Splits based ts us) :
      Splits based (t :: ts) (u :: us)
  | split {t minus u n ts us} (value : t.value? = some (.int (-n))) (mark : minus.isOp "-" = true)
      (part : u.value? = some (.int n)) (base : ∀ next ∈ ts.head?, next.isOp "**" = true → based)
      (rest : Splits based ts us) : Splits based (t :: ts) (minus :: u :: us)

/-- The second tree is the first one with a sign before each split number, or before the power of it. -/
inductive Regroups (based : Prop) : Expr → Expr → Prop where
  | literal (v : Value) : Regroups based (.literal v) (.literal v)
  | noItems : Regroups based (.list []) (.list [])
  | item {e e' es es'} (head : Regroups based e e') (tail : Regroups based (.list es) (.list es')) :
      Regroups based (.list (e :: es)) (.list (e' :: es'))
  | unary {op e e'} (operand : Regroups based e e') : Regroups based (.unary op e) (.unary op e')
  | binary {op l r l' r'} (left : Regroups based l l') (right : Regroups based r r') :
      Regroups based (.binary op l r) (.binary op l' r')
  | logical {op l r l' r'} (left : Regroups based l l') (right : Regroups based r r') :
      Regroups based (.logical op l r) (.logical op l' r')
  | compare {op l r l' r'} (left : Regroups based l l') (right : Regroups based r r') :
      Regroups based (.compare op l r) (.compare op l' r')
  | negative (n : Int) : Regroups based (.literal (.int (-n))) (.unary .neg (.literal (.int n)))
  | power {n e e'} (base : based) (exponent : Regroups based e e') :
      Regroups based (.binary .pow (.literal (.int (-n))) e) (.unary .neg (.binary .pow (.literal (.int n)) e'))

variable {based : Prop}

theorem regroupsNode {level : Level} {symbol : String} {node : Expr → Expr → Expr}
    (connects : Connects level symbol node) {l r l' r' : Expr} (left : Regroups based l l')
    (right : Regroups based r r') : Regroups based (node l r) (node l' r') := by
  cases connects with
  | or | and => exact .logical left right
  | comparison op => exact .compare left right
  | sum | product => exact .binary left right

theorem regroupsLast {items others : List Expr} {e e' : Expr}
    (before : Regroups based (.list items) (.list others)) (last : Regroups based e e') :
    Regroups based (.list (items ++ [e])) (.list (others ++ [e'])) := by
  induction items generalizing others with
  | nil =>
    cases before
    exact .item last .noItems
  | cons first items ih =>
    cases before with
    | item head tail => exact .item head (ih tail)

/-- With no negative base a regrouped tree has the same value, or the same failure. -/
theorem Regroups.interpret {e grown : Expr} (regroups : Regroups based e grown) (free : ¬ based) :
    interpret grown = interpret e := by
  induction regroups with
  | literal | noItems => rfl
  | item _ _ head tail =>
    have items {xs ys : Outcome (List Value)} (same : (do return Value.list (← xs)) = (do return Value.list (← ys))) :
        xs = ys := by
      cases xs <;> cases ys <;> simp_all [bind, Except.bind, pure, Except.pure]
    simp only [Expression.interpret] at tail ⊢
    simp only [interpretAll, head, items tail]
  | unary _ operand => simp only [Expression.interpret, operand]
  | binary _ _ left right | logical _ _ left right | compare _ _ left right =>
    simp only [Expression.interpret, left, right]
  | negative n => rfl
  | power base => exact absurd base free

/-! Derivations -/

theorem splitsAppend {ts ts' us : List Token} (splits : Splits based (ts ++ ts') us) :
    ∃ vs vs', us = vs ++ vs' ∧ Splits based ts vs ∧ Splits based ts' vs' := by
  induction ts generalizing us with
  | nil => exact ⟨[], us, rfl, .none, splits⟩
  | cons t ts ih =>
    cases splits with
    | alike kind text rest =>
      obtain ⟨vs, vs', rfl, first, second⟩ := ih rest
      exact ⟨_ :: vs, vs', rfl, .alike kind text first, second⟩
    | split value mark part base rest =>
      obtain ⟨vs, vs', rfl, first, second⟩ := ih rest
      refine ⟨_ :: _ :: vs, vs', rfl, .split value mark part (fun next head stars => base next ?_ stars) first, second⟩
      cases ts with
      | nil => contradiction
      | cons => exact head

theorem splitsOp {t : Token} {ts us : List Token} (op : t.kind = .op) (splits : Splits based (t :: ts) us) :
    ∃ u vs, us = u :: vs ∧ u.kind = .op ∧ u.text = t.text ∧ Splits based ts vs := by
  cases splits with
  | alike kind text rest => exact ⟨_, _, rfl, kind.trans op, text, rest⟩
  | split value => exact absurd op (valueKind value).1

theorem splitsMark {t : Token} {mark : String} {ts us : List Token} (found : t.isOp mark = true)
    (splits : Splits based (t :: ts) us) : ∃ u vs, us = u :: vs ∧ u.isOp mark = true ∧ Splits based ts vs := by
  obtain ⟨u, vs, rfl, kind, text, rest⟩ := splitsOp (isOpFacts.mp found).1 splits
  exact ⟨u, vs, rfl, isOpFacts.mpr ⟨kind, text.trans (isOpFacts.mp found).2⟩, rest⟩

theorem splitsNone {us : List Token} (splits : Splits based [] us) : us = [] := by
  cases splits
  rfl

/-- The tokens derive a tree that is regrouped from the given one. -/
def Grown (based : Prop) (p : Phrase) (us : List Token) (e : Expr) : Prop :=
  ∃ grown, Derives p us grown ∧ Regroups based e grown

/-- A split number is no primary, and what it begins is no power: there a minus stays outside, until the level
of signs takes it in. -/
def Regrouped (based : Prop) : Phrase → List Token → Expr → Prop
  | .level .primary, us, e => Grown based (.level .primary) us e ∨
      ∃ minus u n, us = [minus, u] ∧ minus.isOp "-" = true ∧ u.value? = some (.int n) ∧ e = .literal (.int (-n))
  | .level .power, us, e => Grown based (.level .power) us e ∨
      ∃ minus vs g, us = minus :: vs ∧ minus.isOp "-" = true ∧ Derives (.level .power) vs g ∧
        Regroups based e (.unary .neg g)
  | p, us, e => Grown based p us e

theorem regroupedLoose {level : Level} {us : List Token} {e : Expr} (loose : Level.sign.rank ≤ level.rank) :
    Regrouped based (.level level) us e ↔ Grown based (.level level) us e := by
  cases level <;> first | exact Iff.rfl | exact absurd loose (by decide)

theorem Grown.pass {level tighter : Level} {us : List Token} {e : Expr} (grown : Grown based (.level tighter) us e)
    (next : level.next? = some tighter) : Grown based (.level level) us e := by
  obtain ⟨g, derives, regroups⟩ := grown
  exact ⟨g, .pass next derives, regroups⟩

theorem regroupedPass {level tighter : Level} {us : List Token} {e : Expr} (next : level.next? = some tighter)
    (inner : Regrouped based (.level tighter) us e) : Regrouped based (.level level) us e := by
  cases level <;> cases next
  case power =>
    rcases inner with grown | ⟨minus, u, n, rfl, mark, part, rfl⟩
    · exact .inl (grown.pass rfl)
    · exact .inr ⟨minus, [u], _, rfl, mark, .pass rfl (.literal part), .negative n⟩
  case sign =>
    rcases inner with grown | ⟨minus, vs, g, rfl, mark, derives, regroups⟩
    · exact grown.pass rfl
    · have mark : minus.isOp UnaryOp.neg.symbol = true := mark
      exact ⟨_, .sign mark (.pass rfl derives), regroups⟩
  all_goals exact Grown.pass inner rfl

theorem regroupedPower {t : Token} {ts us vs : List Token} {base exponent : Expr}
    (left : Derives (.level .primary) ts base) (stars : t.isOp "**" = true)
    (inner : ∀ {us}, Splits based ts us → Regrouped based (.level .primary) us base)
    (right : ∀ {vs}, Splits based us vs → Grown based (.level .sign) vs exponent)
    (splits : Splits based (ts ++ t :: us) vs) : Regrouped based (.level .power) vs (.binary .pow base exponent) := by
  have bracket {u : Token} {mark : String} {rest ws : List Token} (opens : u.isOp mark = true) (other : mark ≠ "-")
      (first : Splits based (u :: rest) ws) (found : Regrouped based (.level .primary) ws base) :
      Grown based (.level .primary) ws base := by
    rcases found with grown | ⟨minus, _, _, rfl, sign, _⟩
    · exact grown
    · obtain ⟨w, _, same, opens', _⟩ := splitsMark opens first
      cases same
      rw [isOpUnique opens' other] at sign
      contradiction
  have whole {ws ws' : List Token} (first : Grown based (.level .primary) ws base)
      (second : Splits based (t :: us) ws') : Grown based (.level .power) (ws ++ ws') (.binary .pow base exponent) := by
    obtain ⟨u, rest, rfl, stars', after⟩ := splitsMark stars second
    obtain ⟨g, derives, regroups⟩ := first
    obtain ⟨g', derives', regroups'⟩ := right after
    exact ⟨_, .power derives stars' derives', .binary regroups regroups'⟩
  cases left with
  | pass next => cases next
  | chain next => cases next
  | @literal s v value =>
    -- a single number before the sign of power is the one base that a minus can leave
    cases splits with
    | alike kind text rest =>
      exact .inl (whole ⟨_, .literal ((valueAlike kind text).trans value), .literal v⟩ rest)
    | @split _ minus u n _ _ value' mark part found rest =>
      obtain rfl : v = .int (-n) := Option.some.inj (value.symm.trans value')
      obtain ⟨star, ws, rfl, stars', after⟩ := splitsMark stars rest
      obtain ⟨g, derives, regroups⟩ := right after
      have base : Derives (.level .primary) [u] (.literal (.int n)) := .literal part
      exact .inr ⟨minus, _, _, rfl, mark, .power base stars' derives, .power (found t rfl stars) regroups⟩
  | group opens =>
    obtain ⟨ws, ws', rfl, first, second⟩ := splitsAppend splits
    exact .inl (whole (bracket opens (by decide) first (inner first)) second)
  | noItems opens =>
    obtain ⟨ws, ws', rfl, first, second⟩ := splitsAppend splits
    exact .inl (whole (bracket opens (by decide) first (inner first)) second)
  | list opens =>
    obtain ⟨ws, ws', rfl, first, second⟩ := splitsAppend splits
    exact .inl (whole (bracket opens (by decide) first (inner first)) second)

theorem Connects.loose {level tighter : Level} {symbol : String} {node : Expr → Expr → Expr}
    (connects : Connects level symbol node) (next : level.next? = some tighter) :
    Level.sign.rank ≤ tighter.rank := by
  cases connects <;> cases next <;> decide

theorem Derives.regrouped {p : Phrase} {ts us : List Token} {e : Expr} (derives : Derives p ts e)
    (splits : Splits based ts us) : Regrouped based p us e := by
  induction derives generalizing us with
  | pass next _ inner => exact regroupedPass next (inner splits)
  | @chain level tighter t node ts us left right next op connects _ _ before last =>
    obtain ⟨vs, ws, rfl, first, second⟩ := splitsAppend splits
    obtain ⟨u, ws, rfl, op', text, after⟩ := splitsOp op second
    have loose := connects.loose next
    have looser := Nat.le_trans loose (Nat.le_of_lt (nextRank next))
    obtain ⟨g, derives, regroups⟩ := (regroupedLoose looser).mp (before first)
    obtain ⟨g', derives', regroups'⟩ := (regroupedLoose loose).mp (last after)
    refine (regroupedLoose looser).mpr ⟨_, .chain next op' (text ▸ connects) derives derives', ?_⟩
    exact regroupsNode connects regroups regroups'
  | negation word _ operand =>
    obtain ⟨u, vs, rfl, word', rest⟩ := splitsMark word splits
    obtain ⟨g, derives, regroups⟩ := operand rest
    exact ⟨_, .negation word' derives, .unary regroups⟩
  | sign mark _ operand =>
    obtain ⟨u, vs, rfl, mark', rest⟩ := splitsMark mark splits
    obtain ⟨g, derives, regroups⟩ := operand rest
    exact ⟨_, .sign mark' derives, .unary regroups⟩
  | power left stars _ inner right => exact regroupedPower left stars inner right splits
  | @literal t v value =>
    cases splits with
    | alike kind text rest =>
      cases splitsNone rest
      exact .inl ⟨_, .literal ((valueAlike kind text).trans value), .literal v⟩
    | @split _ minus u n _ _ value' mark part _ rest =>
      cases splitsNone rest
      exact .inr ⟨minus, u, n, rfl, mark, part, congrArg _ (Option.some.inj (value.symm.trans value'))⟩
  | group opens _ closes inside =>
    obtain ⟨u, vs, rfl, opens', rest⟩ := splitsMark opens splits
    obtain ⟨vs, ws, rfl, first, second⟩ := splitsAppend rest
    obtain ⟨w, xs, rfl, closes', last⟩ := splitsMark closes second
    cases splitsNone last
    obtain ⟨g, derives, regroups⟩ := inside first
    exact .inl ⟨g, .group opens' derives closes', regroups⟩
  | noItems opens closes =>
    obtain ⟨u, vs, rfl, opens', rest⟩ := splitsMark opens splits
    obtain ⟨w, xs, rfl, closes', last⟩ := splitsMark closes rest
    cases splitsNone last
    exact .inl ⟨_, .noItems opens' closes', .noItems⟩
  | @list t u ts items opens _ closes inside =>
    obtain ⟨u, vs, rfl, opens', rest⟩ := splitsMark opens splits
    obtain ⟨vs, ws, rfl, first, second⟩ := splitsAppend rest
    obtain ⟨w, xs, rfl, closes', last⟩ := splitsMark closes second
    cases splitsNone last
    obtain ⟨g, derives, regroups⟩ := inside first
    obtain ⟨others, rfl⟩ : ∃ others, g = .list others := by
      cases regroups <;> exact ⟨_, rfl⟩
    exact .inl ⟨_, .list opens' derives closes', regroups⟩
  | item _ only =>
    obtain ⟨g, derives, regroups⟩ := only splits
    exact ⟨_, .item derives, .item regroups .noItems⟩
  | items _ comma _ before last =>
    obtain ⟨vs, ws, rfl, first, second⟩ := splitsAppend splits
    obtain ⟨u, ws, rfl, comma', after⟩ := splitsMark comma second
    obtain ⟨g, derives, regroups⟩ := before first
    obtain ⟨g', derives', regroups'⟩ := last after
    obtain ⟨others, rfl⟩ : ∃ others, g = .list others := by
      cases regroups <;> exact ⟨_, rfl⟩
    exact ⟨_, .items derives comma' derives', regroupsLast regroups regroups'⟩

end DecisionRules.Expression
