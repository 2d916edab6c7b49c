import DecisionRules.Expression.Parser
import DecisionRules.Proofs.Outcome

/-! Readings of token lists as a relation, one rule for each branch of the grammar. The parser finds a
reading whenever there is one, and nothing else. -/
namespace DecisionRules.Expression

def Token.value? (t : Token) : Option Value :=
  match t.kind with
  | .number => some (numberValue t.text)
  | .string => some (.text (unquote t.text.toList))
  | .name => keyword? t.text
  | .op | .stop => none

def Level.tighter? : Level → Option Level
  | .or => some .and
  | .and => some .not
  | .comparison => some .sum
  | .sum => some .product
  | .product => some .sign
  | .not | .sign | .power | .primary => none

/-- What is read at one place: an expression of a level, the rest of a chain after its first operands,
or the rest of a list after its first items, which are reversed. -/
inductive Part where
  | level (level : Level)
  | operands (level : Level) (before : Expr)
  | items (before : List Expr)

inductive Reads : Part → List Token → Expr → List Token → Prop where
  | chain {level tighter ts first more e rest} (below : level.tighter? = some tighter)
      (head : Reads (.level tighter) ts first more)
      (tail : Reads (.operands level first) more e rest) : Reads (.level level) ts e rest
  | last {level before ts} (ends : ∀ t ∈ ts.head?, chainNode? level t = none) :
      Reads (.operands level before) ts before ts
  | join {level tighter before t ts node second more e rest} (below : level.tighter? = some tighter)
      (joins : chainNode? level t = some node) (head : Reads (.level tighter) ts second more)
      (tail : Reads (.operands level (node before second)) more e rest) :
      Reads (.operands level before) (t :: ts) e rest
  | negation {t ts e rest} (word : t.isOp "not" = true) (operand : Reads (.level .not) ts e rest) :
      Reads (.level .not) (t :: ts) (.unary .not e) rest
  | relation {ts e rest} (plain : ∀ t ∈ ts.head?, t.isOp "not" = false)
      (operand : Reads (.level .comparison) ts e rest) : Reads (.level .not) ts e rest
  | signed {t ts op e rest} (sign : signOp? t = some op) (operand : Reads (.level .sign) ts e rest) :
      Reads (.level .sign) (t :: ts) (.unary op e) rest
  | unsigned {ts e rest} (plain : ∀ t ∈ ts.head?, signOp? t = none)
      (operand : Reads (.level .power) ts e rest) : Reads (.level .sign) ts e rest
  | power {ts base t more e rest} (stars : t.isOp "**" = true)
      (left : Reads (.level .primary) ts base (t :: more)) (right : Reads (.level .sign) more e rest) :
      Reads (.level .power) ts (.binary .pow base e) rest
  | base {ts base rest} (plain : ∀ t ∈ rest.head?, t.isOp "**" = false)
      (operand : Reads (.level .primary) ts base rest) : Reads (.level .power) ts base rest
  | leaf {t ts v} (value : t.value? = some v) : Reads (.level .primary) (t :: ts) (.literal v) ts
  | group {t ts e u rest} (opens : t.isOp "(" = true) (closes : u.isOp ")" = true)
      (inside : Reads (.level .or) ts e (u :: rest)) : Reads (.level .primary) (t :: ts) e rest
  | noItems {t u rest} (opens : t.isOp "[" = true) (closes : u.isOp "]" = true) :
      Reads (.level .primary) (t :: u :: rest) (.list []) rest
  | list {t ts e rest} (opens : t.isOp "[" = true) (filled : ∀ u ∈ ts.head?, u.isOp "]" = false)
      (inside : Reads (.items []) ts e rest) : Reads (.level .primary) (t :: ts) e rest
  | item {before ts first u more e rest} (comma : u.isOp "," = true)
      (head : Reads (.level .or) ts first (u :: more)) (tail : Reads (.items (first :: before)) more e rest) :
      Reads (.items before) ts e rest
  | lastItem {before ts last u rest} (closes : u.isOp "]" = true)
      (head : Reads (.level .or) ts last (u :: rest)) :
      Reads (.items before) ts (.list (last :: before).reverse) rest

theorem isOpFacts {t : Token} {text : String} : t.isOp text = true ↔ t.kind = .op ∧ t.text = text := by
  simp [Token.isOp]

theorem expectAccepts {op : String} {ts rest : List Token} {fewer : rest.length < ts.length} :
    expect op ts = .ok ⟨rest, fewer⟩ ↔ ∃ t, ts = t :: rest ∧ t.isOp op = true := by
  cases ts with
  | nil => simp [expect]
  | cons t more =>
    unfold expect
    by_cases same : t.isOp op = true
    · simp only [same, if_true, Except.ok.injEq, Subtype.mk.injEq, List.cons.injEq]
      constructor
      · rintro rfl
        exact ⟨t, ⟨rfl, rfl⟩, same⟩
      · rintro ⟨_, ⟨_, rfl⟩, _⟩
        rfl
    · simp only [same, Bool.false_eq_true, if_false, reduceCtorEq, List.cons.injEq, false_iff]
      rintro ⟨_, ⟨rfl, _⟩, found⟩
      exact same found

theorem expectRefuses {op : String} {ts : List Token} {fault : ExpressionFault}
    (refused : expect op ts = .error fault) : ∀ t ∈ ts.head?, t.isOp op = false := by
  cases ts with
  | nil => simp
  | cons t rest =>
    by_cases same : t.isOp op = true
    · simp [expect, same] at refused
    · simpa using same

theorem chainFacts {level tighter : Level} {lower : tighter.rank < level.rank} {ts rest : List Token}
    {e : Expr} {fewer : rest.length < ts.length}
    (ok : parseChain level tighter lower ts = .ok (e, ⟨rest, fewer⟩)) :
    ∃ first more shorter noMore, parseAt tighter ts = .ok (first, ⟨more, shorter⟩) ∧
      parseOperands level tighter first more = .ok (e, ⟨rest, noMore⟩) := by
  unfold parseChain at ok
  obtain ⟨⟨first, more, shorter⟩, head, ok⟩ := bindAccepts.mp ok
  obtain ⟨⟨joined, left, noMore⟩, tail, ok⟩ := bindAccepts.mp ok
  cases ok
  exact ⟨first, more, shorter, noMore, head, tail⟩

/-- What a successful parser of primaries has read at a token. -/
theorem primaryFacts {t : Token} {more rest : List Token} {e : Expr}
    {fewer : rest.length < (t :: more).length}
    (ok : parseAt .primary (t :: more) = .ok (e, ⟨rest, fewer⟩)) :
    (∃ v, t.value? = some v ∧ e = .literal v ∧ rest = more) ∨
    (t.isOp "(" = true ∧ ∃ u shorter, u.isOp ")" = true ∧
      parseAt .or more = .ok (e, ⟨u :: rest, shorter⟩)) ∨
    (t.isOp "[" = true ∧ ∃ u, u.isOp "]" = true ∧ more = u :: rest ∧ e = .list []) ∨
    (t.isOp "[" = true ∧ (∀ u ∈ more.head?, u.isOp "]" = false) ∧ ∃ items shorter, e = .list items ∧
      parseItems [] more = .ok (items, ⟨rest, shorter⟩)) := by
  unfold parseAt at ok
  dsimp only at ok
  split at ok
  · rename_i kind
    cases ok
    exact .inl ⟨_, by simp [Token.value?, kind], rfl, rfl⟩
  · rename_i kind
    cases ok
    exact .inl ⟨_, by simp [Token.value?, kind], rfl, rfl⟩
  · rename_i kind
    split at ok
    · rename_i v word
      cases ok
      exact .inl ⟨v, by simp [Token.value?, kind, word], rfl, rfl⟩
    · contradiction
  · contradiction
  · rename_i kind
    by_cases opens : (t.text == "(") = true
    · simp only [opens, if_true] at ok
      obtain ⟨⟨inside, left, shorter⟩, inner, ok⟩ := bindAccepts.mp ok
      obtain ⟨⟨last, shorter'⟩, closed, same⟩ := bindAccepts.mp ok
      cases same
      obtain ⟨u, rfl, closes⟩ := expectAccepts.mp closed
      exact .inr (.inl ⟨by simp [Token.isOp, kind, opens], u, shorter, closes, inner⟩)
    · simp only [opens, Bool.false_eq_true, if_false] at ok
      by_cases opens : (t.text == "[") = true
      · have bracket : t.isOp "[" = true := by simp [Token.isOp, kind, opens]
        simp only [opens, if_true] at ok
        split at ok
        · rename_i closed
          cases ok
          obtain ⟨u, rfl, closes⟩ := expectAccepts.mp closed
          exact .inr (.inr (.inl ⟨bracket, u, closes, rfl, rfl⟩))
        · rename_i refused
          obtain ⟨⟨items, left, shorter⟩, inner, same⟩ := bindAccepts.mp ok
          cases same
          exact .inr (.inr (.inr ⟨bracket, expectRefuses refused, items, shorter, rfl, inner⟩))
      · simp only [opens, Bool.false_eq_true, if_false] at ok
        contradiction

/-- What a successful parser of powers has read: a base by itself, or a base and an exponent. -/
theorem powerFacts {ts rest : List Token} {e : Expr} {fewer : rest.length < ts.length}
    (ok : parseAt .power ts = .ok (e, ⟨rest, fewer⟩)) :
    ((∀ t ∈ rest.head?, t.isOp "**" = false) ∧ parseAt .primary ts = .ok (e, ⟨rest, fewer⟩)) ∨
    ∃ base exponent t more longer shorter, e = .binary .pow base exponent ∧ t.isOp "**" = true ∧
      parseAt .primary ts = .ok (base, ⟨t :: more, longer⟩) ∧
      parseAt .sign more = .ok (exponent, ⟨rest, shorter⟩) := by
  unfold parseAt at ok
  obtain ⟨⟨base, more, shorter⟩, left, ok⟩ := bindAccepts.mp ok
  match more, shorter with
  | [], shorter =>
    cases ok
    exact .inl ⟨by simp, left⟩
  | t :: more, shorter =>
    by_cases stars : t.isOp "**" = true
    · simp only [stars, if_true] at ok
      obtain ⟨⟨exponent, last, shorter'⟩, right, same⟩ := bindAccepts.mp ok
      cases same
      exact .inr ⟨base, exponent, t, more, shorter, shorter', rfl, stars, left, right⟩
    · simp only [stars, Bool.false_eq_true, if_false] at ok
      cases ok
      exact .inl ⟨by simpa using stars, left⟩

/-! What the parser finds is a reading: one induction over its four functions, with their measure. -/
mutual
theorem parseAtReads : ∀ (level : Level) (ts : List Token) {e : Expr} {rest : List Token}
    {fewer : rest.length < ts.length}, parseAt level ts = .ok (e, ⟨rest, fewer⟩) →
    Reads (.level level) ts e rest
  | .or, ts, _, _, _, ok => by
    unfold parseAt at ok
    exact parseChainReads _ _ _ _ rfl ok
  | .and, ts, _, _, _, ok => by
    unfold parseAt at ok
    exact parseChainReads _ _ _ _ rfl ok
  | .comparison, ts, _, _, _, ok => by
    unfold parseAt at ok
    exact parseChainReads _ _ _ _ rfl ok
  | .sum, ts, _, _, _, ok => by
    unfold parseAt at ok
    exact parseChainReads _ _ _ _ rfl ok
  | .product, ts, _, _, _, ok => by
    unfold parseAt at ok
    exact parseChainReads _ _ _ _ rfl ok
  | .not, [], _, _, _, ok => by
    unfold parseAt at ok
    exact .relation (by simp) (parseAtReads _ _ ok)
  | .not, t :: more, _, _, _, ok => by
    unfold parseAt at ok
    by_cases word : t.isOp "not" = true
    · simp only [word, if_true] at ok
      obtain ⟨⟨operand, left, shorter⟩, inner, same⟩ := bindAccepts.mp ok
      cases same
      exact .negation word (parseAtReads _ _ inner)
    · simp only [word, Bool.false_eq_true, if_false] at ok
      exact .relation (by simpa using word) (parseAtReads _ _ ok)
  | .sign, [], _, _, _, ok => by
    unfold parseAt at ok
    exact .unsigned (by simp) (parseAtReads _ _ ok)
  | .sign, t :: more, _, _, _, ok => by
    unfold parseAt at ok
    cases sign : signOp? t with
    | some op =>
      simp only [sign] at ok
      obtain ⟨⟨operand, left, shorter⟩, inner, same⟩ := bindAccepts.mp ok
      cases same
      exact .signed sign (parseAtReads _ _ inner)
    | none =>
      simp only [sign] at ok
      exact .unsigned (by simpa using sign) (parseAtReads _ _ ok)
  | .power, ts, _, _, _, ok => by
    rcases powerFacts ok with ⟨plain, left⟩ | ⟨base, exponent, t, more, longer, shorter, rfl, stars, left, right⟩
    · exact .base plain (parseAtReads _ _ left)
    · have fewer : more.length + 1 < ts.length := longer
      exact .power stars (parseAtReads _ _ left) (parseAtReads _ _ right)
  | .primary, [], _, _, _, ok => by simp [parseAt] at ok
  | .primary, t :: more, _, _, _, ok => by
    rcases primaryFacts ok with ⟨v, value, rfl, rfl⟩ | ⟨opens, u, shorter, closes, inner⟩ |
      ⟨opens, u, closes, rfl, rfl⟩ | ⟨opens, filled, items, shorter, rfl, inner⟩
    · exact .leaf value
    · exact .group opens closes (parseAtReads _ _ inner)
    · exact .noItems opens closes
    · exact .list opens filled (parseItemsReads _ _ inner)
termination_by level ts => 20 * ts.length + 2 * level.rank
decreasing_by all_goals simp only [Level.rank, List.length_cons] at *; omega

theorem parseChainReads (level tighter : Level) (lower : tighter.rank < level.rank) (ts : List Token)
    {e : Expr} {rest : List Token} {fewer : rest.length < ts.length}
    (below : level.tighter? = some tighter)
    (ok : parseChain level tighter lower ts = .ok (e, ⟨rest, fewer⟩)) : Reads (.level level) ts e rest := by
  obtain ⟨first, more, shorter, noMore, head, tail⟩ := chainFacts ok
  exact .chain below (parseAtReads _ _ head) (parseOperandsReads _ _ below _ _ tail)
termination_by 20 * ts.length + 2 * level.rank - 1
decreasing_by all_goals omega

theorem parseOperandsReads (level tighter : Level) (below : level.tighter? = some tighter) :
    ∀ (before : Expr) (ts : List Token) {e : Expr} {rest : List Token} {noMore : rest.length ≤ ts.length},
    parseOperands level tighter before ts = .ok (e, ⟨rest, noMore⟩) →
    Reads (.operands level before) ts e rest
  | _, [], _, _, _, ok => by
    unfold parseOperands at ok
    cases ok
    exact .last (by simp)
  | _, t :: more, _, _, _, ok => by
    unfold parseOperands at ok
    cases joins : chainNode? level t with
    | none =>
      simp only [joins] at ok
      cases ok
      exact .last (by simpa using joins)
    | some node =>
      simp only [joins] at ok
      obtain ⟨⟨second, after, shorter⟩, head, ok⟩ := bindAccepts.mp ok
      obtain ⟨⟨joined, left, noMore⟩, tail, same⟩ := bindAccepts.mp ok
      cases same
      exact .join below joins (parseAtReads _ _ head) (parseOperandsReads _ _ below _ _ tail)
termination_by _ ts => 20 * ts.length
decreasing_by all_goals have := tighter.rank_le; simp only [List.length_cons] at *; omega

theorem parseItemsReads (before : List Expr) (ts : List Token) {items : List Expr} {rest : List Token}
    {fewer : rest.length < ts.length} (ok : parseItems before ts = .ok (items, ⟨rest, fewer⟩)) :
    Reads (.items before) ts (.list items) rest := by
  unfold parseItems at ok
  obtain ⟨⟨first, more, shorter⟩, head, ok⟩ := bindAccepts.mp ok
  dsimp only at ok
  split at ok
  · rename_i found
    obtain ⟨⟨others, left, shorter⟩, tail, same⟩ := bindAccepts.mp ok
    cases same
    obtain ⟨u, rfl, comma⟩ := expectAccepts.mp found
    exact .item comma (parseAtReads _ _ head) (parseItemsReads _ _ tail)
  · obtain ⟨⟨left, shorter⟩, closed, same⟩ := bindAccepts.mp ok
    cases same
    obtain ⟨u, rfl, closes⟩ := expectAccepts.mp closed
    exact .lastItem closes (parseAtReads _ _ head)
termination_by 20 * ts.length + 17
decreasing_by all_goals have := Level.or.rank_le; simp only [List.length_cons] at *; omega
end

def Part.Parses : Part → List Token → Expr → List Token → Prop
  | .level l, ts, e, rest => ∃ fewer, parseAt l ts = .ok (e, ⟨rest, fewer⟩)
  | .operands l before, ts, e, rest => ∀ tighter, l.tighter? = some tighter →
    ∃ noMore, parseOperands l tighter before ts = .ok (e, ⟨rest, noMore⟩)
  | .items before, ts, e, rest =>
    ∃ items fewer, e = .list items ∧ parseItems before ts = .ok (items, ⟨rest, fewer⟩)

theorem expectGives {op : String} {t : Token} (found : t.isOp op = true) (rest : List Token) :
    expect op (t :: rest) = .ok ⟨rest, Nat.lt_succ_self _⟩ :=
  expectAccepts.mpr ⟨t, rfl, found⟩

theorem expectFails {op : String} {ts : List Token} (other : ∀ t ∈ ts.head?, t.isOp op = false) :
    ∃ fault, expect op ts = .error fault := by
  cases ts with
  | nil => exact ⟨_, rfl⟩
  | cons t rest =>
    have differs : t.isOp op = false := other t rfl
    refine ⟨.expected op t.position t.shown, ?_⟩
    simp [expect, differs]

theorem isOpUnique {t : Token} {op other : String} (found : t.isOp op = true) (differ : op ≠ other) :
    t.isOp other = false := by
  obtain ⟨kind, text⟩ := isOpFacts.mp found
  simp [Token.isOp, kind, text, differ]

theorem parseChainGives {level tighter : Level} {lower : tighter.rank < level.rank}
    {ts more rest : List Token} {first e : Expr} (head : (Part.level tighter).Parses ts first more)
    (tail : (Part.operands level first).Parses more e rest) (below : level.tighter? = some tighter) :
    ∃ fewer, parseChain level tighter lower ts = .ok (e, ⟨rest, fewer⟩) := by
  obtain ⟨shorter, head⟩ := head
  obtain ⟨noMore, tail⟩ := tail tighter below
  exact ⟨_, by rw [parseChain, head]; simp only [bind, Except.bind, tail]; rfl⟩

theorem leafParses {t : Token} {v : Value} (value : t.value? = some v) (rest : List Token) :
    (Part.level .primary).Parses (t :: rest) (.literal v) rest := by
  unfold Token.value? at value
  refine ⟨Nat.lt_succ_self _, ?_⟩
  unfold parseAt
  cases kind : t.kind <;> simp only [kind] at value ⊢
  · cases value
    rfl
  · cases value
    rfl
  · contradiction
  · simp only [value]
  · contradiction

theorem Reads.parses {p : Part} {ts rest : List Token} {e : Expr} (reads : Reads p ts e rest) :
    p.Parses ts e rest := by
  induction reads with
  | @chain level _ _ _ _ _ _ below _ _ head tail =>
    unfold Part.Parses parseAt
    cases level <;> cases below <;> exact parseChainGives head tail rfl
  | @last _ _ ts ends =>
    intro _ _
    refine ⟨Nat.le_refl _, ?_⟩
    unfold parseOperands
    cases ts with
    | nil => rfl
    | cons t rest => simp only [show chainNode? _ t = none from ends t rfl]
  | join below joins _ _ head tail =>
    intro _ same
    cases below.symm.trans same
    obtain ⟨fewer, head⟩ := head
    obtain ⟨noMore, tail⟩ := tail _ below
    exact ⟨_, by rw [parseOperands]; simp only [joins, head, bind, Except.bind, tail]; rfl⟩
  | negation word _ operand =>
    obtain ⟨fewer, operand⟩ := operand
    exact ⟨_, by rw [parseAt]; simp only [word, if_true, operand, bind, Except.bind]; rfl⟩
  | @relation ts _ _ plain _ operand =>
    obtain ⟨fewer, operand⟩ := operand
    refine ⟨fewer, ?_⟩
    cases ts with
    | nil => rw [parseAt, operand]
    | cons t rest =>
      have other : t.isOp "not" = false := plain t rfl
      rw [parseAt]
      simp only [other, Bool.false_eq_true, if_false, operand]
  | signed sign _ operand =>
    obtain ⟨fewer, operand⟩ := operand
    exact ⟨_, by rw [parseAt]; simp only [sign, operand, bind, Except.bind]; rfl⟩
  | @unsigned ts _ _ plain _ operand =>
    obtain ⟨fewer, operand⟩ := operand
    refine ⟨fewer, ?_⟩
    cases ts with
    | nil => rw [parseAt, operand]
    | cons t rest =>
      have other : signOp? t = none := plain t rfl
      rw [parseAt]
      simp only [other, operand]
  | power stars _ _ left right =>
    obtain ⟨fewer, left⟩ := left
    obtain ⟨shorter, right⟩ := right
    exact ⟨_, by rw [parseAt]; simp only [left, bind, Except.bind, stars, if_true, right]; rfl⟩
  | @base _ _ rest plain _ operand =>
    obtain ⟨fewer, operand⟩ := operand
    refine ⟨fewer, ?_⟩
    rw [parseAt, operand]
    cases rest with
    | nil => rfl
    | cons t more =>
      have other : t.isOp "**" = false := plain t rfl
      simp only [bind, Except.bind, other, Bool.false_eq_true, if_false]
      rfl
  | leaf value => exact leafParses value _
  | group opens closes _ inside =>
    obtain ⟨fewer, inside⟩ := inside
    obtain ⟨kind, text⟩ := isOpFacts.mp opens
    refine ⟨Nat.lt_succ_of_lt (Nat.lt_trans (Nat.lt_succ_self _) fewer), ?_⟩
    rw [parseAt]
    simp only [kind, text, beq_self_eq_true, if_true, inside, bind, Except.bind, expectGives closes]
    rfl
  | noItems opens closes =>
    obtain ⟨kind, text⟩ := isOpFacts.mp opens
    refine ⟨Nat.lt_succ_of_lt (Nat.lt_succ_self _), ?_⟩
    rw [parseAt]
    simp only [kind, text, expectGives closes]
    rfl
  | list opens filled _ inside =>
    obtain ⟨items, fewer, rfl, inside⟩ := inside
    obtain ⟨kind, text⟩ := isOpFacts.mp opens
    obtain ⟨fault, refused⟩ := expectFails filled
    refine ⟨Nat.lt_succ_of_lt fewer, ?_⟩
    rw [parseAt]
    simp only [kind, text, refused, inside]
    rfl
  | item comma _ _ head tail =>
    obtain ⟨fewer, head⟩ := head
    obtain ⟨items, shorter, rfl, tail⟩ := tail
    refine ⟨items, Nat.lt_trans shorter (Nat.lt_trans (Nat.lt_succ_self _) fewer), rfl, ?_⟩
    rw [parseItems]
    simp only [head, bind, Except.bind, expectGives comma, tail]
    rfl
  | @lastItem _ _ _ u rest closes _ head =>
    obtain ⟨fewer, head⟩ := head
    have other : u.isOp "," = false := isOpUnique closes (by decide)
    obtain ⟨fault, refused⟩ : ∃ fault, expect "," (u :: rest) = .error fault :=
      expectFails (by simpa using other)
    refine ⟨_, Nat.lt_trans (Nat.lt_succ_self _) fewer, rfl, ?_⟩
    rw [parseItems]
    simp only [head, bind, Except.bind, refused, expectGives closes]
    rfl

def Token.Known (t : Token) : Prop := t.kind = .op ∨ ∃ v, t.value? = some v

theorem signKind {t : Token} {op : UnaryOp} (sign : signOp? t = some op) : t.kind = .op := by
  unfold signOp? at sign
  split at sign
  · rename_i found
    exact (isOpFacts.mp found).1
  · split at sign
    · rename_i found
      exact (isOpFacts.mp found).1
    · split at sign
      · rename_i found
        exact (isOpFacts.mp found).1
      · contradiction

theorem chainKind {level : Level} {t : Token} {node : Expr → Expr → Expr}
    (joins : chainNode? level t = some node) : t.kind = .op := by
  unfold chainNode? at joins
  split at joins
  · contradiction
  · rename_i kind
    simpa using kind

theorem isOpKnown {t : Token} {op : String} (found : t.isOp op = true) : t.Known :=
  .inl (isOpFacts.mp found).1

theorem Reads.uses {p : Part} {ts rest : List Token} {e : Expr} (reads : Reads p ts e rest) :
    ∃ used, ts = used ++ rest ∧ ∀ t ∈ used, t.Known := by
  induction reads with
  | chain _ _ _ head tail =>
    obtain ⟨front, rfl, known⟩ := head
    obtain ⟨back, rfl, others⟩ := tail
    exact ⟨front ++ back, by simp, by simpa [or_imp, forall_and] using ⟨known, others⟩⟩
  | last => exact ⟨[], rfl, by simp⟩
  | @join _ _ _ t _ _ _ _ _ _ _ joins _ _ head tail =>
    obtain ⟨front, rfl, known⟩ := head
    obtain ⟨back, rfl, others⟩ := tail
    exact ⟨t :: (front ++ back), by simp,
      by simpa [or_imp, forall_and] using ⟨Or.inl (chainKind joins), known, others⟩⟩
  | negation word _ operand =>
    obtain ⟨used, rfl, known⟩ := operand
    exact ⟨_ :: used, rfl, by simpa using ⟨isOpKnown word, known⟩⟩
  | relation _ _ operand => exact operand
  | signed sign _ operand =>
    obtain ⟨used, rfl, known⟩ := operand
    exact ⟨_ :: used, rfl, by simpa using ⟨Or.inl (signKind sign), known⟩⟩
  | unsigned _ _ operand => exact operand
  | @power _ _ t _ _ _ stars _ _ left right =>
    obtain ⟨front, rfl, known⟩ := left
    obtain ⟨back, rfl, others⟩ := right
    exact ⟨front ++ t :: back, by simp,
      by simpa [or_imp, forall_and] using ⟨known, isOpKnown stars, others⟩⟩
  | base _ _ operand => exact operand
  | leaf value => exact ⟨[_], rfl, by simpa using .inr ⟨_, value⟩⟩
  | @group t _ _ u _ opens closes _ inside =>
    obtain ⟨used, rfl, known⟩ := inside
    exact ⟨t :: (used ++ [u]), by simp,
      by simpa [or_imp, forall_and] using ⟨isOpKnown opens, known, isOpKnown closes⟩⟩
  | noItems opens closes => exact ⟨[_, _], rfl, by simpa using ⟨isOpKnown opens, isOpKnown closes⟩⟩
  | list opens _ _ inside =>
    obtain ⟨used, rfl, known⟩ := inside
    exact ⟨_ :: used, rfl, by simpa using ⟨isOpKnown opens, known⟩⟩
  | @item _ _ _ u _ _ _ comma _ _ head tail =>
    obtain ⟨front, rfl, known⟩ := head
    obtain ⟨back, rfl, others⟩ := tail
    exact ⟨front ++ u :: back, by simp,
      by simpa [or_imp, forall_and] using ⟨known, isOpKnown comma, others⟩⟩
  | @lastItem _ _ _ u _ closes _ head =>
    obtain ⟨front, rfl, known⟩ := head
    exact ⟨front ++ [u], by simp, by simpa [or_imp, forall_and] using ⟨known, isOpKnown closes⟩⟩

end DecisionRules.Expression
