import DecisionRules.Proofs.Expression.Filling

/-! The layered grammar of expressions, as derivations of token lists without any order of reading. The
parser returns a tree if and only if the tokens of the text derive it, and refuses every other text. -/
namespace DecisionRules.Expression

def Level.next? : Level → Option Level
  | .or => some .and
  | .and => some .not
  | .not => some .comparison
  | .comparison => some .sum
  | .sum => some .product
  | .product => some .sign
  | .sign => some .power
  | .power => some .primary
  | .primary => none

/-- The signs between the operands of a level, each with the node that it makes. -/
inductive Connects : Level → String → (Expr → Expr → Expr) → Prop where
  | or : Connects .or LogicalOp.or.symbol (.logical .or)
  | and : Connects .and LogicalOp.and.symbol (.logical .and)
  | comparison (op : CompareOp) : Connects .comparison op.symbol (.compare op)
  | sum {op : BinaryOp} (additive : op ∈ [.add, .sub]) : Connects .sum op.symbol (.binary op)
  | product {op : BinaryOp} (multiplicative : op ∈ [.mul, .div, .mod]) :
      Connects .product op.symbol (.binary op)

inductive Phrase where
  | level (level : Level)
  | items

/-- A chain grows at its right end, so that it leans to the left. The items between brackets derive the
list that they are in. -/
inductive Derives : Phrase → List Token → Expr → Prop where
  | pass {level tighter ts e} (next : level.next? = some tighter)
      (inner : Derives (.level tighter) ts e) : Derives (.level level) ts e
  | chain {level tighter t node ts us left right} (next : level.next? = some tighter)
      (op : t.kind = .op) (connects : Connects level t.text node) (before : Derives (.level level) ts left)
      (last : Derives (.level tighter) us right) :
      Derives (.level level) (ts ++ t :: us) (node left right)
  | negation {t ts e} (word : t.isOp "not" = true) (operand : Derives (.level .not) ts e) :
      Derives (.level .not) (t :: ts) (.unary .not e)
  | sign {t op ts e} (mark : t.isOp (UnaryOp.symbol op) = true)
      (operand : Derives (.level .sign) ts e) : Derives (.level .sign) (t :: ts) (.unary op e)
  | power {t ts us base exponent} (left : Derives (.level .primary) ts base)
      (stars : t.isOp BinaryOp.pow.symbol = true) (right : Derives (.level .sign) us exponent) :
      Derives (.level .power) (ts ++ t :: us) (.binary .pow base exponent)
  | literal {t v} (value : t.value? = some v) : Derives (.level .primary) [t] (.literal v)
  | group {t u ts e} (opens : t.isOp "(" = true) (inside : Derives (.level .or) ts e)
      (closes : u.isOp ")" = true) : Derives (.level .primary) (t :: (ts ++ [u])) e
  | noItems {t u} (opens : t.isOp "[" = true) (closes : u.isOp "]" = true) :
      Derives (.level .primary) [t, u] (.list [])
  | list {t u ts items} (opens : t.isOp "[" = true) (inside : Derives .items ts (.list items))
      (closes : u.isOp "]" = true) : Derives (.level .primary) (t :: (ts ++ [u])) (.list items)
  | item {ts e} (only : Derives (.level .or) ts e) : Derives .items ts (.list [e])
  | items {t ts us items e} (before : Derives .items ts (.list items)) (comma : t.isOp "," = true)
      (last : Derives (.level .or) us e) : Derives .items (ts ++ t :: us) (.list (items ++ [e]))

/-- The tokens of a whole text derive the tree: all but the last, which marks the end. -/
def Sentence (ts : List Token) (e : Expr) : Prop :=
  ∃ body last, ts = body ++ [last] ∧ last.kind = .stop ∧ Derives (.level .or) body e

/-! The parser's tables are those of the grammar. -/

theorem compareSymbol {text : String} {op : CompareOp} : compareOp? text = some op ↔ text = op.symbol := by
  constructor
  · intro found
    unfold compareOp? at found
    split at found <;> cases found <;> rfl
  · rintro rfl
    cases op <;> rfl

theorem chainConnects {level : Level} {t : Token} {node : Expr → Expr → Expr} :
    chainNode? level t = some node ↔ t.kind = .op ∧ Connects level t.text node := by
  constructor
  · intro joins
    refine ⟨chainKind joins, ?_⟩
    unfold chainNode? at joins
    rw [if_neg (by simp [chainKind joins])] at joins
    split at joins
    · cases joins
      rename_i text
      exact text ▸ .or
    · cases joins
      rename_i text
      exact text ▸ .and
    · obtain ⟨op, found, rfl⟩ := Option.map_eq_some_iff.mp joins
      exact compareSymbol.mp found ▸ .comparison op
    · cases joins
      rename_i text
      exact text ▸ @Connects.sum .add (by simp)
    · cases joins
      rename_i text
      exact text ▸ @Connects.sum .sub (by simp)
    · cases joins
      rename_i text
      exact text ▸ @Connects.product .mul (by simp)
    · cases joins
      rename_i text
      exact text ▸ @Connects.product .div (by simp)
    · cases joins
      rename_i text
      exact text ▸ @Connects.product .mod (by simp)
    · contradiction
  · rintro ⟨kind, joins⟩
    generalize text : t.text = s at joins
    unfold chainNode?
    rw [if_neg (by simp [kind]), text]
    cases joins with
    | or => rfl
    | and => rfl
    | comparison op => simp [compareSymbol.mpr rfl]
    | sum additive =>
      simp only [List.mem_cons, List.not_mem_nil, or_false] at additive
      rcases additive with rfl | rfl <;> rfl
    | product multiplicative =>
      simp only [List.mem_cons, List.not_mem_nil, or_false] at multiplicative
      rcases multiplicative with rfl | rfl | rfl <;> rfl

theorem signSymbol {t : Token} {op : UnaryOp} : signOp? t = some op ↔ t.isOp op.symbol = true := by
  constructor
  · intro sign
    unfold signOp? at sign
    split at sign
    · cases sign
      assumption
    split at sign
    · cases sign
      assumption
    split at sign
    · cases sign
      assumption
    · contradiction
  · intro mark
    have others (other : String) (differ : op.symbol ≠ other) : t.isOp other = false :=
      isOpUnique mark differ
    unfold signOp?
    cases op with
    | not => exact if_pos mark
    | neg =>
      rw [others "!" (by decide)]
      exact if_pos mark
    | pos =>
      rw [others "!" (by decide), others "-" (by decide)]
      exact if_pos mark

/-! What the parser reads is derived. -/

/-- Items that are read already, which are reversed, and the comma after them. -/
def Begun (before : List Expr) (front : List Token) : Prop :=
  before = [] ∧ front = [] ∨
  ∃ ts t, front = ts ++ [t] ∧ t.isOp "," = true ∧ Derives .items ts (.list before.reverse)

theorem Begun.add {before : List Expr} {front ts : List Token} {e : Expr} (begun : Begun before front)
    (last : Derives (.level .or) ts e) : Derives .items (front ++ ts) (.list (e :: before).reverse) := by
  rcases begun with ⟨rfl, rfl⟩ | ⟨us, t, rfl, comma, before⟩
  · exact .item last
  · simpa using Derives.items before comma last

def Part.Derived : Part → List Token → Expr → List Token → Prop
  | .level l, ts, e, rest => ∃ used, ts = used ++ rest ∧ Derives (.level l) used e
  | .operands l before, ts, e, rest => ∃ used, ts = used ++ rest ∧
    ∀ front, Derives (.level l) front before → Derives (.level l) (front ++ used) e
  | .items before, ts, e, rest => ∃ used u items, ts = used ++ u :: rest ∧ u.isOp "]" = true ∧
    e = .list items ∧ ∀ front, Begun before front → Derives .items (front ++ used) e

theorem tighterNext {level tighter : Level} (below : level.tighter? = some tighter) :
    level.next? = some tighter := by
  cases level <;> cases below <;> rfl

theorem Reads.derived {p : Part} {ts rest : List Token} {e : Expr} (reads : Reads p ts e rest) :
    p.Derived ts e rest := by
  induction reads with
  | chain below _ _ head tail =>
    obtain ⟨front, rfl, first⟩ := head
    obtain ⟨back, rfl, grows⟩ := tail
    exact ⟨front ++ back, by simp, grows front (.pass (tighterNext below) first)⟩
  | last => exact ⟨[], rfl, fun front before => by simpa using before⟩
  | @join _ _ _ t _ _ _ _ _ _ below joins _ _ head tail =>
    obtain ⟨second, rfl, operand⟩ := head
    obtain ⟨back, rfl, grows⟩ := tail
    refine ⟨t :: (second ++ back), by simp, fun front before => ?_⟩
    obtain ⟨op, connects⟩ := chainConnects.mp joins
    simpa using grows _ (.chain (tighterNext below) op connects before operand)
  | negation word _ operand =>
    obtain ⟨used, rfl, operand⟩ := operand
    exact ⟨_ :: used, rfl, .negation word operand⟩
  | relation _ _ operand =>
    obtain ⟨used, rfl, operand⟩ := operand
    exact ⟨used, rfl, .pass rfl operand⟩
  | signed sign _ operand =>
    obtain ⟨used, rfl, operand⟩ := operand
    exact ⟨_ :: used, rfl, .sign (signSymbol.mp sign) operand⟩
  | unsigned _ _ operand =>
    obtain ⟨used, rfl, operand⟩ := operand
    exact ⟨used, rfl, .pass rfl operand⟩
  | @power _ _ t _ _ _ stars _ _ left right =>
    obtain ⟨front, rfl, left⟩ := left
    obtain ⟨back, rfl, right⟩ := right
    exact ⟨front ++ t :: back, by simp, .power left stars right⟩
  | base _ _ operand =>
    obtain ⟨used, rfl, operand⟩ := operand
    exact ⟨used, rfl, .pass rfl operand⟩
  | leaf value => exact ⟨[_], rfl, .literal value⟩
  | @group t _ _ u _ opens closes _ inside =>
    obtain ⟨used, rfl, inside⟩ := inside
    exact ⟨t :: (used ++ [u]), by simp, .group opens inside closes⟩
  | noItems opens closes => exact ⟨[_, _], rfl, .noItems opens closes⟩
  | @list t _ _ _ opens _ _ inside =>
    obtain ⟨used, u, items, rfl, closes, rfl, derives⟩ := inside
    exact ⟨t :: (used ++ [u]), by simp, .list opens (derives [] (.inl ⟨rfl, rfl⟩)) closes⟩
  | @item _ _ _ u _ _ _ comma _ _ head tail =>
    obtain ⟨first, rfl, operand⟩ := head
    obtain ⟨back, w, items, rfl, closes, rfl, derives⟩ := tail
    refine ⟨first ++ u :: back, w, items, by simp, closes, rfl, fun front begun => ?_⟩
    simpa using derives ((front ++ first) ++ [u]) (.inr ⟨_, u, rfl, comma, begun.add operand⟩)
  | @lastItem _ _ _ u _ closes _ head =>
    obtain ⟨used, rfl, operand⟩ := head
    exact ⟨used, u, _, rfl, closes, rfl, fun front begun => begun.add operand⟩

/-! What is derived is read, as long as the token after it does not belong to it. -/

/-- The level with this sign between its operands. -/
def Level.ofSymbol? : String → Option Level
  | "||" => some .or
  | "&&" => some .and
  | "==" | "===" | "!=" | "!==" | "<" | "<=" | ">" | ">=" | "in" => some .comparison
  | "+" | "-" => some .sum
  | "*" | "/" | "%" => some .product
  | "**" => some .power
  | _ => none

theorem Connects.ofSymbol {level : Level} {symbol : String} {node : Expr → Expr → Expr}
    (connects : Connects level symbol node) : Level.ofSymbol? symbol = some level := by
  cases connects with
  | or => rfl
  | and => rfl
  | comparison op => cases op <;> rfl
  | sum additive =>
    simp only [List.mem_cons, List.not_mem_nil, or_false] at additive
    rcases additive with rfl | rfl <;> rfl
  | product multiplicative =>
    simp only [List.mem_cons, List.not_mem_nil, or_false] at multiplicative
    rcases multiplicative with rfl | rfl | rfl <;> rfl

theorem Connects.tighter {level : Level} {symbol : String} {node : Expr → Expr → Expr}
    (connects : Connects level symbol node) : level.tighter? = level.next? := by
  cases connects <;> rfl

def Token.level? (t : Token) : Option Level := if t.kind = .op then Level.ofSymbol? t.text else none

theorem chainLevel {level : Level} {t : Token} {node : Expr → Expr → Expr}
    (joins : chainNode? level t = some node) : t.level? = some level := by
  obtain ⟨op, connects⟩ := chainConnects.mp joins
  exact (if_pos op).trans connects.ofSymbol

theorem isOpLevel {t : Token} {symbol : String} (found : t.isOp symbol = true) :
    t.level? = Level.ofSymbol? symbol := by
  obtain ⟨kind, text⟩ := isOpFacts.mp found
  rw [Token.level?, if_pos kind, text]

/-- No phrase of the level goes on with these tokens. -/
def Ends (level : Level) (rest : List Token) : Prop :=
  ∀ t ∈ rest.head?, ∀ inner, t.level? = some inner → level.rank < inner.rank

namespace Ends
variable {level tighter : Level} {t : Token} {rest : List Token}

theorem within (ends : Ends level rest) (below : tighter.rank ≤ level.rank) : Ends tighter rest :=
  fun t first inner found => Nat.lt_of_le_of_lt below (ends t first inner found)

theorem before (looser : ∀ inner, t.level? = some inner → level.rank < inner.rank) :
    Ends level (t :: rest) := by
  intro u first
  cases first
  exact looser

theorem closing {symbol : String} (found : t.isOp symbol = true)
    (unknown : Level.ofSymbol? symbol = none) : Ends level (t :: rest) := by
  refine before fun inner known => ?_
  rw [isOpLevel found, unknown] at known
  contradiction

theorem looser {outer : Level} (found : t.level? = some outer) (less : level.rank < outer.rank) :
    Ends level (t :: rest) := by
  refine before fun inner known => ?_
  cases found.symm.trans known
  exact less

theorem chain (ends : Ends level rest) : ∀ t ∈ rest.head?, chainNode? level t = none := by
  intro t first
  refine Option.eq_none_iff_forall_ne_some.mpr fun node joins => ?_
  exact Nat.lt_irrefl _ (ends t first level (chainLevel joins))

theorem power (ends : Ends .power rest) : ∀ t ∈ rest.head?, t.isOp "**" = false := by
  intro t first
  refine Bool.eq_false_iff.mpr fun stars => ?_
  exact Nat.lt_irrefl _ (ends t first .power (isOpLevel stars))

/-- No sign between operands belongs to the level of signed operands. -/
theorem sign (ends : Ends .power rest) : Ends .sign rest := by
  intro t first inner found
  have above := ends t first inner found
  have other : inner ≠ .sign := by
    rintro rfl
    unfold Token.level? Level.ofSymbol? at found
    split at found
    · split at found <;> cases found
    · cases found
  cases inner <;> first | decide | contradiction

end Ends

structure Starts (p : Phrase) (t : Token) : Prop where
  bracket : t.isOp "]" = false
  word : ∀ l, p = .level l → l.rank ≤ Level.comparison.rank → t.isOp "not" = false
  sign : ∀ l, p = .level l → l.rank ≤ Level.power.rank → signOp? t = none

theorem nextRank {level tighter : Level} (next : level.next? = some tighter) :
    tighter.rank < level.rank := by
  cases level <;> cases next <;> decide

/-- A token that opens brackets starts any phrase. -/
theorem startsBracket {t : Token} {symbol : String} (found : t.isOp symbol = true)
    (bracket : symbol = "(" ∨ symbol = "[") (p : Phrase) : Starts p t := by
  have others (other : String) (differ : symbol ≠ other) : t.isOp other = false :=
    isOpUnique found differ
  refine ⟨others _ ?_, fun _ _ _ => others _ ?_, fun _ _ _ => ?_⟩
  · rcases bracket with rfl | rfl <;> decide
  · rcases bracket with rfl | rfl <;> decide
  · refine Option.eq_none_iff_forall_ne_some.mpr fun op sign => ?_
    have differ : symbol ≠ op.symbol := by
      rcases bracket with rfl | rfl <;> cases op <;> decide
    have mark := signSymbol.mp sign
    rw [others _ differ] at mark
    contradiction

theorem Derives.starts {p : Phrase} {ts : List Token} {e : Expr} (derives : Derives p ts e) :
    ∃ t more, ts = t :: more ∧ Starts p t := by
  induction derives with
  | pass next _ inner =>
    obtain ⟨t, more, rfl, first⟩ := inner
    have tighter := nextRank next
    refine ⟨t, more, rfl, first.bracket, fun l same low => ?_, fun l same low => ?_⟩
    · cases same
      exact first.word _ rfl (by omega)
    · cases same
      exact first.sign _ rfl (by omega)
  | chain _ _ _ _ _ before =>
    obtain ⟨t, more, rfl, first⟩ := before
    exact ⟨t, _, rfl, first⟩
  | @negation t ts _ word =>
    refine ⟨t, ts, rfl, isOpUnique word (by decide), fun l same low => ?_, fun l same low => ?_⟩
    · cases same
      contradiction
    · cases same
      contradiction
  | @sign t op ts _ mark =>
    refine ⟨t, ts, rfl, isOpUnique mark (by cases op <;> decide), fun l same low => ?_,
      fun l same low => ?_⟩
    · exact isOpUnique mark (by cases op <;> decide)
    · cases same
      contradiction
  | power _ _ _ left =>
    obtain ⟨t, more, rfl, first⟩ := left
    refine ⟨t, _, rfl, first.bracket, fun l same low => ?_, fun l same low => ?_⟩
    · exact first.word _ rfl (by decide)
    · exact first.sign _ rfl (by decide)
  | @literal t v value =>
    have other := (valueKind value).1
    exact ⟨t, [], rfl, isOpOther other _, fun _ _ _ => isOpOther other _, fun _ _ _ => signOther other⟩
  | group opens => exact ⟨_, _, rfl, startsBracket opens (.inl rfl) _⟩
  | noItems opens => exact ⟨_, _, rfl, startsBracket opens (.inr rfl) _⟩
  | list opens => exact ⟨_, _, rfl, startsBracket opens (.inr rfl) _⟩
  | item _ only =>
    obtain ⟨t, more, rfl, first⟩ := only
    exact ⟨t, more, rfl, first.bracket, nofun, nofun⟩
  | items _ _ _ before =>
    obtain ⟨t, more, rfl, first⟩ := before
    exact ⟨t, _, rfl, first.bracket, nofun, nofun⟩

/-- How a phrase that is read up to some tokens goes on there: a chain takes in further operands. -/
def Extends (level : Level) (e : Expr) (more : List Token) (whole : Expr) (rest : List Token) : Prop :=
  match level.tighter? with
  | some tighter => Ends tighter more ∧ Reads (.operands level e) more whole rest
  | none => Ends level more ∧ whole = e ∧ rest = more

theorem Ends.extends {level : Level} {more : List Token} (ends : Ends level more) (e : Expr) :
    Extends level e more e more := by
  unfold Extends
  split
  · rename_i below
    exact ⟨ends.within (Nat.le_of_lt (nextRank (tighterNext below))), .last ends.chain⟩
  · exact ⟨ends, rfl, rfl⟩

def Phrase.Reaches : Phrase → List Token → Expr → Prop
  | .level l, ts, e => ∀ more whole rest, Extends l e more whole rest →
    Reads (.level l) (ts ++ more) whole rest
  | .items, ts, e => ∀ items u more whole rest, e = .list items →
    (u.isOp "," = true ∧ Reads (.items items.reverse) more whole rest ∨
      u.isOp "]" = true ∧ whole = e ∧ rest = more) →
    Reads (.items []) (ts ++ u :: more) whole rest

theorem extendsChain {level tighter : Level} {e whole : Expr} {more rest : List Token}
    (below : level.tighter? = some tighter) :
    Extends level e more whole rest ↔ Ends tighter more ∧ Reads (.operands level e) more whole rest := by
  simp only [Extends, below]

theorem extendsClosing {symbol : String} {u : Token} (found : u.isOp symbol = true)
    (unknown : Level.ofSymbol? symbol = none) (level : Level) (e : Expr) (more : List Token) :
    Extends level e (u :: more) e (u :: more) :=
  (Ends.closing found unknown).extends e

theorem Derives.reaches {p : Phrase} {ts : List Token} {e : Expr} (derives : Derives p ts e) :
    p.Reaches ts e := by
  induction derives with
  | @pass level tighter ts e next inner reaches =>
    intro more whole rest goes
    obtain ⟨t, back, rfl, first⟩ := inner.starts
    cases below : level.tighter? with
    | some other =>
      cases next.symm.trans (tighterNext below)
      obtain ⟨ends, grows⟩ := (extendsChain below).mp goes
      exact .chain below (reaches more e more (ends.extends e)) grows
    | none =>
      simp only [Extends, below] at goes
      obtain ⟨ends, rfl, rfl⟩ := goes
      have inside := reaches _ _ _ ((ends.within (Nat.le_of_lt (nextRank next))).extends _)
      cases level <;> cases below <;> cases next
      · exact .relation (by simpa using first.word _ rfl (by decide)) inside
      · exact .unsigned (by simpa using first.sign _ rfl (by decide)) inside
      · exact .base ends.power inside
  | @chain level tighter t node ts us left right next op connects before last reaches second =>
    intro more whole rest goes
    have below := connects.tighter.trans next
    obtain ⟨ends, grows⟩ := (extendsChain below).mp goes
    have joins := chainConnects.mpr ⟨op, connects⟩
    have reads := reaches (t :: (us ++ more)) whole rest <| (extendsChain below).mpr
      ⟨Ends.looser (chainLevel joins) (nextRank next),
        .join below joins (second more right more (ends.extends right)) grows⟩
    simpa using reads
  | negation word operand reaches =>
    rintro _ _ more ⟨ends, rfl, rfl⟩
    exact .negation word (reaches _ _ _ (ends.extends _))
  | sign mark operand reaches =>
    rintro _ _ more ⟨ends, rfl, rfl⟩
    exact .signed (signSymbol.mpr mark) (reaches _ _ _ (ends.extends _))
  | @power t ts us base exponent left stars right reaches second =>
    rintro _ _ more ⟨ends, rfl, rfl⟩
    have below : Ends .primary (t :: (us ++ more)) := Ends.looser (isOpLevel stars) (by decide)
    have reads := Reads.power stars (reaches _ _ _ (below.extends base))
      (second _ _ _ (ends.sign.extends exponent))
    simpa using reads
  | literal value =>
    rintro _ _ more ⟨_, rfl, rfl⟩
    exact .leaf value
  | @group t u ts e opens inside closes reaches =>
    rintro _ _ more ⟨_, rfl, rfl⟩
    have reads := Reads.group opens closes (reaches _ _ _ (extendsClosing closes rfl .or _ more))
    simpa using reads
  | noItems opens closes =>
    rintro _ _ more ⟨_, rfl, rfl⟩
    exact .noItems opens closes
  | @list t u ts items opens inside closes reaches =>
    rintro _ _ more ⟨_, rfl, rfl⟩
    obtain ⟨first, back, rfl, starts⟩ := inside.starts
    have reads := Reads.list opens (by simpa using starts.bracket)
      (reaches items u more _ _ rfl (.inr ⟨closes, rfl, rfl⟩))
    simpa using reads
  | @item ts e only reaches =>
    rintro items u more whole rest same after
    cases same
    rcases after with ⟨comma, others⟩ | ⟨closes, rfl, rfl⟩
    · exact .item comma (reaches _ _ _ (extendsClosing comma rfl .or e more)) others
    · exact .lastItem closes (reaches _ _ _ (extendsClosing closes rfl .or e rest))
  | @items t ts us items e before comma last reaches second =>
    rintro _ u more whole rest same after
    cases same
    have others : Reads (.items items.reverse) (us ++ u :: more) whole rest := by
      rcases after with ⟨comma, others⟩ | ⟨closes, rfl, rfl⟩
      · refine .item comma (second _ _ _ (extendsClosing comma rfl .or e more)) ?_
        simpa using others
      · have same : (e :: items.reverse).reverse = items ++ [e] := by simp
        exact same ▸ .lastItem closes (second _ _ _ (extendsClosing closes rfl .or e rest))
    have reads := reaches items t _ whole rest rfl (.inl ⟨comma, others⟩)
    simpa using reads

/-- An expression of a tight level is one of every looser level. -/
theorem Derives.looser {tighter level : Level} {ts : List Token} {e : Expr}
    (derives : Derives (.level tighter) ts e) (below : tighter.rank ≤ level.rank) :
    Derives (.level level) ts e := by
  by_cases same : tighter = level
  · exact same ▸ derives
  · obtain ⟨next, found, rank⟩ : ∃ next, level.next? = some next ∧ level.rank = next.rank + 1 := by
      cases level
      case primary => cases tighter <;> contradiction
      all_goals exact ⟨_, rfl, rfl⟩
    have differ : tighter.rank ≠ level.rank := by
      cases tighter <;> cases level <;> first | contradiction | decide
    exact .pass found (derives.looser (by omega))
termination_by level.rank

theorem parsedSentence {source : String} {e : Expr} (parsed : parse source = .ok e) :
    ∃ ts, tokenize source = .ok ts ∧ Sentence ts e := by
  rw [← String.ofList_toList (s := source)] at parsed
  obtain ⟨short, ts, last, scanned, reads, stop, _⟩ := parseFacts parsed
  obtain ⟨body, rfl, derives⟩ := reads.derived
  refine ⟨body ++ [last], ?_, body, last, rfl, stop, derives⟩
  have room : ¬ source.toList.length > maxLength := by omega
  simpa only [tokenize, if_neg room] using scanned

theorem stopEnds {last : Token} (stop : last.kind = .stop) (level : Level) : Ends level [last] := by
  refine Ends.before fun inner known => ?_
  have unknown : last.level? = none := if_neg (by simp [stop])
  rw [unknown] at known
  contradiction

theorem sentenceParses {source : String} {ts : List Token} {e : Expr}
    (tokens : tokenize source = .ok ts) (sentence : Sentence ts e) : parse source = .ok e := by
  obtain ⟨body, last, rfl, stop, derives⟩ := sentence
  have reads := derives.reaches [last] e [last] ((stopEnds stop .or).extends e)
  obtain ⟨fewer, found⟩ := reads.parses
  unfold parse
  simp only [tokens, bind, Except.bind, found, stop]
  rfl

/-- Two literals with the sign of an operator between them. -/
theorem pairParses {source : String} {t sign u last : Token} {op : BinaryOp} {v w : Value}
    (tokens : tokenize source = .ok [t, sign, u, last]) (stop : last.kind = .stop) (left : t.value? = some v)
    (mark : sign.isOp op.symbol = true) (right : u.value? = some w) :
    parse source = .ok (.binary op (.literal v) (.literal w)) := by
  obtain ⟨kind, text⟩ := isOpFacts.mp mark
  have first (level : Level) : Derives (.level level) [t] (.literal v) := (Derives.literal left).looser (Nat.zero_le _)
  have second (level : Level) : Derives (.level level) [u] (.literal w) :=
    (Derives.literal right).looser (Nat.zero_le _)
  have derives : ∃ level, Derives (.level level) ([t] ++ sign :: [u]) (.binary op (.literal v) (.literal w)) := by
    cases op with
    | add | sub => exact ⟨.sum, .chain rfl kind (text ▸ .sum (by simp)) (first _) (second _)⟩
    | mul | div | mod => exact ⟨.product, .chain rfl kind (text ▸ .product (by simp)) (first _) (second _)⟩
    | pow => exact ⟨.power, .power (first _) mark (second _)⟩
  obtain ⟨level, derives⟩ := derives
  exact sentenceParses tokens ⟨[t, sign, u], last, rfl, stop, derives.looser level.rank_le⟩

end DecisionRules.Expression
