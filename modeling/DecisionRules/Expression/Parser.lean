import DecisionRules.Expression.Basic
import DecisionRules.Expression.Literal

/-!
The layered grammar of expressions. Loosest first: disjunction, conjunction, the word for negation,
comparison and membership, sums, products, signs and the negation mark, powers, and primaries. Chains
of one layer lean to the left; a power takes a signed operand on its right. Every parser returns the
tokens it left, with a proof that they are fewer.
-/
namespace DecisionRules.Expression

inductive Level where
  | or
  | and
  | not
  | comparison
  | sum
  | product
  | sign
  | power
  | primary
  deriving DecidableEq, Repr

def Level.rank : Level → Nat
  | or => 8
  | and => 7
  | not => 6
  | comparison => 5
  | sum => 4
  | product => 3
  | sign => 2
  | power => 1
  | primary => 0

theorem Level.rank_le (level : Level) : level.rank ≤ 8 := by cases level <;> decide

def Token.isOp (t : Token) (text : String) : Bool := t.kind == .op && t.text == text

def compareOp? : String → Option CompareOp
  | "==" => some .eq
  | "===" => some .strictEq
  | "!=" => some .ne
  | "!==" => some .strictNe
  | "<" => some .lt
  | "<=" => some .le
  | ">" => some .gt
  | ">=" => some .ge
  | "in" => some .member
  | _ => none

def chainNode? (level : Level) (t : Token) : Option (Expr → Expr → Expr) :=
  if t.kind != .op then none
  else match level, t.text with
    | .or, "||" => some (.logical .or)
    | .and, "&&" => some (.logical .and)
    | .comparison, op => (compareOp? op).map fun c => .compare c
    | .sum, "+" => some (.binary .add)
    | .sum, "-" => some (.binary .sub)
    | .product, "*" => some (.binary .mul)
    | .product, "/" => some (.binary .div)
    | .product, "%" => some (.binary .mod)
    | _, _ => none

def signOp? (t : Token) : Option UnaryOp :=
  if t.isOp "!" then some .not
  else if t.isOp "-" then some .neg
  else if t.isOp "+" then some .pos
  else none

def Token.shown (t : Token) : String := if t.text.isEmpty then "end of input" else t.text

abbrev Fewer (ts : List Token) := { rest : List Token // rest.length < ts.length }
abbrev NoMore (ts : List Token) := { rest : List Token // rest.length ≤ ts.length }

abbrev Parsed (ts : List Token) := Except ExpressionFault (Expr × Fewer ts)

def expect (op : String) (ts : List Token) : Except ExpressionFault (Fewer ts) :=
  match ts with
  | [] => .error (.expected op 0 "end of input")
  | t :: rest =>
    if t.isOp op then .ok ⟨rest, Nat.lt_succ_self _⟩
    else .error (.expected op t.position t.shown)

mutual
def parseAt (level : Level) (ts : List Token) : Parsed ts :=
  match level with
  | .or => parseChain .or .and (by decide) ts
  | .and => parseChain .and .not (by decide) ts
  | .not =>
    match ts with
    | [] => parseAt .comparison []
    | t :: rest =>
      if t.isOp "not" then do
        let (e, ⟨more, fewer⟩) ← parseAt .not rest
        return (.unary .not e, ⟨more, Nat.lt_succ_of_lt fewer⟩)
      else parseAt .comparison (t :: rest)
  | .comparison => parseChain .comparison .sum (by decide) ts
  | .sum => parseChain .sum .product (by decide) ts
  | .product => parseChain .product .sign (by decide) ts
  | .sign =>
    match ts with
    | [] => parseAt .power []
    | t :: rest =>
      match signOp? t with
      | some op => do
        let (e, ⟨more, fewer⟩) ← parseAt .sign rest
        return (.unary op e, ⟨more, Nat.lt_succ_of_lt fewer⟩)
      | none => parseAt .power (t :: rest)
  | .power => do
    let (base, ⟨more, fewer⟩) ← parseAt .primary ts
    match more, fewer with
    | [], fewer => return (base, ⟨[], fewer⟩)
    | t :: rest, fewer =>
      if t.isOp "**" then do
        let (e, ⟨left, fewer'⟩) ← parseAt .sign rest
        return (.binary .pow base e, ⟨left, Nat.lt_trans (Nat.lt_succ_of_lt fewer') fewer⟩)
      else return (base, ⟨t :: rest, fewer⟩)
  | .primary =>
    match ts with
    | [] => .error (.unexpectedToken "end of input" 0)
    | t :: rest =>
      match t.kind with
      | .number => .ok (.literal (numberValue t.text), ⟨rest, Nat.lt_succ_self _⟩)
      | .string => .ok (.literal (.text (unquote t.text.toList)), ⟨rest, Nat.lt_succ_self _⟩)
      | .name =>
        match keyword? t.text with
        | some v => .ok (.literal v, ⟨rest, Nat.lt_succ_self _⟩)
        | none => .error (.unknownIdentifier t.text t.position)
      | .stop => .error (.unexpectedToken t.shown t.position)
      | .op =>
        if t.text == "(" then do
          let (e, ⟨more, fewer⟩) ← parseAt .or rest
          let ⟨left, fewer'⟩ ← expect ")" more
          return (e, ⟨left, Nat.lt_succ_of_lt (Nat.lt_trans fewer' fewer)⟩)
        else if t.text == "[" then
          match expect "]" rest with
          | .ok ⟨left, fewer⟩ => .ok (.list [], ⟨left, Nat.lt_succ_of_lt fewer⟩)
          | .error _ => do
            let (items, ⟨left, fewer⟩) ← parseItems [] rest
            return (.list items, ⟨left, Nat.lt_succ_of_lt fewer⟩)
        else .error (.unexpectedToken t.shown t.position)
termination_by 20 * ts.length + 2 * level.rank
decreasing_by all_goals simp only [Level.rank, List.length_cons] at *; omega

def parseChain (level tighter : Level) (_lower : tighter.rank < level.rank) (ts : List Token) :
    Parsed ts := do
  let (e, ⟨more, fewer⟩) ← parseAt tighter ts
  let (e, ⟨left, noMore⟩) ← parseOperands level tighter e more
  return (e, ⟨left, Nat.lt_of_le_of_lt noMore fewer⟩)
termination_by 20 * ts.length + 2 * level.rank - 1
decreasing_by all_goals omega

def parseOperands (level tighter : Level) (before : Expr) (ts : List Token) :
    Except ExpressionFault (Expr × NoMore ts) :=
  match ts with
  | [] => .ok (before, ⟨[], Nat.le_refl _⟩)
  | t :: rest =>
    match chainNode? level t with
    | none => .ok (before, ⟨t :: rest, Nat.le_refl _⟩)
    | some node => do
      let (e, ⟨more, fewer⟩) ← parseAt tighter rest
      let (e, ⟨left, noMore⟩) ← parseOperands level tighter (node before e) more
      return (e, ⟨left, Nat.le_succ_of_le (Nat.le_trans noMore (Nat.le_of_lt fewer))⟩)
termination_by 20 * ts.length
decreasing_by all_goals have := tighter.rank_le; simp only [List.length_cons] at *; omega

/-- Items between commas up to the closing bracket, after those already read, which are reversed. -/
def parseItems (before : List Expr) (ts : List Token) :
    Except ExpressionFault (List Expr × Fewer ts) := do
  let (e, ⟨more, fewer⟩) ← parseAt .or ts
  match expect "," more with
  | .ok ⟨rest, fewer'⟩ => do
    let (items, ⟨left, fewer''⟩) ← parseItems (e :: before) rest
    return (items, ⟨left, Nat.lt_trans fewer'' (Nat.lt_trans fewer' fewer)⟩)
  | .error _ => do
    let ⟨left, fewer'⟩ ← expect "]" more
    return ((e :: before).reverse, ⟨left, Nat.lt_trans fewer' fewer⟩)
termination_by 20 * ts.length + 17
decreasing_by all_goals have := Level.or.rank_le; omega
end

def parse (source : String) : Except ExpressionFault Expr := do
  let ts ← tokenize source
  let (e, ⟨rest, _⟩) ← parseAt .or ts
  match rest with
  | [] => return e
  | t :: _ => if t.kind == .stop then return e else .error (.unexpectedToken t.text t.position)

end DecisionRules.Expression
