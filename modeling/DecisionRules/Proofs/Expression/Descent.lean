import DecisionRules.Proofs.Expression.Lexeme
import DecisionRules.Proofs.Expression.Reading

/-! The parser step by step: one index into the tokens of a text, and the calls that wait for a result. Every step
leaves less to do, no step looks behind the last token, and a call within a call of its own level starts further on. -/
namespace DecisionRules.Expression.Descent

/-- What a call waits for, and what it makes of it. -/
inductive Awaits where
  /-- An operand of a chain that may go on. -/
  | operand (make : Expr → Expr)
  | result (make : Expr → Expr)
  | base
  /-- What is between round brackets. -/
  | inside
  /-- An item of a list, after those before it, which are reversed. -/
  | item (before : List Expr)

structure Call where
  level : Level
  start : Nat
  awaits : Awaits

inductive Control where
  | enter (level : Level)
  /-- A list is open, and may be closed at once. -/
  | opened
  | give (e : Expr)
  | done (e : Expr)
  | failed (fault : ExpressionFault)
  /-- There is no token to look at. -/
  | lost

/-- The calls are those that wait, the innermost one first. The places of the tokens that were taken are kept in the
order in which they were. -/
structure State where
  control : Control
  index : Nat
  calls : List Call
  taken : List Nat

namespace State

def go (s : State) (control : Control) (calls : List Call) : State := { s with control := control, calls := calls }

def take (s : State) (control : Control) (calls : List Call) : State :=
  ⟨control, s.index + 1, calls, s.taken ++ [s.index]⟩

def peek (ts : List Token) (s : State) (next : Token → State) : State :=
  match ts[s.index]? with
  | some t => next t
  | none => s.go .lost s.calls

def fail (s : State) (fault : ExpressionFault) : State := s.go (.failed fault) s.calls

/-- The call that starts here waits from now on. -/
def waiting (s : State) (level : Level) (awaits : Awaits) : List Call := ⟨level, s.index, awaits⟩ :: s.calls

def primary (s : State) (t : Token) : State :=
  match t.kind with
  | .number => s.take (.give (.literal (numberValue t.text))) s.calls
  | .string => s.take (.give (.literal (.text (unquote t.text.toList)))) s.calls
  | .name =>
    match keyword? t.text with
    | some v => s.take (.give (.literal v)) s.calls
    | none => s.take (.failed (.unknownIdentifier t.text t.position)) s.calls
  | .op =>
    if t.text = "(" then s.take (.enter .or) (s.waiting .primary .inside)
    else if t.text = "[" then s.take .opened (s.waiting .primary (.item []))
    else s.fail (.unexpectedToken t.shown t.position)
  | .stop => s.fail (.unexpectedToken t.shown t.position)

def enter (ts : List Token) (s : State) : Level → State
  | .or => s.go (.enter .and) (s.waiting .or (.operand id))
  | .and => s.go (.enter .not) (s.waiting .and (.operand id))
  | .not => s.peek ts fun t =>
    if t.isOp "not" then s.take (.enter .not) (s.waiting .not (.result (.unary .not)))
    else s.go (.enter .comparison) (s.waiting .not (.result id))
  | .comparison => s.go (.enter .sum) (s.waiting .comparison (.operand id))
  | .sum => s.go (.enter .product) (s.waiting .sum (.operand id))
  | .product => s.go (.enter .sign) (s.waiting .product (.operand id))
  | .sign => s.peek ts fun t =>
    match signOp? t with
    | some op => s.take (.enter .sign) (s.waiting .sign (.result (.unary op)))
    | none => s.go (.enter .power) (s.waiting .sign (.result id))
  | .power => s.go (.enter .primary) (s.waiting .power .base)
  | .primary => s.peek ts s.primary

/-- A call gets what it waits for. -/
def resume (ts : List Token) (s : State) (e : Expr) (call : Call) (outer : List Call) : State :=
  match call.awaits with
  | .operand make => s.peek ts fun t =>
    match chainNode? call.level t, call.level.tighter? with
    | some node, some tighter =>
      s.take (.enter tighter) (⟨call.level, call.start, .operand (node (make e))⟩ :: outer)
    | _, _ => s.go (.give (make e)) outer
  | .result make => s.go (.give (make e)) outer
  | .base => s.peek ts fun t =>
    if t.isOp "**" then s.take (.enter .sign) (⟨call.level, call.start, .result (.binary .pow e)⟩ :: outer)
    else s.go (.give e) outer
  | .inside => s.peek ts fun t =>
    if t.isOp ")" then s.take (.give e) outer else s.fail (.expected ")" t.position t.shown)
  | .item before => s.peek ts fun t =>
    if t.isOp "," then s.take (.enter .or) (⟨call.level, call.start, .item (e :: before)⟩ :: outer)
    else if t.isOp "]" then s.take (.give (.list (e :: before).reverse)) outer
    else s.fail (.expected "]" t.position t.shown)

def advance (ts : List Token) (s : State) : State :=
  match s.control with
  | .enter level => s.enter ts level
  | .opened => s.peek ts fun t =>
    if t.isOp "]" then s.take (.give (.list [])) s.calls.tail else s.go (.enter .or) s.calls
  | .give e =>
    match s.calls with
    | call :: outer => s.resume ts e call outer
    | [] => s.peek ts fun t =>
      if t.kind = .stop then s.go (.done e) [] else s.fail (.unexpectedToken t.text t.position)
  | .done _ | .failed _ | .lost => s

def run (ts : List Token) : Nat → State → State
  | 0, s => s
  | n + 1, s => run ts n (s.advance ts)

def start : State := ⟨.enter .or, 0, [], []⟩

end State

def Control.halted : Control → Bool
  | .done _ | .failed _ | .lost => true
  | .enter _ | .opened | .give _ => false

/-- There is a token at the place, and it does not mark the end. -/
def Live (ts : List Token) (i : Nat) : Prop := ∃ t, ts[i]? = some t ∧ t.kind ≠ .stop

/-- What a step can do, whatever the trees are. -/
inductive Moves (ts : List Token) (s : State) : State → Prop where
  | descend {level tighter awaits} (control : s.control = .enter level) (lower : tighter.rank < level.rank) :
      Moves ts s (s.go (.enter tighter) (s.waiting level awaits))
  | plunge {level inner awaits} (control : s.control = .enter level) (live : Live ts s.index) :
      Moves ts s (s.take (.enter inner) (s.waiting level awaits))
  | openList {level awaits} (control : s.control = .enter level) (live : Live ts s.index) :
      Moves ts s (s.take .opened (s.waiting level awaits))
  | fillList (control : s.control = .opened) : Moves ts s (s.go (.enter .or) s.calls)
  | closeList {e} (control : s.control = .opened) (live : Live ts s.index) :
      Moves ts s (s.take (.give e) s.calls.tail)
  | leaf {level e} (control : s.control = .enter level) (live : Live ts s.index) :
      Moves ts s (s.take (.give e) s.calls)
  | pass {e made call outer} (control : s.control = .give e) (calls : s.calls = call :: outer) :
      Moves ts s (s.go (.give made) outer)
  | close {e made call outer} (control : s.control = .give e) (calls : s.calls = call :: outer)
      (live : Live ts s.index) : Moves ts s (s.take (.give made) outer)
  | goOn {e call outer inner awaits} (control : s.control = .give e) (calls : s.calls = call :: outer)
      (live : Live ts s.index) : Moves ts s (s.take (.enter inner) (⟨call.level, call.start, awaits⟩ :: outer))
  | finish {e t} (control : s.control = .give e) (token : ts[s.index]? = some t) (stop : t.kind = .stop) :
      Moves ts s (s.go (.done e) [])
  | fail {fault} (working : s.control.halted = false) : Moves ts s (s.fail fault)
  | failBehind {fault level} (control : s.control = .enter level) (live : Live ts s.index) :
      Moves ts s (s.take (.failed fault) s.calls)

section
variable {ts : List Token} {s : State} {t : Token}

theorem peekToken (token : ts[s.index]? = some t) (next : Token → State) : s.peek ts next = next t := by
  simp only [State.peek, token]

theorem liveOp (token : ts[s.index]? = some t) (op : t.kind = .op) : Live ts s.index :=
  ⟨t, token, by simp [op]⟩

theorem primaryMoves (control : s.control = .enter .primary) (token : ts[s.index]? = some t) :
    Moves ts s (s.primary t) := by
  have working : s.control.halted = false := control ▸ rfl
  unfold State.primary
  cases kind : t.kind with
  | number => exact .leaf control ⟨t, token, by simp [kind]⟩
  | string => exact .leaf control ⟨t, token, by simp [kind]⟩
  | name =>
    cases known : keyword? t.text with
    | some v => exact .leaf control ⟨t, token, by simp [kind]⟩
    | none => exact .failBehind control ⟨t, token, by simp [kind]⟩
  | op =>
    have live := liveOp token kind
    dsimp only
    split
    · exact .plunge control live
    · split
      · exact .openList control live
      · exact .fail working
  | stop => exact .fail working

theorem enterMoves {level : Level} (control : s.control = .enter level) (token : ts[s.index]? = some t) :
    Moves ts s (s.enter ts level) := by
  cases level with
  | or => exact .descend control (by decide)
  | and => exact .descend control (by decide)
  | not =>
    rw [State.enter, peekToken token]
    split
    · rename_i word
      exact .plunge control (liveOp token (isOpFacts.mp word).1)
    · exact .descend control (by decide)
  | comparison => exact .descend control (by decide)
  | sum => exact .descend control (by decide)
  | product => exact .descend control (by decide)
  | sign =>
    rw [State.enter, peekToken token]
    split
    · rename_i sign
      exact .plunge control (liveOp token (signKind sign))
    · exact .descend control (by decide)
  | power => exact .descend control (by decide)
  | primary =>
    rw [State.enter, peekToken token]
    exact primaryMoves control token

theorem resumeMoves {e : Expr} {call : Call} {outer : List Call} (control : s.control = .give e)
    (calls : s.calls = call :: outer) (token : ts[s.index]? = some t) : Moves ts s (s.resume ts e call outer) := by
  have working : s.control.halted = false := control ▸ rfl
  unfold State.resume
  cases call.awaits with
  | operand make =>
    dsimp only
    rw [peekToken token]
    split
    · rename_i joins _
      exact .goOn control calls (liveOp token (chainKind joins))
    · exact .pass control calls
  | result make => exact .pass control calls
  | base =>
    dsimp only
    rw [peekToken token]
    split
    · rename_i stars
      exact .goOn control calls (liveOp token (isOpFacts.mp stars).1)
    · exact .pass control calls
  | inside =>
    dsimp only
    rw [peekToken token]
    split
    · rename_i closes
      exact .close control calls (liveOp token (isOpFacts.mp closes).1)
    · exact .fail working
  | item before =>
    dsimp only
    rw [peekToken token]
    split
    · rename_i comma
      exact .goOn control calls (liveOp token (isOpFacts.mp comma).1)
    · split
      · rename_i closes
        exact .close control calls (liveOp token (isOpFacts.mp closes).1)
      · exact .fail working

theorem advanceMoves (inside : s.index < ts.length) (working : s.control.halted = false) :
    Moves ts s (s.advance ts) := by
  have token : ts[s.index]? = some ts[s.index] := List.getElem?_eq_getElem inside
  unfold State.advance
  cases control : s.control with
  | enter level => exact enterMoves control token
  | opened =>
    dsimp only
    rw [peekToken token]
    split
    · rename_i closes
      exact .closeList control (liveOp token (isOpFacts.mp closes).1)
    · exact .fillList control
  | give e =>
    cases calls : s.calls with
    | cons call outer => exact resumeMoves control calls token
    | nil =>
      dsimp only
      rw [peekToken token]
      split
      · rename_i stop
        exact .finish control token stop
      · exact .fail working
  | done e => simp [control, Control.halted] at working
  | failed fault => simp [control, Control.halted] at working
  | lost => simp [control, Control.halted] at working

/-! Every step leaves less to do: the tokens ahead count first, then the levels below, then the calls that wait. -/

def Control.weight : Control → Nat
  | .enter level => 3 * level.rank + 1
  | .opened => 26
  | .give _ => 1
  | .done _ | .failed _ | .lost => 0

def State.weight (ts : List Token) (s : State) : Nat :=
  28 * (ts.length - s.index) + s.control.weight + 2 * s.calls.length

theorem Moves.lighter {u : State} (moves : Moves ts s u) (inside : s.index < ts.length) :
    u.weight ts < s.weight ts := by
  have ahead : ts.length - s.index = ts.length - (s.index + 1) + 1 := by omega
  cases moves with
  | @descend level tighter _ control lower =>
    simp only [State.weight, State.go, State.waiting, control, Control.weight, List.length_cons]
    omega
  | @plunge _ inner _ control =>
    have low := inner.rank_le
    simp only [State.weight, State.take, State.waiting, control, Control.weight, List.length_cons]
    omega
  | openList control =>
    simp only [State.weight, State.take, State.waiting, control, Control.weight, List.length_cons]
    omega
  | fillList control =>
    simp only [State.weight, State.go, control, Control.weight, Level.rank]
    omega
  | closeList control =>
    simp only [State.weight, State.take, control, Control.weight, List.length_tail]
    omega
  | leaf control =>
    simp only [State.weight, State.take, control, Control.weight]
    omega
  | pass control calls =>
    simp only [State.weight, State.go, control, calls, Control.weight, List.length_cons]
    omega
  | close control calls =>
    simp only [State.weight, State.take, control, calls, Control.weight, List.length_cons]
    omega
  | @goOn _ _ _ inner _ control calls =>
    have low := inner.rank_le
    simp only [State.weight, State.take, control, calls, Control.weight, List.length_cons]
    omega
  | finish control =>
    simp only [State.weight, State.go, control, Control.weight, List.length_nil]
    omega
  | fail working =>
    have heavy : 0 < s.control.weight := by
      cases control : s.control <;> simp_all [Control.weight, Control.halted]
    exact Nat.add_lt_add_right (Nat.add_lt_add_left heavy _) _
  | failBehind control =>
    simp only [State.weight, State.take, control, Control.weight]
    omega

/-! What every step keeps. -/

theorem Moves.travels {u : State} (moves : Moves ts s u) :
    u.index = s.index ∧ u.taken = s.taken ∨
    Live ts s.index ∧ u.index = s.index + 1 ∧ u.taken = s.taken ++ [s.index] := by
  cases moves with
  | descend | fillList | pass | finish | fail => exact .inl ⟨rfl, rfl⟩
  | plunge _ live | openList _ live | closeList _ live | leaf _ live | close _ _ live | goOn _ _ live
  | failBehind _ live => exact .inr ⟨live, rfl, rfl⟩

theorem Moves.ends {u : State} (moves : Moves ts s u) : u.control ≠ .lost ∧
    ∀ e, u.control = .done e → ∃ t, ts[u.index]? = some t ∧ t.kind = .stop := by
  cases moves with
  | finish _ token stop => exact ⟨nofun, fun _ _ => ⟨_, token, stop⟩⟩
  | _ => exact ⟨nofun, nofun⟩

/-- The inner call started further on, or at the same place and at a tighter level. -/
def Within (inner outer : Level × Nat) : Prop :=
  outer.2 < inner.2 ∨ outer.2 = inner.2 ∧ inner.1.rank < outer.1.rank

def starts (calls : List Call) : List (Level × Nat) := calls.map fun call => (call.level, call.start)

/-- The calls at work, with the places where they started. -/
def State.active (s : State) : List (Level × Nat) :=
  match s.control with
  | .enter level => (level, s.index) :: starts s.calls
  | _ => starts s.calls

structure Nested (s : State) : Prop where
  ordered : s.active.Pairwise Within
  reached : ∀ call ∈ starts s.calls, call.2 ≤ s.index
  opened : s.control = .opened → ∀ call ∈ starts s.calls, call.2 < s.index

theorem Nested.waiting (nested : Nested s) : (starts s.calls).Pairwise Within := by
  have ordered := nested.ordered
  unfold State.active at ordered
  split at ordered
  · exact ordered.of_cons
  · exact ordered

theorem Nested.entered {level : Level} (nested : Nested s) (control : s.control = .enter level) :
    ((level, s.index) :: starts s.calls).Pairwise Within ∧
    ∀ call ∈ (level, s.index) :: starts s.calls, call.2 ≤ s.index := by
  refine ⟨?_, List.forall_mem_cons.mpr ⟨Nat.le_refl _, nested.reached⟩⟩
  simpa [State.active, control] using nested.ordered

/-- A token was taken since these calls started. -/
theorem withinNext {calls : List (Level × Nat)} {i : Nat} (reached : ∀ call ∈ calls, call.2 ≤ i) (inner : Level) :
    ∀ call ∈ calls, Within (inner, i + 1) call :=
  fun call member => .inl (Nat.lt_succ_of_le (reached call member))

theorem Moves.nested {u : State} (moves : Moves ts s u) (nested : Nested s) : Nested u := by
  have later : ∀ call ∈ starts s.calls, call.2 ≤ s.index + 1 := fun call member =>
    Nat.le_succ_of_le (nested.reached call member)
  cases moves with
  | @descend level tighter awaits control lower =>
    obtain ⟨ordered, reached⟩ := nested.entered control
    obtain ⟨here, _⟩ := List.pairwise_cons.mp ordered
    have inner : ∀ call ∈ (level, s.index) :: starts s.calls, Within (tighter, s.index) call := by
      intro call member
      rcases List.mem_cons.mp member with rfl | member
      · exact .inr ⟨rfl, lower⟩
      · rcases here call member with before | ⟨same, looser⟩
        · exact .inl before
        · exact .inr ⟨same, Nat.lt_trans lower looser⟩
    exact ⟨List.pairwise_cons.mpr ⟨inner, ordered⟩, reached, nofun⟩
  | @plunge level inner awaits control =>
    obtain ⟨ordered, reached⟩ := nested.entered control
    refine ⟨List.pairwise_cons.mpr ⟨withinNext reached inner, ordered⟩, ?_, nofun⟩
    exact fun call member => Nat.le_succ_of_le (reached call member)
  | @openList level awaits control =>
    obtain ⟨ordered, reached⟩ := nested.entered control
    refine ⟨ordered, ?_, fun _ call member => Nat.lt_succ_of_le (reached call member)⟩
    exact fun call member => Nat.le_succ_of_le (reached call member)
  | fillList control =>
    refine ⟨List.pairwise_cons.mpr ⟨fun call member => ?_, nested.waiting⟩, nested.reached, nofun⟩
    exact .inl (nested.opened control call member)
  | closeList control =>
    have fewer : starts s.calls.tail = (starts s.calls).tail := List.map_tail
    refine ⟨?_, fun call member => later call (List.mem_of_mem_tail (fewer ▸ member)), nofun⟩
    change (starts s.calls.tail).Pairwise Within
    exact fewer.symm ▸ nested.waiting.tail
  | leaf control => exact ⟨nested.waiting, later, nofun⟩
  | @pass _ _ call outer control calls =>
    have waiting := nested.waiting
    have reached := nested.reached
    rw [calls] at waiting reached
    exact ⟨waiting.of_cons, fun call member => reached call (List.mem_cons_of_mem _ member), nofun⟩
  | @close _ _ call outer control calls =>
    have waiting := nested.waiting
    rw [calls] at waiting later
    exact ⟨waiting.of_cons, fun call member => later call (List.mem_cons_of_mem _ member), nofun⟩
  | @goOn _ call outer inner awaits control calls =>
    have waiting := nested.waiting
    have reached := nested.reached
    rw [calls] at waiting reached later
    exact ⟨List.pairwise_cons.mpr ⟨withinNext reached inner, waiting⟩, later, nofun⟩
  | finish => exact ⟨.nil, nofun, nofun⟩
  | fail => exact ⟨nested.waiting, nested.reached, nofun⟩
  | failBehind => exact ⟨nested.waiting, later, nofun⟩

/-- A stop ends the tokens, and there is no other. -/
def Stopped (ts : List Token) : Prop := ∃ body last, ts = body ++ [last] ∧ last.kind = .stop ∧ ∀ t ∈ body, t.kind ≠ .stop

theorem liveAhead {i : Nat} (stopped : Stopped ts) (live : Live ts i) : i + 1 < ts.length := by
  obtain ⟨body, last, rfl, stop, _⟩ := stopped
  obtain ⟨t, found, other⟩ := live
  obtain ⟨within, _⟩ := List.getElem?_eq_some_iff.mp found
  have different : i ≠ body.length := by
    rintro rfl
    rw [List.getElem?_concat_length] at found
    exact other (Option.some.inj found ▸ stop)
  rw [List.length_append, List.length_singleton] at within ⊢
  omega

theorem stopPlace {i : Nat} (stopped : Stopped ts) (found : ts[i]? = some t) (stop : t.kind = .stop) :
    i = ts.length - 1 := by
  obtain ⟨body, last, rfl, _, others⟩ := stopped
  obtain ⟨within, _⟩ := List.getElem?_eq_some_iff.mp found
  rw [List.length_append, List.length_singleton] at within ⊢
  rcases Nat.lt_or_ge i body.length with early | late
  · rw [List.getElem?_append_left early] at found
    exact absurd stop (others t (List.mem_of_getElem? found))
  · omega

structure Sane (ts : List Token) (s : State) : Prop where
  inside : s.index < ts.length
  found : s.control ≠ .lost
  once : s.taken = List.range s.index
  nested : Nested s
  ended : ∀ e, s.control = .done e → ∃ t, ts[s.index]? = some t ∧ t.kind = .stop

theorem restAdvance (ts : List Token) (halted : s.control.halted = true) : s.advance ts = s := by
  unfold State.advance
  cases control : s.control with
  | done e => rfl
  | failed fault => rfl
  | lost => rfl
  | enter level => simp [control, Control.halted] at halted
  | opened => simp [control, Control.halted] at halted
  | give e => simp [control, Control.halted] at halted

theorem Sane.advance (stopped : Stopped ts) (sane : Sane ts s) : Sane ts (s.advance ts) := by
  cases halted : s.control.halted with
  | true => exact (restAdvance ts halted).symm ▸ sane
  | false =>
    have moves := advanceMoves sane.inside halted
    obtain ⟨found, ended⟩ := moves.ends
    refine ⟨?_, found, ?_, moves.nested sane.nested, ended⟩
    · rcases moves.travels with ⟨same, _⟩ | ⟨live, next, _⟩
      · exact same.symm ▸ sane.inside
      · exact next.symm ▸ liveAhead stopped live
    · rcases moves.travels with ⟨same, taken⟩ | ⟨_, next, taken⟩
      · rw [taken, same, sane.once]
      · rw [taken, next, sane.once, List.range_succ]

theorem Sane.run (stopped : Stopped ts) (sane : Sane ts s) (n : Nat) : Sane ts (s.run ts n) := by
  induction n generalizing s with
  | zero => exact sane
  | succ n ih => exact ih (sane.advance stopped)

theorem startSane (stopped : Stopped ts) : Sane ts .start := by
  obtain ⟨body, last, rfl, _, _⟩ := stopped
  exact ⟨by simp [State.start], nofun, rfl, ⟨List.pairwise_singleton _ _, nofun, nofun⟩, nofun⟩

/-- From whatever state inside the tokens, the steps come to an end. -/
theorem halts (stopped : Stopped ts) (s : State) (inside : s.index < ts.length) :
    ∃ n ≤ s.weight ts, (s.run ts n).control.halted = true := by
  cases halted : s.control.halted with
  | true => exact ⟨0, Nat.zero_le _, halted⟩
  | false =>
    have moves := advanceMoves inside halted
    have lighter := moves.lighter inside
    have within : (s.advance ts).index < ts.length := by
      rcases moves.travels with ⟨same, _⟩ | ⟨live, next, _⟩
      · exact same.symm ▸ inside
      · exact next.symm ▸ liveAhead stopped live
    obtain ⟨n, few, ends⟩ := halts stopped (s.advance ts) within
    exact ⟨n + 1, by omega, ends⟩
termination_by s.weight ts

end
end DecisionRules.Expression.Descent
