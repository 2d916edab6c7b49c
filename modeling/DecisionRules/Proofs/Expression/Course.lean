import DecisionRules.Proofs.Expression.Descent
import DecisionRules.Proofs.Expression.Filling

/-! The steps over an index come to what the parser of token lists answers. -/
namespace DecisionRules.Expression.Descent
variable {ts : List Token} {s : State}

def Control.answer : Control → Option (Except ExpressionFault Expr)
  | .done e => some (.ok e)
  | .failed fault => some (.error fault)
  | .enter _ | .opened | .give _ | .lost => none

theorem runAdd (m n : Nat) (s : State) : s.run ts (m + n) = (s.run ts m).run ts n := by
  induction m generalizing s with
  | zero => rw [Nat.zero_add]; rfl
  | succ m ih => rw [Nat.succ_add]; exact ih (s.advance ts)

structure At (ts : List Token) (control : Control) (calls : List Call) (rest : List Token) (s : State) : Prop where
  control : s.control = control
  calls : s.calls = calls
  rest : ts.drop s.index = rest

section
variable {control : Control} {calls : List Call} {t : Token} {rest : List Token}

theorem At.token (place : At ts control calls (t :: rest) s) : ts[s.index]? = some t := by
  rw [← List.head?_drop, place.rest]
  rfl

theorem At.went (place : At ts control calls rest s) (next : Control) (others : List Call) :
    At ts next others rest (s.go next others) :=
  ⟨rfl, rfl, place.rest⟩

theorem At.took (place : At ts control calls (t :: rest) s) (next : Control) (others : List Call) :
    At ts next others rest (s.take next others) := by
  refine ⟨rfl, rfl, ?_⟩
  change ts.drop (s.index + 1) = rest
  rw [← List.tail_drop, place.rest]
  rfl

end

/-- The end is still ahead. -/
def Ahead (rest : List Token) : Prop := ∃ t ∈ rest, t.kind = .stop

theorem Ahead.next {t : Token} {rest : List Token} (ahead : Ahead (t :: rest)) (live : t.kind ≠ .stop) : Ahead rest := by
  obtain ⟨u, member, stop⟩ := ahead
  rcases List.mem_cons.mp member with rfl | later
  · exact absurd stop live
  · exact ⟨u, later, stop⟩

/-- The steps from here on come to this answer: either the calls that wait get the tree, or there is a fault. -/
def Tells {α : Type} (ts : List Token) (s : State) (calls : List Call) (view : α → Expr × List Token) :
    Except ExpressionFault α → Prop
  | .ok a => ∃ n, At ts (.give (view a).1) calls (view a).2 (s.run ts n) ∧ Ahead (view a).2
  | .error fault => ∃ n, (s.run ts n).control = .failed fault

namespace Tells
variable {α β : Type} {calls inner : List Call} {view : α → Expr × List Token} {look : β → Expr × List Token}

theorem step {x : Except ExpressionFault α} {next : State} (same : s.advance ts = next)
    (tells : Tells ts next calls view x) : Tells ts s calls view x := by
  subst same
  cases x with
  | ok a =>
    obtain ⟨n, place, ahead⟩ := tells
    exact ⟨n + 1, place, ahead⟩
  | error fault =>
    obtain ⟨n, failed⟩ := tells
    exact ⟨n + 1, failed⟩

theorem bind {x : Except ExpressionFault α} {f : α → Except ExpressionFault β} (first : Tells ts s inner view x)
    (next : ∀ a u, At ts (.give (view a).1) inner (view a).2 u → Ahead (view a).2 → Tells ts u calls look (f a)) :
    Tells ts s calls look (x >>= f) := by
  cases x with
  | error fault => exact first
  | ok a =>
    obtain ⟨n, place, ahead⟩ := first
    have after := next a _ place ahead
    change Tells ts s calls look (f a)
    cases answer : f a with
    | ok b =>
      rw [answer] at after
      obtain ⟨m, place, ahead⟩ := after
      exact ⟨n + m, runAdd n m s ▸ place, ahead⟩
    | error fault =>
      rw [answer] at after
      obtain ⟨m, failed⟩ := after
      exact ⟨n + m, runAdd n m s ▸ failed⟩

/-- The last call gives on what it gets. -/
theorem passing {x : Except ExpressionFault α} (first : Tells ts s inner view x)
    (next : ∀ a u, At ts (.give (view a).1) inner (view a).2 u → Ahead (view a).2 →
      Tells ts u calls view (.ok a)) : Tells ts s calls view x := by
  cases x with
  | error fault => exact first
  | ok a => exact bind first (f := .ok) next

theorem here {a : α} (place : At ts (.give (view a).1) calls (view a).2 s) (ahead : Ahead (view a).2) :
    Tells ts s calls view (.ok a) := ⟨0, place, ahead⟩

theorem fault {fault : ExpressionFault} (failed : s.control = .failed fault) :
    Tells ts s calls view (.error fault) := ⟨0, failed⟩

end Tells

def taken {us : List Token} (a : Expr × Fewer us) : Expr × List Token := (a.1, a.2.1)

def passed {us : List Token} (a : Expr × NoMore us) : Expr × List Token := (a.1, a.2.1)

def listed {us : List Token} (a : List Expr × Fewer us) : Expr × List Token := (.list a.1, a.2.1)

section
variable {level : Level} {calls : List Call} {e : Expr} {us : List Token}

theorem enterAdvance (place : At ts (.enter level) calls us s) : s.advance ts = s.enter ts level := by
  simp only [State.advance, place.control]

theorem giveAdvance {call : Call} (place : At ts (.give e) (call :: calls) us s) :
    s.advance ts = s.resume ts e call calls := by
  simp only [State.advance, place.control, place.calls]

/-- The last thing that a call waits for is there. -/
theorem resultTells {α : Type} {view : α → Expr × List Token} {a : α} {start : Nat} {make : Expr → Expr}
    (place : At ts (.give e) (⟨level, start, .result make⟩ :: calls) us s) (ahead : Ahead us)
    (seen : view a = (make e, us)) : Tells ts s calls view (.ok a) := by
  refine .step (giveAdvance place) (.here ?_ ?_)
  · rw [seen]
    exact place.went _ _
  · rwa [seen]

end

theorem liveOpToken {t : Token} {op : String} (found : t.isOp op = true) : t.kind ≠ .stop := by
  simp [(isOpFacts.mp found).1]

theorem nowhere {P : Prop} (ahead : Ahead []) : P := by
  obtain ⟨_, member, _⟩ := ahead
  cases member

theorem openedAdvance {calls : List Call} {us : List Token} {t : Token} (place : At ts .opened calls (t :: us) s) :
    s.advance ts =
      if t.isOp "]" then s.take (.give (.list [])) s.calls.tail else s.go (.enter .or) s.calls := by
  simp only [State.advance, place.control, peekToken place.token]

/-- What is between round brackets is read, and they are to be closed. -/
theorem insideTells {calls : List Call} {start : Nat} {e : Expr} {us vs : List Token}
    (fewer : us.length < vs.length) (place : At ts (.give e) (⟨.primary, start, .inside⟩ :: calls) us s) (ahead : Ahead us) :
    Tells ts s calls (@taken vs) (do
      let ⟨left, fewer'⟩ ← expect ")" us
      return (e, ⟨left, Nat.lt_trans fewer' fewer⟩)) := by
  match us with
  | [] => exact nowhere ahead
  | t :: rest =>
    have next := giveAdvance place
    simp only [State.resume, peekToken place.token] at next
    by_cases closes : t.isOp ")" = true
    · simp only [expect, closes, if_true]
      rw [if_pos closes] at next
      exact .step next (.here (place.took _ _) (ahead.next (liveOpToken closes)))
    · simp only [expect, closes]
      rw [if_neg closes] at next
      exact .step next (.fault rfl)

theorem primaryTells {t : Token} {rest : List Token}
    (place : At ts (.enter .primary) s.calls (t :: rest) s) (ahead : Ahead (t :: rest))
    (inside : ∀ {u : State}, At ts (.enter .or) u.calls rest u → Ahead rest →
      Tells ts u u.calls taken (parseAt .or rest))
    (items : ∀ {u : State} {calls : List Call} {start : Nat},
      At ts (.enter .or) u.calls rest u → u.calls = ⟨.primary, start, .item []⟩ :: calls → Ahead rest →
      Tells ts u calls listed (parseItems [] rest)) : Tells ts s s.calls taken (parseAt .primary (t :: rest)) := by
  have next := enterAdvance place
  rw [State.enter, peekToken place.token] at next
  unfold State.primary at next
  unfold parseAt
  dsimp only
  split
  · rename_i kind
    simp only [kind] at next
    exact .step next (.here (place.took _ _) (ahead.next (by simp [kind])))
  · rename_i kind
    simp only [kind] at next
    exact .step next (.here (place.took _ _) (ahead.next (by simp [kind])))
  · rename_i kind
    simp only [kind] at next
    split
    · rename_i known
      simp only [known] at next
      exact .step next (.here (place.took _ _) (ahead.next (by simp [kind])))
    · rename_i unknown
      simp only [unknown] at next
      exact .step next (.fault rfl)
  · rename_i kind
    simp only [kind] at next
    exact .step next (.fault rfl)
  · rename_i kind
    simp only [kind] at next
    have ahead : Ahead rest := ahead.next (by simp [kind])
    split
    · rename_i opens
      rw [if_pos (by simpa using opens)] at next
      refine .step next (.bind (inside (place.took _ _) ahead) ?_)
      rintro ⟨e, more, fewer⟩ u place ahead
      exact insideTells (Nat.lt_succ_of_lt fewer) place ahead
    · rename_i other
      rw [if_neg (by simpa using other)] at next
      split
      · rename_i opens
        rw [if_pos (by simpa using opens)] at next
        have place := place.took .opened (s.waiting .primary (.item []))
        refine .step next ?_
        cases rest with
        | nil => exact nowhere ahead
        | cons w left =>
          have next := openedAdvance place
          by_cases closes : w.isOp "]" = true
          · simp only [expect, closes, if_true]
            rw [if_pos closes] at next
            exact .step next (.here (place.took _ _) (ahead.next (liveOpToken closes)))
          · simp only [expect, closes]
            rw [if_neg closes] at next
            refine .step next (.bind (items (place.went _ _) rfl ahead) ?_)
            rintro ⟨e, more, fewer⟩ u place ahead
            exact .here place ahead
      · rename_i other
        rw [if_neg (by simpa using other)] at next
        exact .step next (.fault rfl)

mutual
theorem parseAtTells (level : Level) (us : List Token) {s : State} (place : At ts (.enter level) s.calls us s)
    (ahead : Ahead us) : Tells ts s s.calls taken (parseAt level us) := by
  match level, us with
  | .or, us | .and, us | .comparison, us | .sum, us | .product, us =>
    unfold parseAt
    exact parseChainTells rfl us place ahead
  | .not, t :: rest =>
    have next := enterAdvance place
    rw [State.enter, peekToken place.token] at next
    unfold parseAt
    dsimp only
    split
    · rename_i word
      rw [if_pos word] at next
      refine .step next (.bind (parseAtTells .not rest (place.took _ _) (ahead.next (liveOpToken word))) ?_)
      rintro ⟨e, more, fewer⟩ u place ahead
      exact resultTells place ahead rfl
    · rename_i other
      rw [if_neg other] at next
      refine .step next (.passing (parseAtTells .comparison (t :: rest) (place.went _ _) ahead) ?_)
      exact fun a u place ahead => resultTells place ahead rfl
  | .sign, t :: rest =>
    have next := enterAdvance place
    rw [State.enter, peekToken place.token] at next
    unfold parseAt
    dsimp only
    split
    · rename_i op sign
      simp only [sign] at next
      have live : t.kind ≠ .stop := by simp [signKind sign]
      refine .step next (.bind (parseAtTells .sign rest (place.took _ _) (ahead.next live)) ?_)
      rintro ⟨e, more, fewer⟩ u place ahead
      exact resultTells place ahead rfl
    · rename_i plain
      simp only [plain] at next
      refine .step next (.passing (parseAtTells .power (t :: rest) (place.went _ _) ahead) ?_)
      exact fun a u place ahead => resultTells place ahead rfl
  | .power, us =>
    unfold parseAt
    refine .step (enterAdvance place) (.bind (parseAtTells .primary us (place.went _ _) ahead) ?_)
    rintro ⟨base, more, fewer⟩ u place ahead
    match more with
    | [] => exact nowhere ahead
    | t :: rest =>
      have shorter : rest.length < us.length := Nat.lt_of_succ_lt fewer
      have next := giveAdvance place
      have token : ts[u.index]? = some t := place.token
      simp only [State.resume, peekToken token] at next
      dsimp only
      split
      · rename_i stars
        rw [if_pos stars] at next
        refine .step next (.bind (parseAtTells .sign rest (place.took _ _) (ahead.next (liveOpToken stars))) ?_)
        rintro ⟨e, left, fewer⟩ u place ahead
        exact resultTells place ahead rfl
      · rename_i other
        rw [if_neg other] at next
        exact .step next (.here (place.went _ _) ahead)
  | .primary, t :: rest =>
    exact primaryTells place ahead (parseAtTells .or rest) (parseItemsTells [] rest)
  | .not, [] | .sign, [] | .primary, [] => exact nowhere ahead
termination_by 20 * us.length + 2 * level.rank
decreasing_by all_goals simp only [Level.rank, List.length_cons] at *; omega

theorem parseChainTells {level tighter : Level} {lower : tighter.rank < level.rank}
    (below : level.tighter? = some tighter) (us : List Token) {s : State}
    (place : At ts (.enter level) s.calls us s) (ahead : Ahead us) :
    Tells ts s s.calls taken (parseChain level tighter lower us) := by
  have next : s.advance ts = s.go (.enter tighter) (s.waiting level (.operand id)) := by
    rw [enterAdvance place]
    cases level <;> cases below <;> rfl
  unfold parseChain
  refine .step next (.bind (parseAtTells tighter us (place.went _ _) ahead) ?_)
  rintro ⟨e, more, fewer⟩ u place ahead
  refine .bind (parseOperandsTells below id more place ahead) ?_
  rintro ⟨e, left, noMore⟩ u place ahead
  exact .here place ahead
termination_by 20 * us.length + 2 * level.rank - 1
decreasing_by all_goals omega

theorem parseOperandsTells {level tighter : Level} (below : level.tighter? = some tighter) {e : Expr}
    (make : Expr → Expr) (us : List Token) {s : State} {calls : List Call} {start : Nat}
    (place : At ts (.give e) (⟨level, start, .operand make⟩ :: calls) us s) (ahead : Ahead us) :
    Tells ts s calls passed (parseOperands level tighter (make e) us) := by
  match us with
  | [] => exact nowhere ahead
  | t :: rest =>
    have next := giveAdvance place
    simp only [State.resume, peekToken place.token, below] at next
    unfold parseOperands
    dsimp only
    split
    · rename_i last
      simp only [last] at next
      exact .step next (.here (place.went _ _) ahead)
    · rename_i node joins
      simp only [joins] at next
      have live : t.kind ≠ .stop := by simp [chainKind joins]
      refine .step next (.bind (parseAtTells tighter rest (place.took _ _) (ahead.next live)) ?_)
      rintro ⟨e, more, fewer⟩ u place ahead
      refine .bind (parseOperandsTells below (node (make _)) more place ahead) ?_
      rintro ⟨e, left, noMore⟩ u place ahead
      exact .here place ahead
termination_by 20 * us.length
decreasing_by all_goals have := tighter.rank_le; simp only [List.length_cons] at *; omega

theorem parseItemsTells (before : List Expr) (us : List Token) {s : State} {calls : List Call} {start : Nat}
    (place : At ts (.enter .or) s.calls us s) (waits : s.calls = ⟨.primary, start, .item before⟩ :: calls)
    (ahead : Ahead us) : Tells ts s calls listed (parseItems before us) := by
  unfold parseItems
  refine .bind (parseAtTells .or us place ahead) ?_
  rintro ⟨e, more, fewer⟩ u place ahead
  rw [waits] at place
  match more with
  | [] => exact nowhere ahead
  | t :: rest =>
    have shorter : rest.length < us.length := Nat.lt_of_succ_lt fewer
    have next := giveAdvance place
    have token : ts[u.index]? = some t := place.token
    simp only [State.resume, peekToken token] at next
    by_cases comma : t.isOp "," = true
    · simp only [expect, comma, if_true]
      rw [if_pos comma] at next
      refine .step next (.bind (parseItemsTells _ rest (place.took _ _) rfl (ahead.next (liveOpToken comma))) ?_)
      rintro ⟨items, left, fewer⟩ u place ahead
      exact .here place ahead
    · rw [if_neg comma] at next
      by_cases closes : t.isOp "]" = true
      · simp only [expect, comma, closes, if_true]
        rw [if_pos closes] at next
        exact .step next (.here (place.took _ _) (ahead.next (liveOpToken closes)))
      · simp only [expect, comma, closes]
        rw [if_neg closes] at next
        exact .step next (.fault rfl)
termination_by 20 * us.length + 17
decreasing_by all_goals have := Level.or.rank_le; omega

end

theorem parsesAlike (stopped : Stopped ts) : ∃ n, (State.start.run ts n).control.answer = some (parseTokens ts) := by
  obtain ⟨body, last, shape, stop, _⟩ := stopped
  have ahead : Ahead ts := ⟨last, by simp [shape], stop⟩
  have place : At ts (.enter .or) State.start.calls ts .start := ⟨rfl, rfl, rfl⟩
  have tells := parseAtTells .or ts place ahead
  unfold parseTokens
  cases parsed : parseAt .or ts with
  | error fault =>
    rw [parsed] at tells
    obtain ⟨n, failed⟩ := tells
    exact ⟨n, by rw [failed]; rfl⟩
  | ok read =>
    rw [parsed] at tells
    obtain ⟨n, place, ahead⟩ := tells
    obtain ⟨e, rest, fewer⟩ := read
    match rest with
    | [] => exact nowhere ahead
    | t :: more =>
      have token : ts[(State.start.run ts n).index]? = some t := place.token
      have calls : (State.start.run ts n).calls = [] := place.calls
      refine ⟨n + 1, ?_⟩
      rw [runAdd, State.run, State.run]
      simp only [State.advance, place.control, calls, peekToken token]
      by_cases same : t.kind = .stop
      · simp only [same, if_true, bind, Except.bind]
        rfl
      · simp only [same, if_false, bind, Except.bind, beq_iff_eq]
        rfl

theorem runRest (halted : s.control.halted = true) (n : Nat) : s.run ts n = s := by
  induction n with
  | zero => rfl
  | succ n ih => rw [State.run, restAdvance ts halted, ih]

theorem answerHalted {c : Control} {answer : Except ExpressionFault Expr} (given : c.answer = some answer) :
    c.halted = true := by
  cases c <;> first | rfl | cases given

theorem haltedAlike {m n : Nat} (first : (s.run ts m).control.halted = true) (second : (s.run ts n).control.halted = true) :
    s.run ts m = s.run ts n := by
  rw [← runRest first n, ← runRest second m, ← runAdd, ← runAdd, Nat.add_comm]

theorem tokensStopped {source : String} (tokens : tokenize source = .ok ts) : Stopped ts := by
  unfold tokenize at tokens
  dsimp only at tokens
  split at tokens
  · cases tokens
  · exact scanEnds _ tokens

/-- The steps over the tokens of a text come to an end, from whatever place and within whatever calls, and from the
first token on to what the parser answers. The index stays at a token, and every token before it was taken once, in
order: behind a whole expression that is every token but the last. A call within a call of its own level starts
behind a token that was taken in between. -/
theorem parserStaysInside {source : String} (tokens : tokenize source = .ok ts) :
    (∀ s : State, s.index < ts.length → ∃ n ≤ s.weight ts, (s.run ts n).control.halted = true) ∧
    (∃ n ≤ 28 * ts.length + 25, (State.start.run ts n).control.answer = some (parse source)) ∧
    ∀ n, (State.start.run ts n).index < ts.length ∧ (State.start.run ts n).control ≠ .lost ∧
      (State.start.run ts n).taken = List.range (State.start.run ts n).index ∧
      ((State.start.run ts n).active.Pairwise fun inner outer => inner.1 = outer.1 → outer.2 < inner.2) ∧
      ∀ e, (State.start.run ts n).control = .done e →
        parse source = .ok e ∧ (State.start.run ts n).taken = List.range (ts.length - 1) := by
  have stopped := tokensStopped tokens
  have sane := (startSane stopped).run stopped
  have parsed : parse source = parseTokens ts := by rw [parseSteps, tokens]; rfl
  obtain ⟨m, answered⟩ := parsesAlike stopped
  rw [← parsed] at answered
  refine ⟨halts stopped, ?_, fun n => ⟨(sane n).inside, (sane n).found, (sane n).once, ?_, fun e done => ⟨?_, ?_⟩⟩⟩
  · obtain ⟨n, few, halted⟩ := halts stopped .start (startSane stopped).inside
    refine ⟨n, few, ?_⟩
    rw [haltedAlike halted (answerHalted answered), answered]
  · refine (sane n).nested.ordered.imp fun {inner outer} within same => ?_
    rcases within with before | ⟨_, tighter⟩
    · exact before
    · exact absurd (same ▸ tighter) (Nat.lt_irrefl _)
  · have halted : (State.start.run ts n).control.halted = true := by rw [done]; rfl
    rw [haltedAlike (answerHalted answered) halted, done] at answered
    exact (Option.some.inj answered).symm
  · obtain ⟨t, found, stop⟩ := (sane n).ended e done
    rw [(sane n).once, stopPlace stopped found stop]

theorem parserStaysInsideBrackets :
    let ts : List Token := [⟨.op, "(", 0⟩, ⟨.number, "1", 1⟩, ⟨.op, ")", 2⟩, ⟨.stop, "", 3⟩]
    tokenize "(1)" = .ok ts ∧ (∃ n ≤ 137, (State.start.run ts n).control.answer = some (parse "(1)")) ∧
      ∀ n, (State.start.run ts n).index < 4 := by
  intro ts
  have tokens : tokenize "(1)" = .ok ts := by decide +kernel
  obtain ⟨_, answers, stays⟩ := parserStaysInside tokens
  exact ⟨tokens, answers, fun n => (stays n).1⟩

end DecisionRules.Expression.Descent
