import DecisionRules.Proofs.Condition.Depth
import DecisionRules.Proofs.Condition.Node

/-! Traces explain answers. At a logical node the trace shows the nodes below it that were evaluated, from the
first to the one that decides; those that it does not show have no say in it. -/
namespace DecisionRules

def Settled (stop : Bool) (details : List Trace) : Prop :=
  ∃ last, details.getLast? = some last ∧ last.value = stop

/-- Of the nodes below an operator, are these the first ones, up to the one that decides, and is the rest
left out only after one that decides? -/
structure Stops (stop : Bool) (details : List Trace) (unseen : List Condition) : Prop where
  going : ∀ t ∈ details.dropLast, t.value ≠ stop
  ends : unseen = [] ∨ Settled stop details

section
variable {stop : Bool} {t : Trace} {details : List Trace} {unseen : List Condition}

theorem settledOnward (goes : t.value ≠ stop) : Settled stop (t :: details) ↔ Settled stop details := by
  cases details with
  | nil => simp [Settled, goes]
  | cons next rest => simp [Settled]

theorem Stops.here (decides : t.value = stop) (unseen : List Condition) : Stops stop [t] unseen :=
  ⟨by simp, .inr ⟨t, rfl, decides⟩⟩

theorem Stops.onward (goes : t.value ≠ stop) (later : Stops stop details unseen) :
    Stops stop (t :: details) unseen := by
  refine ⟨?_, later.ends.imp_right (settledOnward goes).mpr⟩
  cases details with
  | nil => simp
  | cons next rest =>
    rw [List.dropLast_cons_of_ne_nil (List.cons_ne_nil next rest)]
    exact List.forall_mem_cons.mpr ⟨goes, later.going⟩

end

namespace Evaluator

mutual
/-- The trace explains what was made of a node at this depth from this frame. -/
inductive Explains (e : Evaluator) (token : Token Float) : Nat → Condition → Frame → Trace → Prop where
  | leaf {depth c f t} (single : c.isLogical = false) (ends : t.isLogical = false) :
      Explains e token depth c f t
  | junction {depth op stop seen unseen f details g} (decisive : op.stop? = some stop)
      (shown : ExplainsEach e token (depth + 1) seen f details g) (stops : Stops stop details unseen) :
      Explains e token depth (.logical op (seen ++ unseen)) f
        (.logical op.name (if stop then details.any Trace.value else details.all Trace.value) details)
  | exclusion {depth left right f l r g} (shown : ExplainsEach e token (depth + 1) [left, right] f [l, r] g) :
      Explains e token depth (.logical .xor [left, right]) f
        (.logical LogicalOperator.xor.name (l.value != r.value) [l, r])
  | negation {depth c f t g} (shown : ExplainsEach e token (depth + 1) [c] f [t] g) :
      Explains e token depth (.not (some c)) f (.logical Operator.not.name (!t.value) [t])
  | bare {depth f} : Explains e token depth (.not none) f (.logical Operator.not.name true [])
/-- The traces are those of the nodes, evaluated one after the other, and explain them. -/
inductive ExplainsEach (e : Evaluator) (token : Token Float) :
    Nat → List Condition → Frame → List Trace → Frame → Prop where
  | nil {depth f} : ExplainsEach e token depth [] f [] f
  | cons {depth c cs f t g ts h} (ran : (e.evaluateNode token depth c).run f = (.ok t, g))
      (why : Explains e token depth c f t) (rest : ExplainsEach e token depth cs g ts h) :
      ExplainsEach e token depth (c :: cs) f (t :: ts) h
end

section
variable {e : Evaluator} {token : Token Float}

mutual
theorem nodeExplained (depth : Nat) (c : Condition) {f after : Frame} {t : Trace}
    (ran : (e.evaluateNode token depth c).run f = (.ok t, after)) : e.Explains token depth c f t := by
  have leaf (single : c.isLogical = false) : e.Explains token depth c f t :=
    .leaf single (nodeFlat depth single f t after ran)
  rw [evaluateNode.eq_def] at ran
  obtain ⟨_, g, entered, ran⟩ := Run.runBindOk ran
  rw [enterOk entered] at ran
  cases c with
  | logical op children =>
    cases op with
    | and =>
      obtain ⟨details, _, below, ran⟩ := Run.runBindOk ran
      cases ran
      obtain ⟨seen, unseen, rfl, shown, stops⟩ := untilExplained (depth + 1) false children below
      exact .junction rfl shown stops
    | or =>
      obtain ⟨details, _, below, ran⟩ := Run.runBindOk ran
      cases ran
      obtain ⟨seen, unseen, rfl, shown, stops⟩ := untilExplained (depth + 1) true children below
      exact .junction rfl shown stops
    | xor =>
      match children with
      | [] => cases ran
      | [_] => cases ran
      | _ :: _ :: _ :: _ => cases ran
      | [left, right] =>
        obtain ⟨l, h, first, ran⟩ := Run.runBindOk ran
        obtain ⟨r, _, second, ran⟩ := Run.runBindOk ran
        cases ran
        have whyLeft := nodeExplained (depth + 1) left first
        have whyRight := nodeExplained (depth + 1) right second
        exact .exclusion (.cons first whyLeft (.cons second whyRight .nil))
  | not child => cases child with
    | none =>
      cases ran
      exact .bare
    | some child =>
      obtain ⟨r, _, below, ran⟩ := Run.runBindOk ran
      cases ran
      exact .negation (.cons below (nodeExplained (depth + 1) child below) .nil)
  | _ => exact leaf rfl
theorem untilExplained (depth : Nat) (stop : Bool) (cs : List Condition) {f after : Frame} {details : List Trace}
    (ran : (e.evaluateUntil token depth stop cs).run f = (.ok details, after)) :
    ∃ seen unseen, cs = seen ++ unseen ∧ e.ExplainsEach token depth seen f details after ∧
      Stops stop details unseen := by
  rw [evaluateUntil.eq_def] at ran
  cases cs with
  | nil =>
    cases ran
    exact ⟨[], [], rfl, .nil, by simp, .inl rfl⟩
  | cons c rest =>
    obtain ⟨t, g, first, ran⟩ := Run.runBindOk ran
    have why := nodeExplained depth c first
    split at ran
    · rename_i decides
      cases ran
      exact ⟨[c], rest, rfl, .cons first why .nil, .here (by simpa using decides) rest⟩
    · rename_i goes
      obtain ⟨more, _, later, ran⟩ := Run.runBindOk ran
      cases ran
      obtain ⟨seen, unseen, rfl, shown, stops⟩ := untilExplained depth stop rest later
      exact ⟨c :: seen, unseen, rfl, .cons first why shown, stops.onward (by simpa using goes)⟩
end

end

/-! What a trace does not show has no say: other nodes in its place would have changed nothing. -/

mutual
/-- Do the nodes differ in nothing that the trace shows? -/
inductive AgreeOn : Trace → Condition → Condition → Prop where
  | same {t c} : AgreeOn t c c
  | junction {op stop b details seen seen' unseen unseen'} (decisive : op.stop? = some stop)
      (shown : AgreeEach details seen seen')
      (rest : unseen = unseen' ∨ Settled stop details) :
      AgreeOn (.logical op.name b details) (.logical op (seen ++ unseen)) (.logical op (seen' ++ unseen'))
  | exclusion {b l r left right left' right'} (first : AgreeOn l left left') (second : AgreeOn r right right') :
      AgreeOn (.logical LogicalOperator.xor.name b [l, r]) (.logical .xor [left, right])
        (.logical .xor [left', right'])
  | negation {b t c c'} (below : AgreeOn t c c') :
      AgreeOn (.logical Operator.not.name b [t]) (.not (some c)) (.not (some c'))
inductive AgreeEach : List Trace → List Condition → List Condition → Prop where
  | nil : AgreeEach [] [] []
  | cons {t ts c cs c' cs'} (first : AgreeOn t c c') (later : AgreeEach ts cs cs') :
      AgreeEach (t :: ts) (c :: cs) (c' :: cs')
end

theorem AgreeOn.absent {t : Trace} {c c' : Condition} (agree : AgreeOn t c c') :
    c' = .inert .null ↔ c = .inert .null := by
  cases agree <;> simp

section
variable {e : Evaluator} {token : Token Float}

mutual
theorem nodeAgrees {t : Trace} {c c' : Condition} (agree : AgreeOn t c c') (depth : Nat) {f after : Frame}
    (ran : (e.evaluateNode token depth c).run f = (.ok t, after)) :
    (e.evaluateNode token depth c').run f = (.ok t, after) := by
  cases agree with
  | same => exact ran
  | junction decisive shown rest =>
    rw [junctionNode decisive] at ran ⊢
    obtain ⟨_, g, entered, ran⟩ := Run.runBindOk ran
    obtain ⟨details, h, below, ran⟩ := Run.runBindOk ran
    cases ran
    rw [Run.runThen entered, Run.runThen (untilAgrees shown rest (depth + 1) below)]
    rfl
  | exclusion first second =>
    rw [evaluateNode] at ran ⊢
    obtain ⟨_, g, entered, ran⟩ := Run.runBindOk ran
    obtain ⟨l, h, ranLeft, ran⟩ := Run.runBindOk ran
    obtain ⟨r, _, ranRight, ran⟩ := Run.runBindOk ran
    cases ran
    rw [Run.runThen entered, Run.runThen (nodeAgrees first (depth + 1) ranLeft),
      Run.runThen (nodeAgrees second (depth + 1) ranRight)]
    rfl
  | negation below =>
    rw [evaluateNode] at ran ⊢
    obtain ⟨_, g, entered, ran⟩ := Run.runBindOk ran
    obtain ⟨r, _, went, ran⟩ := Run.runBindOk ran
    cases ran
    rw [Run.runThen entered, Run.runThen (nodeAgrees below (depth + 1) went)]
    rfl
theorem untilAgrees {stop : Bool} {details : List Trace} {seen seen' unseen unseen' : List Condition}
    (shown : AgreeEach details seen seen') (rest : unseen = unseen' ∨ Settled stop details) (depth : Nat)
    {f after : Frame}
    (ran : (e.evaluateUntil token depth stop (seen ++ unseen)).run f = (.ok details, after)) :
    (e.evaluateUntil token depth stop (seen' ++ unseen')).run f = (.ok details, after) := by
  cases shown with
  | nil =>
    rcases rest with rfl | ⟨_, last, _⟩
    · exact ran
    · cases last
  | cons first later =>
    rw [List.cons_append, evaluateUntil] at ran ⊢
    obtain ⟨t, g, went, ran⟩ := Run.runBindOk ran
    split at ran
    · rename_i decides
      cases ran
      rw [Run.runThen (nodeAgrees first depth went), if_pos decides]
      rfl
    · -- this node does not decide, so one that does must come later
      rename_i goes
      obtain ⟨more, _, onward, ran⟩ := Run.runBindOk ran
      cases ran
      have ends := rest.imp_right (settledOnward (by simpa using goes)).mp
      rw [Run.runThen (nodeAgrees first depth went), if_neg goes,
        Run.runThen (untilAgrees later ends depth onward)]
      rfl
end

/-- The trace of a tree that was evaluated explains the answer, and every other tree that agrees on what the
trace shows has the same answer and the same trace. Only the absent tree matches without a trace. -/
theorem traceExplains {tree : Condition} {f after : Frame} {matched : Bool} {shown : Option Trace}
    (ran : (e.evaluate tree token).run f = (.ok (matched, shown), after)) :
    (tree = .inert .null ∧ matched = true ∧ shown = none) ∨
      ∃ t, shown = some t ∧ matched = t.value ∧ e.Explains token 0 tree f t ∧
        ∀ other, AgreeOn t tree other → (e.evaluate other token).run f = (.ok (matched, some t), after) := by
  by_cases absent : tree = .inert .null
  · subst absent
    cases ran
    exact .inl ⟨rfl, rfl, rfl⟩
  · rw [((treeCases tree).resolve_left absent).1] at ran
    obtain ⟨t, g, below, ran⟩ := Run.runBindOk ran
    cases ran
    refine .inr ⟨t, rfl, rfl, nodeExplained 0 tree below, fun other agree => ?_⟩
    have there : other ≠ .inert .null := fun gone => absent (agree.absent.mp gone)
    rw [((treeCases other).resolve_left there).1, Run.runThen (nodeAgrees agree 0 below)]
    rfl

end

def shortTree (last : Condition) : Condition :=
  .logical .and [.logical .or [.literal true, last], .not (some (.literal true)), last]

def shortTrace : Trace :=
  .logical "and" false [.logical "or" true [.literal true], .logical "not" false [.literal true]]

theorem traceExplainsShort :
    ({ trial with maxDepth := 2 }.evaluate (shortTree .headless) (.root 0 none "rule")).run trialFrame =
        (.ok (false, some shortTrace), trialFrame) ∧
      AgreeOn shortTrace (shortTree .headless) (shortTree (.childless "or")) ∧
      ({ trial with maxDepth := 2 }.evaluate (shortTree (.childless "or")) (.root 0 none "rule")).run trialFrame =
        (.ok (false, some shortTrace), trialFrame) := by
  have ran : ({ trial with maxDepth := 2 }.evaluate (shortTree .headless) (.root 0 none "rule")).run trialFrame =
      (.ok (false, some shortTrace), trialFrame) := by rfl
  have either : AgreeOn (.logical "or" true [.literal true]) (.logical .or [.literal true, .headless])
      (.logical .or [.literal true, .childless "or"]) :=
    @AgreeOn.junction .or true true [.literal true] [.literal true] [.literal true] [.headless] [.childless "or"]
      rfl (.cons .same .nil) (.inr ⟨_, rfl, rfl⟩)
  have agree : AgreeOn shortTrace (shortTree .headless) (shortTree (.childless "or")) :=
    @AgreeOn.junction .and false false [_, .logical "not" false [.literal true]] [_, .not (some (.literal true))]
      [_, .not (some (.literal true))] [.headless] [.childless "or"]
      rfl (.cons either (.cons .same .nil)) (.inr ⟨_, rfl, rfl⟩)
  refine ⟨ran, agree, ?_⟩
  rcases traceExplains ran with ⟨_, _, none⟩ | ⟨t, same, _, _, alike⟩
  · cases none
  · cases same
    exact alike _ agree

/-- A negation of nothing matches, and its trace has no detail to negate. -/
theorem bareUnexplained :
    Condition.ofValue (Condition.negated .null) = .not none ∧
      ∃ t, ((trial.evaluate (.not none) (.root 0 none "rule")).run trialFrame).1 = .ok (true, some t) ∧
        ¬ ∃ inner, t = .logical Operator.not.name (!inner.value) [inner] := by
  refine ⟨rfl, .logical Operator.not.name true [], rfl, ?_⟩
  rintro ⟨inner, same⟩
  injection same with _ _ details
  cases details

end Evaluator
end DecisionRules
