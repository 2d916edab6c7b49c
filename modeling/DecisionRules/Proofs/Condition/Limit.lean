import DecisionRules.Proofs.Condition.Depth
import DecisionRules.Proofs.Expression.Failing

/-! What a limit on depth does to an evaluation. It refuses every node below it that the evaluation arrives
at, and makes no difference otherwise. -/
namespace DecisionRules

def Failure.isDepth : Failure → Bool
  | depthExceeded _ _ => true
  | _ => false

namespace Evaluator

def within (e : Evaluator) (limit : Int) : Evaluator := { e with maxDepth := limit }

/-! What a limit makes of an answer -/

def refused (limit : Int) (arrived : List Nat) : Option Nat :=
  arrived.find? fun depth : Nat => decide (limit < depth)

theorem refusedAppend (limit : Int) (here there : List Nat) :
    refused limit (here ++ there) = (refused limit here).or (refused limit there) := List.find?_append

/-- The first depth beyond the limit is refused; if there is none, all is as without the limit. -/
def Limited {α : Type} (limit : Int) (arrived : List Nat) (r free : Outcome α × Frame) : Prop :=
  match refused limit arrived with
  | some depth => r.1 = .error (.depthExceeded depth limit)
  | none => r = free

namespace Limited
variable {α β : Type} {limit : Int} {f : Frame}

theorem same (r : Outcome α × Frame) : Limited limit [] r r := rfl

theorem bind (here there : List Nat) {m m' : Run Frame α} {k k' : α → Run Frame β}
    (first : Limited limit here (m.run f) (m'.run f))
    (next : ∀ a t, m'.run f = (.ok a, t) → Limited limit there ((k a).run t) ((k' a).run t))
    (ended : ∀ g t, m'.run f = (.error g, t) → there = []) :
    Limited limit (here ++ there) ((m >>= k).run f) ((m' >>= k').run f) := by
  unfold Limited at first ⊢
  rw [refusedAppend, Run.runBind, Run.runBind]
  cases found : refused limit here with
  | some depth =>
    rw [found] at first
    cases ran : m.run f with
    | mk r t =>
      rw [ran] at first
      cases (first : r = _)
      rfl
  | none =>
    rw [found] at first
    rw [Option.none_or, show m.run f = m'.run f from first]
    cases ran : m'.run f with
    | mk r t => cases r with
      | ok a => exact next a t ran
      | error g =>
        rw [ended g t ran]
        rfl

/-- An answer that is only worked on has the limit that it had. -/
theorem onward {m m' : Run Frame α} {here : List Nat} (first : Limited limit here (m.run f) (m'.run f))
    (k : α → Run Frame β) : Limited limit here ((m >>= k).run f) ((m' >>= k).run f) := by
  rw [← here.append_nil]
  exact bind here [] first (fun a t _ => same _) fun _ _ _ => rfl

end Limited

section
variable {e : Evaluator} {token : Token Float} {limit : Int}

theorem enterLimited {depth : Nat} (room : (depth : Int) ≤ limit) (f : Frame) :
    Limited e.maxDepth [depth] ((e.enter token depth).run f)
      (((e.within limit).enter token depth).run f) := by
  have allowed : ¬ (e.within limit).maxDepth < depth := by
    change ¬ limit < (depth : Int)
    omega
  unfold Limited refused enter
  by_cases deep : e.maxDepth < depth
  · simp [deep, Run.runThrow]
  · simp [deep, allowed]

mutual
theorem nodeLimited (depth : Nat) (c : Condition) (f : Frame) (room : ((depth + c.depth : Nat) : Int) ≤ limit) :
    Limited e.maxDepth ((e.within limit).arrivals token depth c f)
      ((e.evaluateNode token depth c).run f) (((e.within limit).evaluateNode token depth c).run f) := by
  rw [arrivals, evaluateNode.eq_def e token depth c, evaluateNode.eq_def (e.within limit) token depth c]
  refine Limited.bind [depth] _ (enterLimited (by omega) f) (fun u t entered => ?_)
    fun g t entered => by rw [entered]
  obtain rfl := enterOk entered
  rw [entered]
  cases c with
  | logical op children =>
    unfold Condition.depth at room
    cases op with
    | and => exact (untilLimited (depth + 1) false children _ (by omega)).onward _
    | or => exact (untilLimited (depth + 1) true children _ (by omega)).onward _
    | xor =>
      match children, room with
      | [], _ => exact Limited.same _
      | [_], _ => exact Limited.same _
      | _ :: _ :: _ :: _, _ => exact Limited.same _
      | [left, right], room =>
        simp only [Condition.depthBelow] at room
        refine Limited.bind _ _ (nodeLimited (depth + 1) left _ (by omega)) (fun l t ran => ?_)
          fun g t ran => by simp only [ran]
        simp only [ran]
        exact (nodeLimited (depth + 1) right t (by omega)).onward _
  | not child => cases child with
    | none => exact Limited.same _
    | some child =>
      simp only [Condition.depth] at room
      exact (nodeLimited (depth + 1) child _ (by omega)).onward _
  | _ => exact Limited.same _
theorem untilLimited (depth : Nat) (stop : Bool) (cs : List Condition) (f : Frame)
    (room : ((depth + Condition.depthBelow cs : Nat) : Int) ≤ limit + 1) :
    Limited e.maxDepth ((e.within limit).arrivalsUntil token depth stop cs f)
      ((e.evaluateUntil token depth stop cs).run f)
      (((e.within limit).evaluateUntil token depth stop cs).run f) := by
  rw [arrivalsUntil.eq_def, evaluateUntil.eq_def e token depth stop cs,
    evaluateUntil.eq_def (e.within limit) token depth stop cs]
  cases cs with
  | nil => exact Limited.same _
  | cons c rest =>
    simp only [Condition.depthBelow] at room
    refine Limited.bind _ _ (nodeLimited depth c f (by omega)) (fun t after ran => ?_)
      fun g after ran => by simp only [ran]
    simp only [ran]
    split
    · exact Limited.same _
    · exact (untilLimited depth stop rest after (by omega)).onward _
end

/-! With room for the whole tree, nothing in the tree is refused for its depth. -/

/-- Work that is never refused for its depth -/
def Shallow {α : Type} (m : Run Frame α) : Prop := ∀ f, Run.Spares Failure.isDepth m f

namespace Shallow
variable {α β : Type}

theorem pure (a : α) : Shallow (Pure.pure a) := fun _ => .pure a

theorem throw {failure : Failure} (other : failure.isDepth = false) :
    Shallow (MonadExcept.throw failure : Run Frame α) := fun _ => .throw other

theorem bind {m : Run Frame α} {k : α → Run Frame β} (first : Shallow m) (next : ∀ a, Shallow (k a)) :
    Shallow (m >>= k) := fun f => .bind (first f) fun a t _ => next a t

theorem read {k : Frame → Run Frame β} (next : ∀ f, Shallow (k f)) : Shallow (get >>= k) :=
  fun f => .read (next f f)

theorem basic (r : Except Breach α) : Shallow (Evaluator.basic r) := fun _ => .basic (fun _ => rfl) r

theorem outcome {r : Outcome α} (other : Avoids Failure.isDepth r) : Shallow (Evaluator.outcome r) :=
  fun _ => .outcome other

theorem branch {c : Prop} [Decidable c] {m k : Run Frame α} (yes : Shallow m) (no : Shallow k) :
    Shallow (if c then m else k) := by
  split
  · exact yes
  · exact no

end Shallow

theorem resolvedShallow (v : Value) : Shallow (resolved v) := .read fun _ => .basic _

theorem resolvedTextShallow (v : Value) : Shallow (resolvedText v) :=
  .bind (resolvedShallow v) fun _ => .basic _

theorem checkAvoids (token : Token Float) (now : Float) : Avoids Failure.isDepth (token.check now) :=
  .branch (.error rfl) (.branch (.error rfl) (.ok ()))

theorem compilePatternAvoids (source : String) (ignoreCase : Bool) :
    Avoids Failure.isDepth (compilePattern source ignoreCase) := by
  unfold compilePattern
  split
  · exact .ok _
  all_goals exact .error rfl

theorem evaluateExpressionShallow (source : String) : Shallow (e.evaluateExpression source) := by
  refine .branch (.bind (.throw rfl) fun _ => ?_) ?_ <;>
    exact .read fun _ => .bind (.basic _) fun text =>
      .bind (.outcome (Expression.holdsAvoids ⟨fun _ => rfl, fun _ => rfl⟩ text)) fun _ => .pure _

theorem evaluateInclusionShallow (negated : Bool) (left right : Value) :
    Shallow (evaluateInclusion negated left right) := by
  refine .bind (resolvedShallow left) fun l => .bind (resolvedShallow right) fun r => ?_
  split
  · exact .pure _
  · exact .throw rfl

theorem patternOfShallow (operand : Value) : Shallow (patternOf operand) := by
  have compiled (source : String) (ignoreCase : Bool) :
      Shallow (do return (source, ← outcome (compilePattern source ignoreCase))) :=
    .bind (.outcome (compilePatternAvoids _ _)) fun _ => .pure _
  unfold patternOf
  split <;> refine .bind (by first | exact resolvedShallow _ | exact .pure _) fun v => ?_
  all_goals
    dsimp only
    split
    · exact compiled _ _
    · exact compiled _ _
    · exact .throw rfl

theorem evaluateBetweenShallow (value range : Value) : Shallow (evaluateBetween value range) := by
  refine .bind (resolvedShallow value) fun v => .bind (resolvedShallow range) fun bounds => ?_
  split
  · exact .pure _
  · exact .throw rfl

theorem evaluateExistenceShallow (field : Value) : Shallow (evaluateExistence field) := by
  unfold evaluateExistence
  split
  · exact .read fun _ => .bind (.basic _) fun _ => .pure _
  · exact .pure _
  · exact .throw rfl

theorem callHostShallow {name : String} {args : List Argument} {limit : Token Float}
    (quiet : ∀ args f failure, (e.host.call name args f).1 = .failed failure → failure.isDepth = false) :
    Shallow (callHost e.host name args limit) := by
  refine .read fun f => .bind (.outcome (checkAvoids limit f.clock)) fun _ => ?_
  have answers := quiet args f
  cases called : e.host.call name args f with
  | mk reply after =>
    rw [called] at answers
    refine .bind (fun _ _ failed => by cases failed) fun _ => ?_
    cases reply with
    | answered v => exact .pure v
    | failed failure => exact .throw (answers failure rfl)
    | stalled => exact .throw rfl

/-- None of the callables that conditions may name fails as if a tree were too deep. -/
def DepthQuiet (e : Evaluator) : Prop :=
  ∀ name ∈ Assoc.values e.operators.functions ++ Assoc.values e.operators.operators,
    ∀ args f failure, (e.host.call name args f).1 = .failed failure → failure.isDepth = false

theorem evaluateFunctionShallow (quiet : e.DepthQuiet) (name : Value) (args : Option Value) :
    Shallow (e.evaluateFunction name args token) := by
  refine .bind (.basic _) fun items => .read fun f => .bind (.basic _) fun values => ?_
  split
  · rename_i s
    dsimp only
    split
    · exact .bind (.basic _) fun _ => .pure _
    · split
      · rename_i fn found
        have member : fn ∈ Assoc.values e.operators.functions :=
          List.mem_map.mpr ⟨(s, fn), Assoc.memOfGet found, rfl⟩
        exact .bind (callHostShallow (quiet fn (List.mem_append_left _ member))) fun _ => .pure _
      · exact .throw rfl
  · unfold Condition.unknownFunction
    refine .throw ?_
    split <;> rfl

theorem evaluateCustomShallow (quiet : e.DepthQuiet) (op : String) (node : Fields) :
    Shallow (e.evaluateCustom op node token) := by
  unfold evaluateCustom
  split
  · exact .throw rfl
  · rename_i fn found
    have member : fn ∈ Assoc.values e.operators.operators :=
      List.mem_map.mpr ⟨(op, fn), Assoc.memOfGet found, rfl⟩
    exact .read fun _ => .bind (callHostShallow (quiet fn (List.mem_append_right _ member)))
      fun _ => .pure _

theorem enterShallow {depth : Nat} (room : (depth : Int) ≤ e.maxDepth) :
    Shallow (e.enter token depth) := by
  unfold enter
  rw [if_neg (by omega)]
  exact .read fun f => .outcome (checkAvoids token f.clock)

mutual
theorem nodeShallow (quiet : e.DepthQuiet) (depth : Nat) (c : Condition)
    (room : ((depth + c.depth : Nat) : Int) ≤ e.maxDepth) : Shallow (e.evaluateNode token depth c) := by
  rw [evaluateNode.eq_def]
  refine .bind (enterShallow (by omega)) fun _ => ?_
  cases c with
  | logical op children =>
    unfold Condition.depth at room
    cases op with
    | and => exact .bind (untilShallow quiet depth false children room) fun _ => .pure _
    | or => exact .bind (untilShallow quiet depth true children room) fun _ => .pure _
    | xor =>
      match children, room with
      | [], _ => exact .throw rfl
      | [_], _ => exact .throw rfl
      | _ :: _ :: _ :: _, _ => exact .throw rfl
      | [left, right], room =>
        simp only [Condition.depthBelow] at room
        exact .bind (nodeShallow quiet (depth + 1) left (by omega)) fun _ =>
          .bind (nodeShallow quiet (depth + 1) right (by omega)) fun _ => .pure _
  | not child => cases child with
    | none => exact .pure _
    | some child =>
      simp only [Condition.depth] at room
      exact .bind (nodeShallow quiet (depth + 1) child (by omega)) fun _ => .pure _
  | literal b => exact .pure _
  | expression source => exact evaluateExpressionShallow source
  | inert v => exact .pure _
  | headless => exact .throw rfl
  | childless op => exact .throw rfl
  | comparison op left right =>
    exact .bind (resolvedShallow left) fun _ => .bind (resolvedShallow right) fun _ => .pure _
  | inclusion negated left right => exact evaluateInclusionShallow negated left right
  | text op left right =>
    exact .bind (resolvedTextShallow left) fun _ => .bind (resolvedTextShallow right) fun _ => .pure _
  | matching left pattern =>
    exact .bind (resolvedTextShallow left) fun _ => .bind (patternOfShallow pattern) fun _ => .pure _
  | between value range => exact evaluateBetweenShallow value range
  | existence field => exact evaluateExistenceShallow field
  | function name args => exact evaluateFunctionShallow quiet name args
  | custom op node => exact evaluateCustomShallow quiet op node
theorem untilShallow (quiet : e.DepthQuiet) (depth : Nat) (stop : Bool) (cs : List Condition)
    (room : ((depth + Condition.depthBelow cs : Nat) : Int) ≤ e.maxDepth) :
    Shallow (e.evaluateUntil token (depth + 1) stop cs) := by
  rw [evaluateUntil.eq_def]
  cases cs with
  | nil => exact .pure _
  | cons c rest =>
    simp only [Condition.depthBelow] at room
    refine .bind (nodeShallow quiet (depth + 1) c (by omega)) fun t => .branch (.pure _) ?_
    exact .bind (untilShallow quiet depth stop rest (by omega)) fun _ => .pure _
end

/-! Trees -/

theorem treeLimited (tree : Condition) (f : Frame) :
    Limited e.maxDepth ((e.within tree.depth).treeArrivals token tree f) ((e.evaluate tree token).run f)
      (((e.within tree.depth).evaluate tree token).run f) := by
  rcases treeCases tree with rfl | ⟨rooted, arrived⟩
  · exact Limited.same _
  · rw [rooted, rooted, arrived]
    exact (nodeLimited 0 tree f (by omega)).onward _

theorem treeShallow (quiet : e.DepthQuiet) {tree : Condition} (room : (tree.depth : Int) ≤ e.maxDepth) :
    Shallow (e.evaluate tree token) := by
  unfold evaluate
  split
  · exact .pure _
  · exact .bind (nodeShallow quiet 0 tree (by omega)) fun _ => .pure _

end
end Evaluator
end DecisionRules
