import DecisionRules.Proofs.Run
import DecisionRules.Proofs.Scope

/-! Conditions by what they call. As long as their calls come out alike, conditions see nothing of the scope
but what is found under names and change nothing; clock, counter, host and token decide no more than whether
they may run. Plain conditions call neither functions nor operators of their own. -/
namespace DecisionRules

namespace Condition

mutual
def plain : Condition → Bool
  | function .. => false
  | custom .. => false
  | logical _ children => allPlain children
  | not (some child) => child.plain
  | _ => true
def allPlain : List Condition → Bool
  | [] => true
  | c :: rest => c.plain && allPlain rest
end

mutual
/-- Does the tree call only functions and operators among the given ones? -/
def callsOnly (functions : Value → Bool) (operators : String → Bool) : Condition → Bool
  | function name _ => functions name
  | custom op _ => operators op
  | logical _ children => allCallOnly functions operators children
  | not (some child) => child.callsOnly functions operators
  | _ => true
def allCallOnly (functions : Value → Bool) (operators : String → Bool) : List Condition → Bool
  | [] => true
  | c :: rest => c.callsOnly functions operators && allCallOnly functions operators rest
end

mutual
theorem plainCalls : ∀ c : Condition, c.plain = c.callsOnly (fun _ => false) fun _ => false
  | function _ _ => rfl
  | custom _ _ => rfl
  | logical _ children => allPlainCall children
  | not none => rfl
  | not (some child) => plainCalls child
  | literal _ => rfl
  | expression _ => rfl
  | inert _ => rfl
  | headless => rfl
  | childless _ => rfl
  | comparison _ _ _ => rfl
  | inclusion _ _ _ => rfl
  | text _ _ _ => rfl
  | matching _ _ => rfl
  | between _ _ => rfl
  | existence _ => rfl
theorem allPlainCall : ∀ cs : List Condition, allPlain cs = allCallOnly (fun _ => false) (fun _ => false) cs
  | [] => rfl
  | c :: rest => by rw [allPlain, allCallOnly, plainCalls c, allPlainCall rest]
end

end Condition

namespace Evaluator

open Run (Alike)

def Fixed (f f' : Frame) (t t' : Frame) : Prop := t = f ∧ t' = f'

variable {f f' : Frame}

theorem readFixed {α : Type} {k k' : Frame → Run Frame α} (next : Alike (Fixed f f') (k f) (k' f')) :
    Alike (Fixed f f') (get >>= k) (get >>= k') := by
  refine Alike.read ?_
  rintro s s' ⟨rfl, rfl⟩
  exact next

def Shows (R : Frame → Frame → Prop) : Prop := ∀ f f', R f f' → f.scope.lookup = f'.scope.lookup

section Leaves
variable {R : Frame → Frame → Prop}

theorem resolvedAlike (shows : Shows R) (v : Value) : Alike R (resolved v) (resolved v) := by
  refine Alike.read fun f f' related => ?_
  rw [Scope.resolveSame (shows f f' related)]
  exact Alike.basic _

theorem resolvedTextAlike (shows : Shows R) (v : Value) : Alike R (resolvedText v) (resolvedText v) :=
  Alike.bind (resolvedAlike shows v) fun _ => Alike.basic _

theorem evaluateExpressionAlike (shows : Shows R) {e e' : Evaluator}
    (allowed : e.unsafeAllowed = e'.unsafeAllowed) (source : String) :
    Alike R (e.evaluateExpression source) (e'.evaluateExpression source) := by
  unfold evaluateExpression
  rw [allowed]
  refine Alike.branch (Alike.bind (Alike.throw _) fun _ => ?_) ?_
  all_goals
    refine Alike.read fun f f' related => ?_
    rw [Scope.literalsSame (shows f f' related)]
    refine Alike.bind (Alike.basic _) fun text => ?_
    exact Alike.bind (Alike.outcome _) fun b => Alike.pure _

theorem evaluateInclusionAlike (shows : Shows R) (negated : Bool) (left right : Value) :
    Alike R (evaluateInclusion negated left right) (evaluateInclusion negated left right) := by
  refine Alike.bind (resolvedAlike shows left) fun l => ?_
  refine Alike.bind (resolvedAlike shows right) fun r => ?_
  cases r with
  | list items => exact Alike.pure _
  | _ => exact Alike.throw _

theorem patternOfAlike (shows : Shows R) (operand : Value) :
    Alike R (patternOf operand) (patternOf operand) := by
  unfold patternOf
  split
  · refine Alike.bind (resolvedAlike shows _) fun v => ?_
    cases v with
    | text s => exact Alike.bind (Alike.outcome _) fun _ => Alike.pure _
    | pattern s i => exact Alike.bind (Alike.outcome _) fun _ => Alike.pure _
    | _ => exact Alike.throw _
  · refine Alike.bind (Alike.pure _) fun v => ?_
    cases v with
    | text s => exact Alike.bind (Alike.outcome _) fun _ => Alike.pure _
    | pattern s i => exact Alike.bind (Alike.outcome _) fun _ => Alike.pure _
    | _ => exact Alike.throw _

theorem evaluateBetweenAlike (shows : Shows R) (value range : Value) :
    Alike R (evaluateBetween value range) (evaluateBetween value range) := by
  refine Alike.bind (resolvedAlike shows value) fun v => ?_
  refine Alike.bind (resolvedAlike shows range) fun bounds => ?_
  split
  · exact Alike.pure _
  · exact Alike.throw _

theorem evaluateExistenceAlike (shows : Shows R) (field : Value) :
    Alike R (evaluateExistence field) (evaluateExistence field) := by
  unfold evaluateExistence
  split
  · refine Alike.read fun f f' related => ?_
    rw [shows f f' related]
    exact Alike.bind (Alike.basic _) fun found => Alike.pure _
  · exact Alike.pure _
  · exact Alike.throw _

theorem enterAlike {e e' : Evaluator} (deep : e.maxDepth = e'.maxDepth) {token token' : Token Float}
    (check : ∀ f f', R f f' → token.check f.clock = token'.check f'.clock) (depth : Nat) :
    Alike R (e.enter token depth) (e'.enter token' depth) := by
  unfold enter
  rw [deep]
  refine Alike.branch (Alike.bind (Alike.throw _) fun _ => ?_) ?_
  all_goals
    refine Alike.read fun f f' related => ?_
    rw [check f f' related]
    exact Alike.outcome _

end Leaves

/-- What two evaluators and two tokens must share from related frames for conditions with these calls to come
out alike. -/
structure Kindred (functions : Value → Bool) (operators : String → Bool) (e e' : Evaluator)
    (token token' : Token Float) (R : Frame → Frame → Prop) : Prop where
  deep : e.maxDepth = e'.maxDepth
  allowed : e.unsafeAllowed = e'.unsafeAllowed
  shows : Shows R
  check : ∀ f f', R f f' → token.check f.clock = token'.check f'.clock
  function : ∀ name args, functions name = true →
    Alike R (e.evaluateFunction name args token) (e'.evaluateFunction name args token')
  custom : ∀ op node, operators op = true →
    Alike R (e.evaluateCustom op node token) (e'.evaluateCustom op node token')

/-- What two evaluators, two frames and two tokens must share for conditions with these calls to come out
alike. -/
structure Akin (functions : Value → Bool) (operators : String → Bool) (e e' : Evaluator)
    (token token' : Token Float) (f f' : Frame) : Prop where
  deep : e.maxDepth = e'.maxDepth
  allowed : e.unsafeAllowed = e'.unsafeAllowed
  scope : f.scope = f'.scope
  check : token.check f.clock = token'.check f'.clock
  function : ∀ name args, functions name = true →
    Alike (Fixed f f') (e.evaluateFunction name args token) (e'.evaluateFunction name args token')
  custom : ∀ op node, operators op = true →
    Alike (Fixed f f') (e.evaluateCustom op node token) (e'.evaluateCustom op node token')

theorem Akin.kindred {functions : Value → Bool} {operators : String → Bool} {e e' : Evaluator}
    {token token' : Token Float} (akin : Akin functions operators e e' token token' f f') :
    Kindred functions operators e e' token token' (Fixed f f') where
  deep := akin.deep
  allowed := akin.allowed
  shows := fun _ _ ⟨left, right⟩ => by rw [left, right, akin.scope]
  check := fun _ _ ⟨left, right⟩ => by rw [left, right, akin.check]
  function := akin.function
  custom := akin.custom

section Calls
variable {functions : Value → Bool} {operators : String → Bool} {e e' : Evaluator}
  {token token' : Token Float} {R : Frame → Frame → Prop}

mutual
theorem evaluateNodeAlike (kin : Kindred functions operators e e' token token' R) (depth : Nat)
    (c : Condition) (calls : c.callsOnly functions operators = true) :
    Alike R (e.evaluateNode token depth c) (e'.evaluateNode token' depth c) := by
  unfold evaluateNode
  refine Alike.bind (enterAlike kin.deep kin.check depth) fun _ => ?_
  cases c with
  | literal b => exact Alike.pure _
  | expression source => exact evaluateExpressionAlike kin.shows kin.allowed source
  | inert v => exact Alike.pure _
  | headless => exact Alike.throw _
  | childless op => exact Alike.throw _
  | logical op children => cases op with
    | and =>
      exact Alike.bind (evaluateUntilAlike kin _ _ children calls) fun details => Alike.pure _
    | or =>
      exact Alike.bind (evaluateUntilAlike kin _ _ children calls) fun details => Alike.pure _
    | xor =>
      match children, calls with
      | [], _ => exact Alike.throw _
      | [_], _ => exact Alike.throw _
      | [left, right], calls =>
        simp only [Condition.callsOnly, Condition.allCallOnly, Bool.and_true, Bool.and_eq_true] at calls
        refine Alike.bind (evaluateNodeAlike kin _ left calls.1) fun l => ?_
        exact Alike.bind (evaluateNodeAlike kin _ right calls.2) fun r => Alike.pure _
      | _ :: _ :: _ :: _, _ => exact Alike.throw _
  | not child => cases child with
    | none => exact Alike.pure _
    | some child => exact Alike.bind (evaluateNodeAlike kin _ child calls) fun t => Alike.pure _
  | comparison op left right =>
    refine Alike.bind (resolvedAlike kin.shows left) fun l => ?_
    exact Alike.bind (resolvedAlike kin.shows right) fun r => Alike.pure _
  | inclusion negated left right => exact evaluateInclusionAlike kin.shows negated left right
  | text op left right =>
    refine Alike.bind (resolvedTextAlike kin.shows left) fun l => ?_
    exact Alike.bind (resolvedTextAlike kin.shows right) fun r => Alike.pure _
  | matching left pattern =>
    refine Alike.bind (resolvedTextAlike kin.shows left) fun l => ?_
    exact Alike.bind (patternOfAlike kin.shows pattern) fun r => Alike.pure _
  | between value range => exact evaluateBetweenAlike kin.shows value range
  | existence field => exact evaluateExistenceAlike kin.shows field
  | function name args => exact kin.function name args calls
  | custom op node => exact kin.custom op node calls
theorem evaluateUntilAlike (kin : Kindred functions operators e e' token token' R) (depth : Nat)
    (stop : Bool) (cs : List Condition) (calls : Condition.allCallOnly functions operators cs = true) :
    Alike R (e.evaluateUntil token depth stop cs) (e'.evaluateUntil token' depth stop cs) := by
  unfold evaluateUntil
  cases cs with
  | nil => exact Alike.pure _
  | cons c rest =>
    simp only [Condition.allCallOnly, Bool.and_eq_true] at calls
    refine Alike.bind (evaluateNodeAlike kin _ c calls.1) fun t => ?_
    refine Alike.branch (Alike.pure _) ?_
    exact Alike.bind (evaluateUntilAlike kin _ stop rest calls.2) fun details => Alike.pure _
end

theorem evaluateRelated (kin : Kindred functions operators e e' token token' R) {tree : Condition}
    (calls : tree.callsOnly functions operators = true) :
    Alike R (e.evaluate tree token) (e'.evaluate tree token') := by
  unfold evaluate
  split
  · exact Alike.pure _
  · exact Alike.bind (evaluateNodeAlike kin 0 _ calls) fun t => Alike.pure _

theorem evaluateAlike (akin : Akin functions operators e e' token token' f f') {tree : Condition}
    (calls : tree.callsOnly functions operators = true) :
    ∃ r, (e.evaluate tree token).run f = (r, f) ∧ (e'.evaluate tree token').run f' = (r, f') := by
  obtain ⟨r, _, _, left, right, rfl, rfl⟩ := evaluateRelated akin.kindred calls f f' ⟨rfl, rfl⟩
  exact ⟨r, left, right⟩

end Calls

theorem plainAkin {e e' : Evaluator} {token token' : Token Float} (deep : e.maxDepth = e'.maxDepth)
    (allowed : e.unsafeAllowed = e'.unsafeAllowed) (scope : f.scope = f'.scope)
    (check : token.check f.clock = token'.check f'.clock) :
    Akin (fun _ => false) (fun _ => false) e e' token token' f f' :=
  ⟨deep, allowed, scope, check, nofun, nofun⟩

theorem enterDead {e : Evaluator} {token : Token Float} {f : Frame} {g : Failure}
    (dead : token.check f.clock = .error g) (depth : Nat) :
    ∃ g', (e.enter token depth).run f = (.error g', f) := by
  unfold enter
  split
  · exact ⟨_, by rw [Run.runBind, Run.runThrow]⟩
  · exact ⟨g, by rw [Run.runBind, Run.runGet]; dsimp only; rw [dead, Run.runOutcome]⟩

theorem evaluateDead {e : Evaluator} {token : Token Float} {f : Frame} {g : Failure}
    (dead : token.check f.clock = .error g) (tree : Condition) :
    tree = .inert .null ∨ ∃ g', (e.evaluate tree token).run f = (.error g', f) := by
  obtain ⟨g', entered⟩ := enterDead (e := e) dead 0
  unfold evaluate
  split
  · exact .inl rfl
  · refine .inr ⟨g', ?_⟩
    rw [Run.runBind, evaluateNode.eq_def, Run.runBind, entered]

theorem evaluateStill (e : Evaluator) (token : Token Float) (f : Frame) {tree : Condition}
    (plain : tree.plain = true) : ∃ r, (e.evaluate tree token).run f = (r, f) := by
  have akin := @plainAkin f f e e token token rfl rfl rfl rfl
  obtain ⟨r, still, _⟩ := evaluateAlike akin (tree.plainCalls ▸ plain)
  exact ⟨r, still⟩

theorem evaluateAgain {e e' : Evaluator} {token token' : Token Float} {tree : Condition}
    (plain : tree.plain = true) (deep : e.maxDepth = e'.maxDepth)
    (allowed : e.unsafeAllowed = e'.unsafeAllowed) (scope : f.scope = f'.scope)
    (live' : token'.check f'.clock = .ok ()) {verdict : Bool × Option Trace}
    (ok : ((e.evaluate tree token).run f).1 = .ok verdict) :
    ((e'.evaluate tree token').run f').1 = .ok verdict := by
  cases live : token.check f.clock with
  | ok _ =>
    have akin := plainAkin deep allowed scope (live.trans live'.symm)
    obtain ⟨r, left, right⟩ := evaluateAlike akin (tree.plainCalls ▸ plain)
    rw [left] at ok
    rw [right]
    exact ok
  | error g =>
    obtain rfl | ⟨g', failed⟩ := evaluateDead (e := e) live tree
    · exact ok
    · rw [failed] at ok
      cases ok

theorem literalClock (e : Evaluator) (token : Token Float) (b : Bool) :
    Alike (fun f f' : Frame => f.clock = f'.clock) (e.evaluate (.literal b) token)
      (e.evaluate (.literal b) token) := by
  refine Alike.bind (Alike.bind (Alike.branch (Alike.bind (Alike.throw _) fun _ => ?_) ?_)
    fun _ => Alike.pure _) fun _ => Alike.pure _
  all_goals
    refine Alike.read fun f f' same => ?_
    rw [same]
    exact Alike.outcome _

end Evaluator
end DecisionRules
