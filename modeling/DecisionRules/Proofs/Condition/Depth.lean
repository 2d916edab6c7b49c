import DecisionRules.Proofs.Condition.Soundness

/-! How deep an evaluation gets: the depths of the nodes that it arrives at, which the tree bounds and which
the trace of its answer shows. -/
namespace DecisionRules

namespace Trace

mutual
def depth : Trace → Nat
  | logical _ _ details => depthBelow details
  | _ => 0
def depthBelow : List Trace → Nat
  | [] => 0
  | t :: rest => max (t.depth + 1) (depthBelow rest)
end

def isLogical : Trace → Bool
  | logical .. => true
  | _ => false

theorem leafDepth {t : Trace} (leaf : t.isLogical = false) : t.depth = 0 := by
  cases t <;> first | rfl | cases leaf

end Trace

def Condition.isLogical : Condition → Bool
  | logical .. => true
  | not _ => true
  | _ => false

namespace Evaluator

mutual
/-- The depths of the nodes that an evaluation arrives at, in order. -/
def arrivals (e : Evaluator) (token : Token Float) (depth : Nat) (c : Condition) (f : Frame) :
    List Nat :=
  depth :: match (e.enter token depth).run f with
  | (.error _, _) => []
  | (.ok _, f) => match c with
    | .logical .and children => arrivalsUntil e token (depth + 1) false children f
    | .logical .or children => arrivalsUntil e token (depth + 1) true children f
    | .logical .xor [left, right] => arrivals e token (depth + 1) left f ++
      match (e.evaluateNode token (depth + 1) left).run f with
      | (.ok _, f) => arrivals e token (depth + 1) right f
      | (.error _, _) => []
    | .not (some child) => arrivals e token (depth + 1) child f
    | _ => []
def arrivalsUntil (e : Evaluator) (token : Token Float) (depth : Nat) (stop : Bool)
    (cs : List Condition) (f : Frame) : List Nat :=
  match cs with
  | [] => []
  | c :: rest => arrivals e token depth c f ++
    match (e.evaluateNode token depth c).run f with
    | (.ok t, f) => if t.value == stop then [] else arrivalsUntil e token depth stop rest f
    | (.error _, _) => []
end

/-- The absent tree has no node. -/
def treeArrivals (e : Evaluator) (token : Token Float) (tree : Condition) (f : Frame) : List Nat :=
  match tree with
  | .inert .null => []
  | tree => e.arrivals token 0 tree f

section
variable {e : Evaluator} {token : Token Float}

mutual
theorem arrivalsBounded (depth : Nat) (c : Condition) (f : Frame) :
    ∀ d ∈ e.arrivals token depth c f, d ≤ depth + c.depth := by
  rw [arrivals]
  refine List.forall_mem_cons.mpr ⟨by omega, ?_⟩
  split
  · simp
  · cases c with
    | logical op children =>
      unfold Condition.depth
      cases op with
      | and => exact untilBounded depth false children _
      | or => exact untilBounded depth true children _
      | xor =>
        match children with
        | [] => simp
        | [_] => simp
        | _ :: _ :: _ :: _ => simp
        | [left, right] =>
          simp only [Condition.depthBelow]
          refine List.forall_mem_append.mpr ⟨fun d member => ?_, ?_⟩
          · have below := arrivalsBounded (depth + 1) left _ d member
            omega
          · split
            · intro d member
              have below := arrivalsBounded (depth + 1) right _ d member
              omega
            · simp
    | not child => cases child with
      | none => simp
      | some child =>
        intro d member
        have below := arrivalsBounded (depth + 1) child _ d member
        simp only [Condition.depth]
        omega
    | _ => simp
theorem untilBounded (depth : Nat) (stop : Bool) (cs : List Condition) (f : Frame) :
    ∀ d ∈ e.arrivalsUntil token (depth + 1) stop cs f, d ≤ depth + Condition.depthBelow cs := by
  rw [arrivalsUntil.eq_def]
  cases cs with
  | nil => simp
  | cons c rest =>
    simp only [Condition.depthBelow]
    refine List.forall_mem_append.mpr ⟨fun d member => ?_, ?_⟩
    · have below := arrivalsBounded (depth + 1) c f d member
      omega
    · split
      · split
        · simp
        · intro d member
          have below := untilBounded depth stop rest _ d member
          omega
      · simp
end

/-! An answer shows how deep the evaluation got. -/

/-- The deepest arrivals are at this depth. -/
def Deepest (arrived : List Nat) (depth : Nat) : Prop := depth ∈ arrived ∧ ∀ d ∈ arrived, d ≤ depth

/-- Work whose answer has nothing below it. -/
def Flat (m : Run Frame Trace) : Prop := ∀ f t after, m.run f = (.ok t, after) → t.isLogical = false

namespace Flat
variable {α : Type}

theorem pure {t : Trace} (flat : t.isLogical = false) : Flat (Pure.pure t) := by
  intro f u after ran
  cases ran
  exact flat

theorem throw (failure : Failure) : Flat (MonadExcept.throw failure) := fun _ _ _ ran => by cases ran

theorem bind {m : Run Frame α} {k : α → Run Frame Trace} (next : ∀ a, Flat (k a)) : Flat (m >>= k) := by
  intro f t after ran
  obtain ⟨a, _, _, ran⟩ := Run.runBindOk ran
  exact next a _ t after ran

theorem branch {c : Prop} [Decidable c] {m k : Run Frame Trace} (yes : Flat m) (no : Flat k) :
    Flat (if c then m else k) := by
  split
  · exact yes
  · exact no

end Flat

theorem evaluateExpressionFlat (source : String) : Flat (e.evaluateExpression source) := by
  refine .branch (.bind fun _ => ?_) ?_ <;>
    exact .bind fun _ => .bind fun _ => .bind fun _ => .pure rfl

theorem evaluateInclusionFlat (negated : Bool) (left right : Value) :
    Flat (evaluateInclusion negated left right) := by
  refine .bind fun l => .bind fun r => ?_
  split
  · exact .pure rfl
  · exact .throw _

theorem evaluateBetweenFlat (value range : Value) : Flat (evaluateBetween value range) := by
  refine .bind fun v => .bind fun bounds => ?_
  split
  · exact .pure rfl
  · exact .throw _

theorem evaluateExistenceFlat (field : Value) : Flat (evaluateExistence field) := by
  unfold evaluateExistence
  split
  · exact .bind fun _ => .bind fun _ => .pure rfl
  · exact .pure rfl
  · exact .throw _

theorem evaluateFunctionFlat (name : Value) (args : Option Value) :
    Flat (e.evaluateFunction name args token) := by
  refine .bind fun items => .bind fun f => .bind fun values => ?_
  split
  · dsimp only
    split
    · exact .bind fun _ => .pure rfl
    · split
      · exact .bind fun _ => .pure rfl
      · exact .throw _
  · exact .throw _

theorem evaluateCustomFlat (op : String) (node : Fields) : Flat (e.evaluateCustom op node token) := by
  unfold evaluateCustom
  split
  · exact .throw _
  · exact .bind fun _ => .bind fun _ => .pure rfl

theorem nodeFlat (depth : Nat) {c : Condition} (single : c.isLogical = false) :
    Flat (e.evaluateNode token depth c) := by
  rw [evaluateNode.eq_def]
  refine .bind fun _ => ?_
  cases c with
  | logical op children => cases single
  | not child => cases single
  | literal b => exact .pure rfl
  | expression source => exact evaluateExpressionFlat source
  | inert v => exact .pure rfl
  | headless => exact .throw _
  | childless op => exact .throw _
  | comparison op left right => exact .bind fun _ => .bind fun _ => .pure rfl
  | inclusion negated left right => exact evaluateInclusionFlat negated left right
  | text op left right => exact .bind fun _ => .bind fun _ => .pure rfl
  | matching left pattern => exact .bind fun _ => .bind fun _ => .pure rfl
  | between value range => exact evaluateBetweenFlat value range
  | existence field => exact evaluateExistenceFlat field
  | function name args => exact evaluateFunctionFlat name args
  | custom op node => exact evaluateCustomFlat op node

namespace Deepest

theorem alone (depth : Nat) : Deepest [depth] depth := by simp [Deepest]

theorem below {depth n low : Nat} {arrived later : List Nat} (first : Deepest arrived (depth + 1 + n))
    (rest : Deepest (depth :: later) (depth + low)) :
    Deepest (depth :: (arrived ++ later)) (depth + max (n + 1) low) := by
  obtain ⟨inside, bounds⟩ := first
  obtain ⟨among, covers⟩ := rest
  constructor
  · rcases Nat.le_total low (n + 1) with less | more
    · rw [Nat.max_eq_left less, show depth + (n + 1) = depth + 1 + n by omega]
      simp [inside]
    · rw [Nat.max_eq_right more]
      simp only [List.mem_cons, List.mem_append] at among ⊢
      tauto
  · intro d member
    have most : d ≤ depth + 1 + n ∨ d ≤ depth + low := by
      simp only [List.mem_cons, List.mem_append] at member
      rcases member with rfl | member | member
      · exact .inr (covers _ List.mem_cons_self)
      · exact .inl (bounds d member)
      · exact .inr (covers d (List.mem_cons_of_mem _ member))
    omega

theorem onlyBelow {depth n : Nat} {arrived : List Nat} (first : Deepest arrived (depth + 1 + n)) :
    Deepest (depth :: arrived) (depth + max (n + 1) 0) := by
  have base : Deepest [depth] (depth + 0) := alone depth
  have whole := first.below base
  rwa [List.append_nil] at whole

end Deepest

mutual
/-- An answer shows how deep its evaluation got. -/
theorem nodeDeepest (depth : Nat) (c : Condition) (f : Frame) {t : Trace} {after : Frame}
    (ran : (e.evaluateNode token depth c).run f = (.ok t, after)) :
    Deepest (e.arrivals token depth c f) (depth + t.depth) := by
  have leaf (single : c.isLogical = false) : Deepest [depth] (depth + t.depth) := by
    rw [Trace.leafDepth (nodeFlat depth single f t after ran)]
    exact .alone depth
  rw [evaluateNode.eq_def] at ran
  obtain ⟨u, g, entered, ran⟩ := Run.runBindOk ran
  rw [arrivals, entered]
  dsimp only
  cases c with
  | logical op children =>
    cases op with
    | and =>
      obtain ⟨details, _, below, ran⟩ := Run.runBindOk ran
      cases ran
      exact untilDeepest depth false children g below
    | or =>
      obtain ⟨details, _, below, ran⟩ := Run.runBindOk ran
      cases ran
      exact untilDeepest depth true children g below
    | xor =>
      match children with
      | [] => cases ran
      | [_] => cases ran
      | _ :: _ :: _ :: _ => cases ran
      | [left, right] =>
        obtain ⟨l, h, first, ran⟩ := Run.runBindOk ran
        obtain ⟨r, _, second, ran⟩ := Run.runBindOk ran
        cases ran
        dsimp only
        rw [first]
        exact (nodeDeepest (depth + 1) left g first).below
          (nodeDeepest (depth + 1) right h second).onlyBelow
  | not child => cases child with
    | none =>
      cases ran
      exact .alone depth
    | some child =>
      obtain ⟨r, _, below, ran⟩ := Run.runBindOk ran
      cases ran
      exact (nodeDeepest (depth + 1) child g below).onlyBelow
  | _ => exact leaf rfl
theorem untilDeepest (depth : Nat) (stop : Bool) (cs : List Condition) (f : Frame) {details : List Trace}
    {after : Frame} (ran : (e.evaluateUntil token (depth + 1) stop cs).run f = (.ok details, after)) :
    Deepest (depth :: e.arrivalsUntil token (depth + 1) stop cs f) (depth + Trace.depthBelow details) := by
  rw [evaluateUntil.eq_def] at ran
  rw [arrivalsUntil.eq_def]
  cases cs with
  | nil =>
    cases ran
    exact .alone depth
  | cons c rest =>
    obtain ⟨t, g, first, ran⟩ := Run.runBindOk ran
    have here := nodeDeepest (depth + 1) c f first
    dsimp only
    rw [first]
    dsimp only
    split at ran
    · rename_i decided
      cases ran
      rw [if_pos decided, List.append_nil]
      exact here.onlyBelow
    · rename_i goes
      obtain ⟨more, _, later, ran⟩ := Run.runBindOk ran
      cases ran
      rw [if_neg goes]
      exact here.below (untilDeepest depth stop rest g later)
end

/-! Trees -/

/-- The absent tree apart, a tree is evaluated from its root. -/
theorem treeCases (tree : Condition) : tree = .inert .null ∨
    (∀ e : Evaluator, e.evaluate tree token = do
      let t ← e.evaluateNode token 0 tree
      return (t.value, some t)) ∧
    ∀ (e : Evaluator) (f : Frame), e.treeArrivals token tree f = e.arrivals token 0 tree f := by
  by_cases absent : tree = .inert .null
  · exact .inl absent
  · refine .inr ⟨fun e => ?_, fun e f => ?_⟩
    · unfold evaluate
      split
      · exact absurd rfl absent
      · rfl
    · unfold treeArrivals
      split
      · exact absurd rfl absent
      · rfl

theorem treeBounded (tree : Condition) (f : Frame) : ∀ d ∈ e.treeArrivals token tree f, d ≤ tree.depth := by
  rcases treeCases tree with rfl | ⟨_, arrived⟩
  · simp [treeArrivals]
  · intro d member
    rw [arrived] at member
    have below := arrivalsBounded 0 tree f d member
    omega

theorem treeDeepest {tree : Condition} {f : Frame} {b : Bool} {t : Trace} {after : Frame}
    (ran : (e.evaluate tree token).run f = (.ok (b, some t), after)) :
    Deepest (e.treeArrivals token tree f) t.depth := by
  rcases treeCases tree with rfl | ⟨rooted, arrived⟩
  · cases ran
  · rw [rooted] at ran
    obtain ⟨t, g, below, ran⟩ := Run.runBindOk ran
    cases ran
    have deepest := nodeDeepest 0 tree f below
    rwa [Nat.zero_add, ← arrived] at deepest

end
end Evaluator
end DecisionRules
