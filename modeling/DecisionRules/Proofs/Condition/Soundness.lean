import DecisionRules.Host.Catalogue
import DecisionRules.Proofs.Assoc
import DecisionRules.Proofs.Outcome
import DecisionRules.Proofs.Run

/-! What is accepted can be evaluated. Validation and evaluation go through a tree on their own; where the
first finds no fault, the second never fails for how the tree is made, but only for its depth, for want
of time, or for the values that it meets. -/
namespace DecisionRules

/-- A failure of how rules are made; failures of expressions belong to them. -/
def Failure.misconfigured (f : Failure) : Bool :=
  f.kind == Failure.configurationKind || f.kind == "ExpressionError"

theorem breachBlameless (b : Breach) : (Failure.breach b).misconfigured = false := by
  cases b <;> decide

namespace Condition

/-! Trees that come from values: what is decoded as an operator of the host has no built-in name. -/

mutual
def foreign : Condition → Bool
  | custom op _ => (Operator.ofName? op).isNone
  | logical _ children => allForeign children
  | not (some child) => child.foreign
  | _ => true
def allForeign : List Condition → Bool
  | [] => true
  | c :: rest => c.foreign && allForeign rest
end

def View.foreign : View → Bool
  | .list items => allForeign items
  | .single c => c.foreign

theorem childrenForeign {views : Assoc View} (foreign : ∀ e ∈ views, e.2.foreign = true)
    {children : List Condition} (found : children? views = some children) :
    allForeign children = true := by
  have listed {key : String} {items : List Condition} (there : Assoc.get? views key = some (.list items)) :
      allForeign items = true := foreign _ (Assoc.memOfGet there)
  unfold children? at found
  split at found
  · split at found
    · cases found
      rfl
    · cases found
      rfl
    · rename_i there
      cases found
      exact listed there
    · contradiction
  · split at found
    · cases found
      rfl
    · cases found
      rfl
    · rename_i there
      cases found
      exact listed there
    · contradiction
  · rename_i there
    cases found
    exact listed there
  · contradiction

theorem presentForeign {c : Condition} (foreign : c.foreign = true) :
    (not (present c)).foreign = true := by
  unfold present
  split
  · rfl
  · exact foreign

theorem negationForeign (node : Fields) {views : Assoc View}
    (foreign : ∀ e ∈ views, e.2.foreign = true) : (negation node views).foreign = true := by
  unfold negation
  split
  · rename_i there
    exact presentForeign (foreign _ (Assoc.memOfGet there))
  · rfl
  · split
    · rfl
    · rfl
    · rename_i found
      have all := childrenForeign foreign found
      simp only [allForeign, Bool.and_eq_true] at all
      exact presentForeign all.1

theorem ofNodeForeign (node : Fields) {views : Assoc View}
    (foreign : ∀ e ∈ views, e.2.foreign = true) : (ofNode node views).foreign = true := by
  unfold ofNode
  split
  · split
    · rfl
    · split
      · rename_i op known
        unfold ofOperator
        cases op with
        | logical op =>
          dsimp only
          split
          · rename_i found
            exact childrenForeign foreign found
          · rfl
        | not => exact negationForeign node foreign
        | _ => rfl
      · rename_i unknown
        simpa [Condition.foreign] using unknown
  · rfl

mutual
theorem ofValueForeign (v : Value) : (ofValue v).foreign = true := by
  cases v with
  | object fields => exact ofNodeForeign fields (ofFieldsForeign fields)
  | _ => rfl
theorem ofItemsForeign (items : List Value) : allForeign (ofItems items) = true := by
  cases items with
  | nil => rfl
  | cons v rest =>
    simp only [ofItems, allForeign, Bool.and_eq_true]
    exact ⟨ofValueForeign v, ofItemsForeign rest⟩
theorem ofFieldsForeign (fields : List (String × Value)) : ∀ e ∈ ofFields fields, e.2.foreign = true := by
  cases fields with
  | nil => simp [ofFields]
  | cons e rest =>
    obtain ⟨k, v⟩ := e
    have later := ofFieldsForeign rest
    have here := ofValueForeign v
    cases v with
    | list items =>
      have items := ofItemsForeign items
      exact List.forall_mem_cons.mpr ⟨items, later⟩
    | _ => exact List.forall_mem_cons.mpr ⟨here, later⟩
end

theorem checkAccepts {good : Bool} {fault : ConditionFault} (ok : check good fault = .ok ()) :
    good = true := by
  unfold check at ok
  split at ok
  · assumption
  · contradiction

end Condition

/-! Operands that only the scope decides -/

def Scope.gives (s : Scope) (test : Value → Bool) (operand : Value) : Bool :=
  match s.resolve operand with
  | .ok v => test v
  | .error _ => true

/-- Is an operand that is one reference what its operator wants? A pattern text must have no reference in
it, and a compiled pattern is one that compiles. -/
def Condition.fits (s : Scope) : Condition → Bool
  | inclusion _ _ right => !isReference right || s.gives (fun v => v.list?.isSome) right
  | between _ range => !isReference range || s.gives isPair range
  | matching _ (.text source) => (Segment.cut source.toList).all fun
    | .plain _ => true
    | .reference _ => false
  | matching _ (.pattern source ignoreCase) => (compilePattern source ignoreCase).isOk
  | _ => true

namespace Evaluator

mutual
/-- The nodes that an evaluation comes to, with the frames that it finds there. -/
def comesTo (e : Evaluator) (token : Token Float) (depth : Nat) (c : Condition) (f : Frame) :
    List (Condition × Frame) :=
  match (e.enter token depth).run f with
  | (.error _, _) => []
  | (.ok _, f) => (c, f) :: match c with
    | .logical .and children => comesToUntil e token (depth + 1) false children f
    | .logical .or children => comesToUntil e token (depth + 1) true children f
    | .logical .xor [left, right] => comesTo e token (depth + 1) left f ++
      match (e.evaluateNode token (depth + 1) left).run f with
      | (.ok _, f) => comesTo e token (depth + 1) right f
      | (.error _, _) => []
    | .not (some child) => comesTo e token (depth + 1) child f
    | _ => []
def comesToUntil (e : Evaluator) (token : Token Float) (depth : Nat) (stop : Bool)
    (cs : List Condition) (f : Frame) : List (Condition × Frame) :=
  match cs with
  | [] => []
  | c :: rest => comesTo e token depth c f ++
    match (e.evaluateNode token depth c).run f with
    | (.ok t, f) => if t.value == stop then [] else comesToUntil e token depth stop rest f
    | (.error _, _) => []
end

/-- None of the callables that conditions may name fails for how rules are made. -/
def Blameless (e : Evaluator) : Prop :=
  ∀ name ∈ Assoc.values e.operators.functions ++ Assoc.values e.operators.operators,
    ∀ args f failure, (e.host.call name args f).1 = .failed failure → failure.misconfigured = false

open Run (Spares)
variable {e : Evaluator} {token : Token Float} {f : Frame}

theorem resolvedRun (v : Value) (f : Frame) :
    (resolved v).run f = (Outcome.ofBreach (f.scope.resolve v), f) := by
  unfold resolved
  rw [Run.runBind, Run.runGet]
  exact Run.runBasic _ f

theorem resolvedOk {v w : Value} {f t : Frame} (ran : (resolved v).run f = (.ok w, t)) :
    t = f ∧ f.scope.resolve v = .ok w := by
  rw [resolvedRun] at ran
  obtain ⟨answer, rfl⟩ := Prod.mk.inj ran
  exact ⟨rfl, liftAccepts.mp answer⟩

theorem resolvedSpares (v : Value) : Spares Failure.misconfigured (resolved v) f :=
  Spares.read (Spares.basic breachBlameless _)

theorem resolvedTextSpares (v : Value) : Spares Failure.misconfigured (resolvedText v) f :=
  Spares.bind (resolvedSpares v) fun _ _ _ => Spares.basic breachBlameless _

theorem checkSpares (token : Token Float) (f : Frame) :
    Spares Failure.misconfigured (outcome (token.check f.clock)) f := by
  refine Spares.outcome fun failure failed => ?_
  unfold Token.check at failed
  split at failed
  · cases failed
    rfl
  · split at failed
    · cases failed
      rfl
    · contradiction

theorem enterSpares (depth : Nat) : Spares Failure.misconfigured (e.enter token depth) f := by
  unfold enter
  split
  · exact Spares.bind (Spares.throw rfl) fun _ _ ran => by cases ran
  · exact Spares.read (checkSpares token f)

/-! Operators whose operands are checked -/

theorem operandResolves {s : Scope} {test : Value → Bool} {operand v : Value}
    (kept : test operand = true → test v = true)
    (shaped : (isReference operand || test operand) = true)
    (gives : (!isReference operand || s.gives test operand) = true)
    (ok : s.resolve operand = .ok v) : test v = true := by
  cases whole : isReference operand with
  | true =>
    simpa [whole, Scope.gives, ok] using gives
  | false =>
    rw [whole] at shaped
    exact kept shaped

theorem resolvedItems {s : Scope} {items : List Value} {v : Value}
    (ok : s.resolve (.list items) = .ok v) :
    ∃ found, resolveItems s.lookup items = .ok found ∧ v = .list found := by
  simp only [Scope.resolve, resolve, bindAccepts, pureAccepts] at ok
  obtain ⟨found, each, rfl⟩ := ok
  exact ⟨found, each, rfl⟩

theorem listKept {s : Scope} {operand v : Value} (ok : s.resolve operand = .ok v)
    (shaped : operand.list?.isSome = true) : v.list?.isSome = true := by
  cases operand with
  | list items =>
    obtain ⟨found, _, rfl⟩ := resolvedItems ok
    rfl
  | _ => simp [Value.list?] at shaped

theorem pairKept {s : Scope} {operand v : Value} (ok : s.resolve operand = .ok v)
    (shaped : isPair operand = true) : isPair v = true := by
  unfold isPair at shaped
  split at shaped
  · obtain ⟨found, each, rfl⟩ := resolvedItems ok
    simp only [resolveItems, bindAccepts, pureAccepts, Except.ok.injEq] at each
    obtain ⟨_, _, _, ⟨_, _, _, rfl, rfl⟩, rfl⟩ := each
    rfl
  · contradiction

theorem evaluateInclusionSpares {negated : Bool} {left right : Value}
    (accepted : (Condition.inclusion negated left right).validate e.operators false = .ok ())
    (fits : (Condition.inclusion negated left right).fits f.scope = true) :
    Spares Failure.misconfigured (evaluateInclusion negated left right) f := by
  refine Spares.bind (resolvedSpares left) fun l t ran => ?_
  obtain ⟨rfl, _⟩ := resolvedOk ran
  refine Spares.bind (resolvedSpares right) fun r t ran => ?_
  obtain ⟨rfl, ok⟩ := resolvedOk ran
  rw [Condition.validate] at accepted
  have shaped := Condition.checkAccepts accepted
  have listed := @operandResolves _ (fun v => v.list?.isSome) _ _ (listKept ok) shaped fits ok
  cases r with
  | list items => exact Spares.pure _
  | _ => simp [Value.list?] at listed

theorem evaluateBetweenSpares {value range : Value}
    (accepted : (Condition.between value range).validate e.operators false = .ok ())
    (fits : (Condition.between value range).fits f.scope = true) :
    Spares Failure.misconfigured (evaluateBetween value range) f := by
  refine Spares.bind (resolvedSpares value) fun v t ran => ?_
  obtain ⟨rfl, _⟩ := resolvedOk ran
  refine Spares.bind (resolvedSpares range) fun bounds t ran => ?_
  obtain ⟨rfl, ok⟩ := resolvedOk ran
  rw [Condition.validate] at accepted
  have paired := operandResolves (pairKept ok) (Condition.checkAccepts accepted) fits ok
  split
  · exact Spares.pure _
  · rename_i other
    unfold isPair at paired
    split at paired
    · exact absurd rfl (other _ _)
    · contradiction

theorem cutPlain {cs : List Char} (plain : ∀ name, .reference name ∉ Segment.cut cs) :
    Segment.cut cs = cs.map .plain := by
  induction cs using Segment.cut.induct with
  | case1 => simp [Segment.cut]
  | case2 c rest name after found _ _ =>
    rw [Segment.cut] at plain
    split at plain
    · exact absurd List.mem_cons_self (plain _)
    · simp_all
  | case3 c rest none ih =>
    rw [Segment.cut] at plain ⊢
    split at plain
    · simp_all
    · have tail : ∀ name, .reference name ∉ Segment.cut rest := fun name member =>
        plain name (List.mem_cons_of_mem _ member)
      rw [ih tail]
      rfl

theorem replacePlain {f : List Char → Except Breach (List Char)} (cs : List Char) :
    Segment.replaceAll f (cs.map .plain) = .ok cs := by
  induction cs with
  | nil => rfl
  | cons c rest ih =>
    rw [List.map_cons, Segment.replaceAll, ih]
    rfl

theorem resolvePlain (s : Scope) {source : String}
    (plain : ∀ name, .reference name ∉ Segment.cut source.toList) :
    s.resolve (.text source) = .ok (.text source) := by
  simp only [Scope.resolve, resolve, resolveText, cutPlain plain]
  split
  · rename_i whole
    cases chars : source.toList <;> simp [chars] at whole
  · rw [replacePlain]
    simp [bind, Except.bind, pure, Except.pure]

theorem compiledSpares {source : String} {ignoreCase : Bool} {node : Pattern.Node}
    (compiled : compilePattern source ignoreCase = .ok node) :
    Spares Failure.misconfigured (do return (source, ← outcome (compilePattern source ignoreCase)) :
      Run Frame (String × Pattern.Node)) f := by
  refine Spares.bind (Spares.outcome fun failure failed => ?_) fun _ _ _ => Spares.pure _
  rw [compiled] at failed
  contradiction

theorem patternOfSpares {left pattern : Value}
    (accepted : (Condition.matching left pattern).validate e.operators false = .ok ())
    (fits : (Condition.matching left pattern).fits f.scope = true) :
    Spares Failure.misconfigured (patternOf pattern) f := by
  rw [Condition.validate] at accepted
  cases pattern with
  | text source =>
    have plain : ∀ name, .reference name ∉ Segment.cut source.toList := fun name member => by
      simpa using List.all_eq_true.mp fits _ member
    have noReference : isReference (.text source) = false := by
      unfold isReference Segment.whole?
      dsimp only
      split
      · rename_i whole
        exact absurd (whole ▸ List.mem_cons_self) (plain _)
      · rfl
    simp only [Condition.validatePattern, noReference] at accepted
    obtain ⟨node, compiled, _⟩ := mapAccepts.mp accepted
    refine Spares.bind (resolvedSpares _) fun v t ran => ?_
    obtain ⟨rfl, ok⟩ := resolvedOk ran
    rw [resolvePlain _ plain] at ok
    cases ok
    exact compiledSpares compiled
  | pattern source ignoreCase =>
    obtain ⟨node, compiled⟩ := isOkAccepts.mp fits
    refine Spares.bind (Spares.pure _) fun v t ran => ?_
    cases ran
    exact compiledSpares compiled
  | _ => contradiction

/-! Functions and operators of the host -/

theorem callHostSpares {name : String} {args : List Argument} {limit : Token Float}
    (blameless : ∀ args f failure, (e.host.call name args f).1 = .failed failure →
      failure.misconfigured = false) :
    Spares Failure.misconfigured (callHost e.host name args limit) f := by
  refine Spares.read (Spares.bind (checkSpares limit f) fun _ _ _ => ?_)
  have answers := blameless args f
  cases called : e.host.call name args f with
  | mk reply after =>
    rw [called] at answers
    refine Spares.bind (fun _ failed => by cases failed) fun _ _ _ => ?_
    cases reply with
    | answered v => exact Spares.pure v
    | failed failure => exact Spares.throw (answers failure rfl)
    | stalled => exact Spares.throw rfl

theorem builtinAnswers {now : Int} {today name : String} {args : List Value}
    (none : Operators.builtin? now today name args = none) : builtinFunctionNames.contains name = false := by
  unfold Operators.builtin? at none
  -- every pattern with a name answers; only the last can give nothing
  split at none <;> first | contradiction | simpa using none

theorem evaluateFunctionSpares (blameless : e.Blameless) {name : Value} {args : Option Value}
    (accepted : (Condition.function name args).validate e.operators false = .ok ()) :
    Spares Failure.misconfigured (e.evaluateFunction name args token) f := by
  rw [Condition.validate] at accepted
  refine Spares.bind (Spares.basic breachBlameless _) fun items t _ => ?_
  refine Spares.read (Spares.bind (Spares.basic breachBlameless _) fun values t _ => ?_)
  cases name with
  | text s =>
    have known : e.operators.hasFunction s = true := by
      unfold Condition.validateFunction at accepted
      dsimp only at accepted
      split at accepted
      · contradiction
      · rename_i known
        simpa using known
    dsimp only
    split
    · exact Spares.bind (Spares.basic breachBlameless _) fun _ _ _ => Spares.pure _
    · rename_i none
      split
      · rename_i fn found
        have member : fn ∈ Assoc.values e.operators.functions :=
          List.mem_map.mpr ⟨(s, fn), Assoc.memOfGet found, rfl⟩
        exact Spares.bind (callHostSpares (blameless fn (List.mem_append_left _ member)))
          fun _ _ _ => Spares.pure _
      · rename_i absent
        simp only [Operators.hasFunction, absent, Operators.hasBuiltin, Option.isSome_none,
          Bool.or_false, Bool.and_eq_true] at known
        -- the one name left is of a built-in function, which would have answered
        rw [if_pos known.1] at none
        have missing := builtinAnswers none
        rw [known.2] at missing
        contradiction
  | _ => contradiction

theorem evaluateCustomSpares (blameless : e.Blameless) {op : String} {node : Fields}
    (accepted : (Condition.custom op node).validate e.operators false = .ok ())
    (foreign : (Condition.custom op node).foreign = true) :
    Spares Failure.misconfigured (e.evaluateCustom op node token) f := by
  rw [Condition.validate] at accepted
  have known := Condition.checkAccepts accepted
  unfold evaluateCustom
  split
  · rename_i absent
    rw [Condition.foreign, Option.isNone_iff_eq_none] at foreign
    simp [Operators.isKnownOperator, foreign, absent] at known
  · rename_i fn found
    have member : fn ∈ Assoc.values e.operators.operators :=
      List.mem_map.mpr ⟨(op, fn), Assoc.memOfGet found, rfl⟩
    exact Spares.read (Spares.bind (callHostSpares (blameless fn (List.mem_append_right _ member)))
      fun _ _ _ => Spares.pure _)

/-! Trees -/

theorem logicalAccepts {op : LogicalOperator} {children : List Condition}
    (accepted : (Condition.logical op children).validate e.operators false = .ok ()) :
    (op = .xor → children.length = 2) ∧ Condition.validateAll e.operators false children = .ok () := by
  rw [Condition.validate] at accepted
  split at accepted
  · contradiction
  · rename_i counted
    exact ⟨fun exclusive => by simpa [exclusive] using counted, accepted⟩

theorem resolvedTextOk {v : Value} {s : String} {f t : Frame}
    (ran : (resolvedText v).run f = (.ok s, t)) : t = f := by
  unfold resolvedText at ran
  rw [Run.runBind, resolvedRun] at ran
  split at ran
  · rename_i answer same
    rw [Run.runBasic] at ran
    exact (Prod.mk.inj ran).2.symm.trans (Prod.mk.inj same).2.symm
  · cases ran

theorem evaluateExistenceSpares {field : Value}
    (accepted : (Condition.existence field).validate e.operators false = .ok ()) :
    Spares Failure.misconfigured (evaluateExistence field) f := by
  rw [Condition.validate] at accepted
  cases field with
  | text name =>
    exact Spares.read (Spares.bind (Spares.basic breachBlameless _) fun _ _ _ => Spares.pure _)
  | _ => contradiction

theorem enterOk {depth : Nat} {u : Unit} {t : Frame} (entered : (e.enter token depth).run f = (.ok u, t)) :
    t = f := by
  unfold enter at entered
  split at entered
  · cases entered
  · rw [Run.runBind, Run.runGet] at entered
    dsimp only at entered
    rw [Run.runOutcome] at entered
    exact (Prod.mk.inj entered).2.symm

mutual
theorem evaluateNodeSpares (blameless : e.Blameless) (depth : Nat) (c : Condition) (f : Frame)
    (foreign : c.foreign = true) (accepted : c.validate e.operators false = .ok ())
    (fits : ∀ p ∈ e.comesTo token depth c f, p.1.fits p.2.scope = true) :
    Spares Failure.misconfigured (e.evaluateNode token depth c) f := by
  unfold evaluateNode
  unfold comesTo at fits
  refine Spares.bind (enterSpares depth) fun _ t entered => ?_
  -- coming to a node changes nothing, so that its operands are resolved in the scope that they fit
  obtain rfl := enterOk entered
  rw [entered] at fits
  obtain ⟨here, below⟩ := List.forall_mem_cons.mp fits
  cases c with
  | literal b => exact Spares.pure _
  | inert v => exact Spares.pure _
  | expression source => contradiction
  | headless => contradiction
  | childless op => contradiction
  | logical op children =>
    have each := logicalAccepts accepted
    cases op with
    | and =>
      exact Spares.bind (evaluateUntilSpares blameless _ false children _ foreign each.2 below)
        fun _ _ _ => Spares.pure _
    | or =>
      exact Spares.bind (evaluateUntilSpares blameless _ true children _ foreign each.2 below)
        fun _ _ _ => Spares.pure _
    | xor =>
      match children, foreign, each, below with
      | [left, right], foreign, ⟨_, each⟩, below =>
        simp only [Condition.foreign, Condition.allForeign, Bool.and_eq_true] at foreign
        obtain ⟨_, first, each⟩ := bindAccepts.mp each
        obtain ⟨_, second, _⟩ := bindAccepts.mp each
        obtain ⟨fitsLeft, fitsRight⟩ := List.forall_mem_append.mp below
        refine Spares.bind (evaluateNodeSpares blameless _ left _ foreign.1 first fitsLeft)
          fun l t ran => ?_
        rw [ran] at fitsRight
        exact Spares.bind (evaluateNodeSpares blameless _ right t foreign.2.1 second fitsRight)
          fun _ _ _ => Spares.pure _
      | [], _, ⟨two, _⟩, _ => simp at two
      | [_], _, ⟨two, _⟩, _ => simp at two
      | _ :: _ :: _ :: _, _, ⟨two, _⟩, _ => simp at two
  | not child => cases child with
    | none => exact Spares.pure _
    | some child =>
      rw [Condition.validate] at accepted
      exact Spares.bind (evaluateNodeSpares blameless _ child _ foreign accepted below)
        fun _ _ _ => Spares.pure _
  | comparison op left right =>
    refine Spares.bind (resolvedSpares left) fun l t _ => ?_
    exact Spares.bind (resolvedSpares right) fun r t _ => Spares.pure _
  | inclusion negated left right => exact evaluateInclusionSpares accepted here
  | text op left right =>
    refine Spares.bind (resolvedTextSpares left) fun l t _ => ?_
    exact Spares.bind (resolvedTextSpares right) fun r t _ => Spares.pure _
  | matching left pattern =>
    refine Spares.bind (resolvedTextSpares left) fun l t ran => ?_
    obtain rfl := resolvedTextOk ran
    exact Spares.bind (patternOfSpares accepted here) fun _ _ _ => Spares.pure _
  | between value range => exact evaluateBetweenSpares accepted here
  | existence field => exact evaluateExistenceSpares accepted
  | function name args => exact evaluateFunctionSpares blameless accepted
  | custom op node => exact evaluateCustomSpares blameless accepted foreign
theorem evaluateUntilSpares (blameless : e.Blameless) (depth : Nat) (stop : Bool)
    (cs : List Condition) (f : Frame) (foreign : Condition.allForeign cs = true)
    (accepted : Condition.validateAll e.operators false cs = .ok ())
    (fits : ∀ p ∈ e.comesToUntil token depth stop cs f, p.1.fits p.2.scope = true) :
    Spares Failure.misconfigured (e.evaluateUntil token depth stop cs) f := by
  unfold evaluateUntil
  cases cs with
  | nil => exact Spares.pure _
  | cons c rest =>
    simp only [Condition.allForeign, Bool.and_eq_true] at foreign
    obtain ⟨_, first, each⟩ := bindAccepts.mp accepted
    unfold comesToUntil at fits
    obtain ⟨here, later⟩ := List.forall_mem_append.mp fits
    refine Spares.bind (evaluateNodeSpares blameless _ c f foreign.1 first here) fun t after ran => ?_
    rw [ran] at later
    dsimp only at later
    split
    · exact Spares.pure _
    · rename_i goes
      rw [if_neg goes] at later
      exact Spares.bind (evaluateUntilSpares blameless _ stop rest after foreign.2 each later)
        fun _ _ _ => Spares.pure _
end

/-- A tree without expressions that validation accepts never fails for how it is made, however it is
evaluated with the same operators: not if its callables do not, and if the operands fit at every node that
the evaluation comes to. -/
theorem validationSound (e : Evaluator) (given : Value) (token : Token Float) (f : Frame)
    (accepted : (Condition.ofValue given).validate e.operators false = .ok ())
    (blameless : e.Blameless)
    (fits : ∀ p ∈ e.comesTo token 0 (Condition.ofValue given) f, p.1.fits p.2.scope = true) :
    ∀ failure, ((e.evaluate (Condition.ofValue given) token).run f).1 = .error failure →
      failure.misconfigured = false := by
  have spares : Spares Failure.misconfigured (e.evaluate (Condition.ofValue given) token) f := by
    unfold evaluate
    split
    · exact Spares.pure _
    · exact Spares.bind (evaluateNodeSpares blameless 0 _ f (Condition.ofValueForeign given) accepted fits)
        fun _ _ _ => Spares.pure _
  exact spares

def trial : Evaluator :=
  { host := .catalogue 0 ""
    operators := ⟨true, [("fails", "boom")], [("own", "params")]⟩
    maxDepth := 1
    functionTimeout := 1
    unsafeAllowed := false }

def trialFrame : Frame :=
  { scope := ⟨⟨[("x", .int 1), ("known", .list [.int 1, .int 2]), ("ends", .list [.int 0, .int 3]),
      ("name", .text "abc")], [], []⟩, [], []⟩
    clock := 0
    ticks := 0 }

def trialTree : Value :=
  .object [("operator", .text "and"), ("conditions", .list [
    .object [("operator", .text "in"), ("left", .text "$\x7bx\x7d"), ("right", .text "$\x7bknown\x7d")],
    .object [("operator", .text "between"), ("value", .text "$\x7bx\x7d"), ("range", .text "$\x7bends\x7d")],
    .object [("operator", .text "matches"), ("left", .text "$\x7bname\x7d"), ("pattern", .text "^a")],
    .object [("operator", .text "own"), ("params", .list [])],
    .object [("operator", .text "function"), ("name", .text "fails")]])]

theorem trialBlameless : trial.Blameless := by
  intro name registered args f failure failed
  have either : name = "boom" ∨ name = "params" := by simpa [trial, Assoc.values] using registered
  rcases either with rfl | rfl
  · cases failed
    decide
  · have answer : Host.Catalogue.params args = .failed failure := failed
    unfold Host.Catalogue.params at answer
    split at answer
    · contradiction
    · cases answer
      decide

theorem validationSoundFailing :
    ∃ failure, ((trial.evaluate (.ofValue trialTree) (.root 0 none "rule")).run trialFrame).1 =
      .error failure ∧ failure.misconfigured = false := by
  have sound := validationSound trial trialTree (.root 0 none "rule") trialFrame (by decide +kernel)
    trialBlameless (by decide +kernel)
  cases ran : ((trial.evaluate (.ofValue trialTree) (.root 0 none "rule")).run trialFrame).1 with
  | ok verdict =>
    have failed : ((trial.evaluate (.ofValue trialTree) (.root 0 none "rule")).run
      trialFrame).1.isOk = false := by decide +kernel
    rw [ran] at failed
    contradiction
  | error failure => exact ⟨failure, rfl, sound failure ran⟩

end Evaluator
end DecisionRules
