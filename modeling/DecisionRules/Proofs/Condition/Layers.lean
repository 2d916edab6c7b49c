import DecisionRules.Proofs.Condition.Native

/-! Conditions and layers of variables. Unless an operator of the host looks at the scope, how its variables lie
over each other makes no difference to a condition: the merged view decides everything. -/
namespace DecisionRules

namespace Evaluator
open Run (Alike)

def Detaches (call : Frame → Reply × Frame) : Prop :=
  ∀ f scope, call { f with scope := scope } = ((call f).1, { (call f).2 with scope := scope })

/-- Functions of the host, which are given nothing but values, neither see the scope nor change it. -/
def Detached (e : Evaluator) : Prop :=
  ∀ name ∈ Assoc.values e.operators.functions, ∀ values : List Value,
    Detaches (e.host.call name (values.map Argument.value))

def Replaced (s t : Scope) (f f' : Frame) : Prop := f.scope = s ∧ f' = { f with scope := t }

section
variable {e : Evaluator} {token : Token Float} {s t : Scope}

theorem callHostReplaced {name : String} (detached : e.Detached)
    (registered : name ∈ Assoc.values e.operators.functions) (values : List Value) :
    Alike (Replaced s t) (callHost e.host name (values.map Argument.value) token)
      (callHost e.host name (values.map Argument.value) token) := by
  refine Alike.read ?_
  rintro f _ ⟨rfl, rfl⟩
  refine Alike.bind (Alike.outcome _) fun _ => ?_
  -- by the same law the call leaves the frame the scope that it had
  have stays := detached name registered values f f.scope
  rw [detached name registered values f t]
  cases called : e.host.call name (values.map Argument.value) f with
  | mk reply after =>
    simp only [called, Prod.mk.injEq, true_and] at stays
    refine Alike.bind (Alike.put ⟨by rw [stays], rfl⟩) fun _ => ?_
    cases reply with
    | answered v => exact Alike.pure v
    | failed failure => exact Alike.throw failure
    | stalled => exact Alike.throw _

theorem functionReplaced (detached : e.Detached) (same : s.lookup = t.lookup) (name : Value)
    (args : Option Value) :
    Alike (Replaced s t) (e.evaluateFunction name args token) (e.evaluateFunction name args token) := by
  refine Alike.bind (Alike.basic _) fun items => Alike.read ?_
  rintro f _ ⟨rfl, rfl⟩
  dsimp only
  rw [same]
  refine Alike.bind (Alike.basic _) fun values => ?_
  cases name with
  | text name =>
    dsimp only
    split
    · exact Alike.bind (Alike.basic _) fun _ => Alike.pure _
    · split
      · rename_i fn found
        have registered : fn ∈ Assoc.values e.operators.functions :=
          List.mem_map.mpr ⟨_, Assoc.memOfGet found, rfl⟩
        exact Alike.bind (callHostReplaced detached registered values) fun _ => Alike.pure _
      · exact Alike.throw _
  | _ => exact Alike.throw _

theorem replacedKindred (detached : e.Detached) (same : s.lookup = t.lookup) :
    Kindred (fun _ => true) e.operators.nativeOperator e e token token (Replaced s t) where
  deep := rfl
  allowed := rfl
  shows := by
    rintro f _ ⟨rfl, rfl⟩
    exact same
  check := by
    rintro f _ ⟨rfl, rfl⟩
    rfl
  function := fun name args _ => functionReplaced detached same name args
  custom := e.nativeOperatorAlike token token

/-- Does the evaluator make the same of the tree in either scope, leaving it as it is? -/
def AnswersAlike (e : Evaluator) (s t : Scope) (tree : Condition) : Prop :=
  ∀ token clock ticks, ∃ r clock' ticks',
    (e.evaluate tree token).run ⟨s, clock, ticks⟩ = (r, ⟨s, clock', ticks'⟩) ∧
      (e.evaluate tree token).run ⟨t, clock, ticks⟩ = (r, ⟨t, clock', ticks'⟩)

theorem evaluateReplaced (detached : e.Detached) (same : s.lookup = t.lookup) {tree : Condition}
    (calls : tree.callsOnly (fun _ => true) e.operators.nativeOperator = true) :
    e.AnswersAlike s t tree := by
  intro token clock ticks
  have alike := evaluateRelated (@replacedKindred e token s t detached same) calls
  obtain ⟨r, ⟨_, clock', ticks'⟩, _, left, right, rfl, rfl⟩ := alike ⟨s, clock, ticks⟩ _ ⟨rfl, rfl⟩
  exact ⟨r, clock', ticks', left, right⟩

end

theorem detachesReply (reply : Reply) : Detaches fun f => (reply, f) := fun _ _ => rfl

theorem detachesFields (act : Fields → Frame → Reply × Frame) (values : List Value) :
    Detaches (Host.Catalogue.onFields act (values.map Argument.value)) := by
  match values with
  | [] => exact detachesReply _
  | [v] => cases v <;> exact detachesReply _
  | [v, _] => cases v <;> exact detachesReply _
  | v :: _ :: _ :: _ => cases v <;> exact detachesReply _

theorem detachesElapse (values : List Value) :
    Detaches (Host.Catalogue.elapse (values.map Argument.value)) := by
  intro f scope
  -- with one value or two, the first says how long; any other number is refused
  match values with
  | [] => rfl
  | [v] =>
    simp only [List.map_cons, List.map_nil, Host.Catalogue.elapse]
    cases v <;> (dsimp only; cases Host.Catalogue.seconds? _ <;> rfl)
  | [v, w] =>
    simp only [List.map_cons, List.map_nil, Host.Catalogue.elapse]
    cases v <;> (dsimp only; cases Host.Catalogue.seconds? _ <;> rfl)
  | v :: _ :: _ :: _ => cases v <;> rfl

/-- In the catalogue, only operators and actions come to see the scope. -/
theorem catalogueDetached {e : Evaluator} {now : Int} {today : String} (host : e.host = .catalogue now today) :
    e.Detached := by
  intro name _ values
  rw [host]
  change Detaches (Host.Catalogue.call name (values.map Argument.value))
  unfold Host.Catalogue.call
  split <;> first
    | exact detachesReply _
    | exact detachesFields _ values
    | exact detachesElapse values
    | exact fun _ _ => rfl

end Evaluator

structure Scope.Indistinct (s flat : Scope) : Prop where
  lookup : ∀ name, s.lookup name = flat.lookup name
  resolve : ∀ v, s.resolve v = flat.resolve v
  has : ∀ name, s.has name = flat.has name
  literals : ∀ source, s.substituteLiterals source = flat.substituteLiterals source
  /-- Only a registered operator could tell the scopes apart: it is given the scope. -/
  answers : ∀ e : Evaluator, e.Detached → ∀ tree : Condition,
    tree.callsOnly (fun _ => true) e.operators.nativeOperator = true → e.AnswersAlike s flat tree

/-- The merged view of the variables decides everything: by names, texts, expressions and conditions, layered
variables cannot be told from their snapshot. -/
theorem Scope.snapshotDecides {s flat : Scope} (keyed : s.Keyed) (flattens : flat.Flattens s) :
    s.Indistinct flat := by
  have agrees := flattens.agrees keyed
  have same : s.lookup = flat.lookup := (agrees.lookup (flattens.keyed keyed) keyed).symm
  exact {
    lookup := congrFun same
    resolve := resolveSame same
    has := fun name => (agrees.has name).symm
    literals := literalsSame same
    answers := fun _ detached _ calls => Evaluator.evaluateReplaced detached same calls }

def layeredScope : Scope :=
  ⟨⟨[("x", .int 1)], [("x", .int 2)], []⟩, [("x", .int 3), ("y", .object [("z", .int 4)])],
    [("y", .int 5), ("w", .int 6)]⟩

def flatScope : Scope := ⟨⟨layeredScope.data, layeredScope.snapshot, []⟩, [], []⟩

def countingTrial : Evaluator :=
  { Evaluator.trial with operators := ⟨true, [("counts", "tick")], [("own", "peek")]⟩ }

def layeredTree : Condition :=
  .logical .and [.comparison .eq (.text "$\x7bvars.y.z\x7d") (.int 4),
    .function (.text "counts") (some (.list [.text "$\x7bx\x7d"]))]

theorem Scope.snapshotDecidesLayered :
    layeredScope.Keyed ∧ flatScope.Flattens layeredScope ∧ countingTrial.Detached ∧
      layeredTree.callsOnly (fun _ => true) countingTrial.operators.nativeOperator = true ∧
      countingTrial.AnswersAlike layeredScope flatScope layeredTree ∧
      flatScope.lookup "variables.y.z" = .ok (some (.int 4)) := by
  have keyed : layeredScope.Keyed := ⟨by decide +kernel, by decide +kernel, by decide +kernel⟩
  have flattens : flatScope.Flattens layeredScope := ⟨rfl, rfl, rfl, rfl⟩
  have detached : countingTrial.Detached := Evaluator.catalogueDetached rfl
  have calls : layeredTree.callsOnly (fun _ => true) countingTrial.operators.nativeOperator = true := rfl
  have indistinct := Scope.snapshotDecides keyed flattens
  refine ⟨keyed, flattens, detached, calls, indistinct.answers _ detached _ calls, ?_⟩
  rw [← indistinct.lookup]
  rfl

end DecisionRules
