import DecisionRules.Action.Execute
import DecisionRules.Proofs.Outcome
import DecisionRules.Proofs.Run

/-! Actions taken apart. One that is not enabled is skipped, any other is attempted and the outcome is told;
an attempt fails before anything is done, or begins and comes to a performance, which is up to the type. -/
namespace DecisionRules.Executor
open Run (runBind runGet runBasic runOutcome)

/-- What is told of an attempt -/
def told (e : Executor) (o : Occasion) (a : Action) (r : Outcome Fields) (w : Workspace) :
    ActionResult × Workspace :=
  match r with
  | .ok result =>
    (⟨a.id, a.type, .success result⟩, w.publish (.actionExecuted o.rule a.id a.type.name 0))
  | .error f =>
    (⟨a.id, a.type, .failed f⟩,
      (w.note (e.failureRecord o a f)).publish (.actionFailed o.rule a.id a.type.name f.text? f.kind))

def occasionOf (o : Occasion) (a : Action) : Occasion :=
  { o with context := o.context.within { Log.Context.none with actionId := some a.id } }

variable {e : Executor} {a : Action} {w : Workspace}

theorem executeOff (off : a.enabled = false) (o : Occasion) (token : Token Float) :
    e.execute o token a w = (⟨a.id, a.type, .skipped⟩, w) := by
  simp [execute, off]

theorem executeTold (on : a.enabled = true) (o : Occasion) (token : Token Float) :
    e.execute o token a w = told e (occasionOf o a) a ((e.attempt (occasionOf o a) a token).run w).1
      ((e.attempt (occasionOf o a) a token).run w).2 := by
  unfold execute
  rw [on]
  rfl

/-- What an attempt comes to before anything is done: the resolved configuration, and the time that is left -/
def begins (e : Executor) (a : Action) (token : Token Float) (w : Workspace) : Outcome (Fields × Token Float) := do
  let limit ← Outcome.ofBreach (Assoc.getD a.config "timeout_s" (.float e.timeout)).toFloat
  let limited := token.child w.frame.clock (some limit) (a.type.name ++ " action")
  limited.check w.frame.clock
  let config ← Outcome.ofBreach (a.resolvedConfig w.scope)
  return (config, limited)

theorem attemptRun (e : Executor) (o : Occasion) (a : Action) (token : Token Float) (w : Workspace) :
    (e.attempt o a token).run w = match e.begins a token w with
      | .ok (config, limited) => (e.perform o a config limited).run w
      | .error f => (.error f, w) := by
  unfold attempt begins
  rw [runBind, runGet]
  dsimp only
  rw [runBind, runBasic]
  cases (Assoc.getD a.config "timeout_s" (.float e.timeout)).toFloat with
  | error b => rfl
  | ok limit =>
    dsimp only [Outcome.ofBreach]
    rw [runBind, runOutcome]
    cases checked : (token.child w.frame.clock (some limit) (a.type.name ++ " action")).check w.frame.clock with
    | error f =>
      simp only [bind, Except.bind, checked]
    | ok _ =>
      dsimp only
      rw [runBind, runBasic]
      simp only [bind, Except.bind, checked]
      cases a.resolvedConfig w.scope <;> rfl

theorem begunResolved {token limited : Token Float} {config : Fields}
    (begun : e.begins a token w = .ok (config, limited)) : a.resolvedConfig w.scope = .ok config := by
  simp only [begins, bindAccepts] at begun
  obtain ⟨_, _, _, _, resolved, found, begun⟩ := begun
  cases pureAccepts.mp begun
  exact ofBreachAccepts.mp found

theorem announceRun (r : Outcome (Event × Fields)) (w : Workspace) :
    (announce r).run w = match r with
      | .ok (event, result) => (.ok result, w.publish event)
      | .error f => (.error f, w) := by
  cases r with
  | ok answer => rfl
  | error f => rfl

/-- What a webhook action does once it has time: it sends its request, if there is still time for that. -/
def sends (transport : Transport) (r : WebhookRequest) (token : Token Float) (w : Workspace) :
    Outcome Fields × Workspace :=
  match token.check w.frame.clock with
  | .error f => (.error f, w)
  | .ok _ =>
    let (delivery, wire) := transport.send r token w.wire
    (match delivery with
      | .answered fields => .ok fields
      | .failed f => .error f
      | .stalled => .error (.overran token.reason), w.setWire wire)

theorem deliverSends {transport : Transport} (carried : e.transport = some transport) {config : Fields}
    {r : WebhookRequest} (asked : Action.webhookRequest config = .ok r) (token : Token Float) :
    (e.deliver config token).run w = sends transport r token w := by
  obtain ⟨send⟩ := transport
  unfold deliver sends
  rw [carried]
  dsimp only
  rw [runBind, asked, runOutcome]
  dsimp only
  rw [runBind, runGet]
  dsimp only
  rw [runBind, runOutcome]
  cases token.check w.frame.clock with
  | error f => rfl
  | ok _ =>
    dsimp only
    generalize send r token w.wire = sent
    obtain ⟨delivery, wire⟩ := sent
    cases delivery <;> rfl

theorem deliverCases (e : Executor) (config : Fields) (token : Token Float) :
    (∃ f, ∀ w, (e.deliver config token).run w = (.error f, w)) ∨
    ∃ transport r, e.transport = some transport ∧
      ∀ w, (e.deliver config token).run w = sends transport r token w := by
  cases carried : e.transport with
  | none =>
    refine .inl ⟨.action .noTransport, fun w => ?_⟩
    unfold deliver
    rw [carried]
    rfl
  | some transport =>
    cases asked : Action.webhookRequest config with
    | error f =>
      refine .inl ⟨f, fun w => ?_⟩
      unfold deliver
      rw [carried]
      dsimp only
      rw [runBind, asked, runOutcome]
    | ok r => exact .inr ⟨transport, r, rfl, fun w => deliverSends carried asked token⟩

/-- How an action of each type is performed, custom ones apart -/
theorem performRun (e : Executor) (o : Occasion) (config : Fields) (token : Token Float) (w : Workspace) :
    (e.perform o a config token).run w = match a.type with
      | .log => match Action.logEntry e.host.now o.context config with
        | .ok (record, result) => (.ok result, w.note record)
        | .error b => (.error (.breach b), w)
      | .assign => match Action.assign e.readOnly config w.globals w.scope with
        | .ok (result, globals, scope) => (.ok result, { w.setScope scope with globals := globals })
        | .error f => (.error f, w)
      | .webhook => (e.deliver config token).run w
      | .notification => (announce (Action.notification o.rule a.id config)).run w
      | .workflow => (announce (Action.workflow o.rule a.id config w.scope)).run w
      | .custom => (e.callCustom config token).run w := by
  unfold perform
  rw [runBind, runGet]
  cases a.type with
  | log =>
    dsimp only
    rw [runBind, runBasic]
    cases Action.logEntry e.host.now o.context config <;> rfl
  | assign =>
    dsimp only
    rw [runBind, runOutcome]
    cases Action.assign e.readOnly config w.globals w.scope <;> rfl
  | webhook | notification | workflow | custom => rfl

theorem runAppend (e : Executor) (o : Occasion) (token : Token Float) (front back : List Action) (w : Workspace) :
    e.run o token (front ++ back) w =
      ((e.run o token front w).1 ++ (e.run o token back (e.run o token front w).2).1,
        (e.run o token back (e.run o token front w).2).2) := by
  induction front generalizing w with
  | nil => rfl
  | cons a rest ih => simp only [List.cons_append, run, ih]

theorem runListed (e : Executor) (o : Occasion) (token : Token Float) (actions : List Action) (w : Workspace) :
    (e.run o token actions w).1.map (fun r => (r.action, r.type)) = actions.map fun a => (a.id, a.type) := by
  induction actions generalizing w with
  | nil => rfl
  | cons a rest ih =>
    have named : ((e.execute o token a w).1.action, (e.execute o token a w).1.type) = (a.id, a.type) := by
      cases on : a.enabled with
      | false => rw [executeOff on]
      | true =>
        rw [executeTold on]
        unfold told
        split <;> rfl
    simp only [run, List.map_cons, ih, named]

end DecisionRules.Executor
