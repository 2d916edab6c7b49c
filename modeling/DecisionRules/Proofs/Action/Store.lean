import DecisionRules.Host.Catalogue
import DecisionRules.Proofs.Action.Attempt
import DecisionRules.Proofs.Scope

/-! Variables as a store of layers: the caller's over the rule's over a mirror of the engine's own. An action that
writes variables writes the caller's or drops a name from the caller's and the rule's, or it changes the engine's
and their mirror alike. -/
namespace DecisionRules

namespace Action

def operationOf (config : Fields) : Value := Assoc.getD config "operation" (.text "set")

def isGlobal (config : Fields) : Bool := (Assoc.getD config "scope" (.text "local")).isOneOf ["global"]

def amountOf (config : Fields) : Value := Assoc.getD config "amount" (Assoc.getD config "value" (.int 1))

/-- What an increment starts from -/
def startOf : Option Value → Value
  | none | some .null => .int 0
  | some v => v

def Names (config : Fields) (name : String) : Prop :=
  ∃ v, Assoc.get? config "name" = some v ∧ v.display = .ok name

/-- The value that is asked for, or none, where this is the previous one. -/
inductive Gives (config : Fields) (previous : Option Value) : Option Value → Prop
  | set (asked : operationOf config = .text "set") : Gives config previous (some (setting config "value"))
  | increment {sum : Value} (asked : operationOf config = .text "increment")
      (counted : (startOf previous).isNumber = true) (amount : (amountOf config).isNumber = true)
      (added : (startOf previous).add (amountOf config) = .ok sum) : Gives config previous (some sum)
  | delete (noSet : operationOf config ≠ .text "set") (noIncrement : operationOf config ≠ .text "increment") :
      Gives config previous none

theorem incrementIff {name : String} {previous : Option Value} {amount sum : Value} :
    increment name previous amount = .ok sum ↔ (startOf previous).isNumber = true ∧ amount.isNumber = true ∧
      (startOf previous).add amount = .ok sum := by
  change (if (startOf previous).isNumber && amount.isNumber then Outcome.ofBreach ((startOf previous).add amount)
    else reject (.notNumeric name)) = _ ↔ _
  split
  · rename_i numbers
    obtain ⟨counted, number⟩ := Bool.and_eq_true_iff.mp numbers
    simp [counted, number, ofBreachAccepts]
  · rename_i numbers
    constructor
    · intro ok
      cases ok
    · rintro ⟨counted, number, _⟩
      exact absurd (Bool.and_eq_true_iff.mpr ⟨counted, number⟩) numbers

theorem assignedIff {config : Fields} {name : String} {previous value : Option Value} :
    assigned config name previous = .ok value ↔ Gives config previous value := by
  constructor
  · intro ok
    unfold assigned at ok
    split at ok
    · rename_i asked
      cases pureAccepts.mp ok
      exact .set asked
    · rename_i asked
      simp only [bindAccepts, pureAccepts] at ok
      obtain ⟨sum, ok, rfl⟩ := ok
      obtain ⟨counted, amount, added⟩ := incrementIff.mp ok
      exact .increment asked counted amount added
    · rename_i noSet noIncrement
      cases pureAccepts.mp ok
      exact .delete noSet noIncrement
  · intro gives
    unfold assigned
    cases gives with
    | set asked =>
      rw [operationOf] at asked
      rw [asked]
      rfl
    | increment asked counted amount added =>
      rw [operationOf] at asked
      rw [asked]
      exact bindAccepts.mpr ⟨_, incrementIff.mpr ⟨counted, amount, added⟩, rfl⟩
    | delete noSet noIncrement =>
      split
      · contradiction
      · contradiction
      · rfl

def previousOf (config globals : Fields) (scope : Scope) (name : String) : Option Value :=
  if isGlobal config then Assoc.get? globals name else scope.binding? name

def written (config globals : Fields) (scope : Scope) (name : String) (value : Option Value) : Fields × Scope :=
  if isGlobal config then writeGlobal globals scope name value else (globals, writeLocal scope name value)

def report (config : Fields) (name : String) (previous value : Option Value) : Fields :=
  [("name", .text name), ("operation", operationOf config),
    ("scope", .text (if isGlobal config then "global" else "local")), ("previous", .ofOption previous),
    ("value", .ofOption value)]

theorem assignIff {readOnly : List String} {config globals result : Fields} {scope : Scope}
    {after : Fields × Scope} :
    assign readOnly config globals scope = .ok (result, after) ↔
    ∃ name value, Names config name ∧ name ∉ readOnly ∧
      Gives config (previousOf config globals scope name) value ∧
      result = report config name (previousOf config globals scope name) value ∧
      after = written config globals scope name value := by
  have given (name : String) (value : Option Value) :
      (if isGlobal config then
          pure (report config name (previousOf config globals scope name) value, writeGlobal globals scope name value)
        else pure (report config name (previousOf config globals scope name) value, globals,
          writeLocal scope name value) : Outcome (Fields × Fields × Scope)) =
      .ok (report config name (previousOf config globals scope name) value,
        written config globals scope name value) := by
    unfold written
    split <;> rfl
  constructor
  · intro ok
    unfold assign at ok
    split at ok
    · rename_i named found
      simp only [bindAccepts] at ok
      obtain ⟨name, shown, ok⟩ := ok
      split at ok
      · cases ok
      · rename_i free
        simp only [bindAccepts] at ok
        obtain ⟨value, gives, ok⟩ := ok
        cases (given name value).symm.trans ok
        exact ⟨name, value, ⟨named, found, ofBreachAccepts.mp shown⟩, by simpa using free,
          assignedIff.mp gives, rfl, rfl⟩
    · cases ok
  · rintro ⟨name, value, ⟨named, found, shown⟩, free, gives, rfl, rfl⟩
    unfold assign
    rw [found]
    refine bindAccepts.mpr ⟨name, ofBreachAccepts.mpr shown, ?_⟩
    dsimp only
    rw [if_neg (by simpa using free)]
    exact bindAccepts.mpr ⟨value, assignedIff.mpr gives, given name value⟩

end Action

/-- The layers, each as what it binds -/
structure Layers where
  caller : String → Option Value
  rule : String → Option Value
  globals : String → Option Value
  engine : String → Option Value

namespace Layers
open Function (update)

variable (l : Layers) (name : String)

def merged : Option Value := ((l.caller name).or (l.rule name)).or (l.globals name)

def Mirrored : Prop := l.globals = l.engine

def write (v : Value) : Layers := { l with caller := update l.caller name (some v) }

def drop : Layers := { l with caller := update l.caller name none, rule := update l.rule name none }

def share (value : Option Value) : Layers :=
  { l with globals := update l.globals name value, engine := update l.engine name value }

end Layers

namespace Action

/-- What a variable action with this configuration stores, and what it reports. -/
inductive Stores (readOnly : List String) (config : Fields) (l : Layers) : Fields → Layers → Prop
  | write {name : String} {v : Value} (named : Names config name) (free : name ∉ readOnly)
      (own : isGlobal config = false) (gives : Gives config (l.merged name) (some v)) :
      Stores readOnly config l (report config name (l.merged name) (some v)) (l.write name v)
  | drop {name : String} (named : Names config name) (free : name ∉ readOnly)
      (own : isGlobal config = false) (gives : Gives config (l.merged name) none) :
      Stores readOnly config l (report config name (l.merged name) none) (l.drop name)
  | share {name : String} {value : Option Value} (named : Names config name) (free : name ∉ readOnly)
      (shared : isGlobal config = true) (gives : Gives config (l.engine name) value) :
      Stores readOnly config l (report config name (l.engine name) value) (l.share name value)

theorem Stores.mirrored {readOnly : List String} {config result : Fields} {l l' : Layers}
    (stores : Stores readOnly config l result l') (mirrored : l.Mirrored) : l'.Mirrored := by
  cases stores with
  | write named free own gives => exact mirrored
  | drop named free own gives => exact mirrored
  | share named free shared gives =>
    unfold Layers.Mirrored at mirrored
    simp only [Layers.Mirrored, Layers.share, mirrored]

end Action

def Scope.layers (s : Scope) (globals : Fields) : Layers :=
  ⟨Assoc.get? s.caller, Assoc.get? s.rule, Assoc.get? s.globals, Assoc.get? globals⟩

namespace Workspace

def layers (w : Workspace) : Layers := w.scope.layers w.globals

/-- No layer binds a name twice. -/
structure Keyed (w : Workspace) : Prop where
  scope : w.scope.Keyed
  engine : (Assoc.keys w.globals).Nodup

end Workspace

theorem Scope.bindingMerged (s : Scope) (globals : Fields) (name : String) :
    s.binding? name = (s.layers globals).merged name := by
  unfold binding? Layers.merged layers
  dsimp only
  cases Assoc.get? s.caller name with
  | some v => rfl
  | none => cases Assoc.get? s.rule name <;> rfl

namespace Action

theorem previousShared {config : Fields} (shared : isGlobal config = true) (globals : Fields) (scope : Scope) :
    previousOf config globals scope = (scope.layers globals).engine := by
  funext name
  exact if_pos shared

theorem previousOwn {config : Fields} (own : isGlobal config = false) (globals : Fields) (scope : Scope) :
    previousOf config globals scope = (scope.layers globals).merged := by
  funext name
  rw [← scope.bindingMerged globals]
  exact if_neg (by simp [own])

theorem sharedLayers {globals : Fields} {scope : Scope} (mirror : (Assoc.keys scope.globals).Nodup)
    (engine : (Assoc.keys globals).Nodup) (name : String) (value : Option Value) :
    (writeGlobal globals scope name value).2.layers (writeGlobal globals scope name value).1 =
      (scope.layers globals).share name value := by
  cases value with
  | some v =>
    simp only [writeGlobal, Scope.layers, Layers.share, Assoc.setUpdates]
    rfl
  | none =>
    simp only [writeGlobal, Scope.layers, Layers.share, Assoc.eraseUpdates mirror, Assoc.eraseUpdates engine]
    rfl

theorem ownWritten (globals : Fields) (scope : Scope) (name : String) (v : Value) :
    (writeLocal scope name (some v)).layers globals = (scope.layers globals).write name v := by
  unfold Scope.layers Layers.write
  rw [← Assoc.setUpdates]
  rfl

theorem ownDropped {scope : Scope} (keyed : scope.Keyed) (globals : Fields) (name : String) :
    (writeLocal scope name none).layers globals = (scope.layers globals).drop name := by
  unfold Scope.layers Layers.drop
  rw [← Assoc.eraseUpdates keyed.caller, ← Assoc.eraseUpdates keyed.rule]
  rfl

theorem writtenKeyed {globals : Fields} {scope : Scope} (keyed : scope.Keyed) (unique : (Assoc.keys globals).Nodup)
    (config : Fields) (name : String) (value : Option Value) :
    (written config globals scope name value).2.Keyed ∧
      (Assoc.keys (written config globals scope name value).1).Nodup := by
  unfold written
  split
  · cases value with
    | some v =>
      exact ⟨⟨keyed.caller, keyed.rule, Assoc.uniqueSet keyed.globals name v⟩, Assoc.uniqueSet unique name v⟩
    | none =>
      exact ⟨⟨keyed.caller, keyed.rule, Assoc.uniqueErase keyed.globals name⟩, Assoc.uniqueErase unique name⟩
  · cases value with
    | some v => exact ⟨⟨Assoc.uniqueSet keyed.caller name v, keyed.rule, keyed.globals⟩, unique⟩
    | none =>
      exact ⟨⟨Assoc.uniqueErase keyed.caller name, Assoc.uniqueErase keyed.rule name, keyed.globals⟩, unique⟩

theorem writtenFacts (config globals : Fields) (scope : Scope) (name : String) (value : Option Value) :
    (written config globals scope name value).2.data = scope.data := by
  unfold written
  split
  · cases value <;> rfl
  · cases value <;> rfl

variable {readOnly : List String} {config globals result : Fields} {scope : Scope}

theorem assignStores (keyed : scope.Keyed) (unique : (Assoc.keys globals).Nodup) {after : Fields × Scope}
    (ok : assign readOnly config globals scope = .ok (result, after)) :
    Stores readOnly config (scope.layers globals) result (after.2.layers after.1) := by
  obtain ⟨name, value, named, free, gives, rfl, rfl⟩ := assignIff.mp ok
  unfold written
  cases place : isGlobal config with
  | true =>
    rw [previousShared place] at gives ⊢
    rw [if_pos rfl, sharedLayers keyed.globals unique]
    exact .share named free place gives
  | false =>
    rw [previousOwn place] at gives ⊢
    rw [if_neg (by simp)]
    cases value with
    | some v =>
      rw [ownWritten]
      exact .write named free place gives
    | none =>
      rw [ownDropped keyed]
      exact .drop named free place gives

theorem storesAssign {l : Layers} (stores : Stores readOnly config (scope.layers globals) result l) :
    ∃ after, assign readOnly config globals scope = .ok (result, after) := by
  cases stores with
  | write named free own gives =>
    rw [← previousOwn own] at gives ⊢
    exact ⟨_, assignIff.mpr ⟨_, _, named, free, gives, rfl, rfl⟩⟩
  | drop named free own gives =>
    rw [← previousOwn own] at gives ⊢
    exact ⟨_, assignIff.mpr ⟨_, _, named, free, gives, rfl, rfl⟩⟩
  | share named free shared gives =>
    rw [← previousShared shared] at gives ⊢
    exact ⟨_, assignIff.mpr ⟨_, _, named, free, gives, rfl, rfl⟩⟩

end Action

namespace Executor

/-- What a variable action does to the layers, by how it ends. One that fails had nothing that it could store. -/
inductive Steps (e : Executor) (token : Token Float) (a : Action) (w : Workspace) :
    ActionStatus → Workspace → Prop
  | skipped (off : a.enabled = false) : Steps e token a w .skipped w
  | failed {f : Failure} {w' : Workspace} (on : a.enabled = true)
      (unable : ∀ config limited, e.begins a token w = .ok (config, limited) →
        ∀ result l, ¬ Action.Stores e.readOnly config w.layers result l)
      (scope : w'.scope = w.scope) (globals : w'.globals = w.globals) : Steps e token a w (.failed f) w'
  | stored {config result : Fields} {limited : Token Float} {w' : Workspace} (on : a.enabled = true)
      (begun : e.begins a token w = .ok (config, limited))
      (stores : Action.Stores e.readOnly config w.layers result w'.layers)
      (facts : w'.scope.data = w.scope.data) : Steps e token a w (.success result) w'

inductive StepsAll (e : Executor) (token : Token Float) :
    List Action → Workspace → List ActionResult → Workspace → Prop
  | nil (w : Workspace) : StepsAll e token [] w [] w
  | cons {a : Action} {rest : List Action} {w between after : Workspace} {r : ActionResult}
      {results : List ActionResult} (step : Steps e token a w r.status between)
      (mirrored : between.layers.Mirrored) (later : StepsAll e token rest between results after) :
      StepsAll e token (a :: rest) w (r :: results) after

variable {e : Executor} {a : Action} {w w' : Workspace} {token : Token Float}

theorem Steps.mirrored {status : ActionStatus} (steps : Steps e token a w status w')
    (mirrored : w.layers.Mirrored) : w'.layers.Mirrored := by
  cases steps with
  | skipped off => exact mirrored
  | failed on unable scope globals =>
    unfold Workspace.layers
    rw [scope, globals]
    exact mirrored
  | stored on begun stores facts => exact stores.mirrored mirrored

theorem executeSteps (kind : a.type = .assign) (keyed : w.Keyed) (o : Occasion) (token : Token Float) :
    Steps e token a w (e.execute o token a w).1.status (e.execute o token a w).2 ∧
      (e.execute o token a w).2.Keyed := by
  cases on : a.enabled with
  | false =>
    rw [executeOff on]
    exact ⟨.skipped on, keyed⟩
  | true =>
    rw [executeTold on, attemptRun]
    cases begun : e.begins a token w with
    | error f =>
      refine ⟨.failed on (fun config limited begun' => ?_) rfl rfl, keyed.scope, keyed.engine⟩
      rw [begun] at begun'
      cases begun'
    | ok start =>
      obtain ⟨config, limited⟩ := start
      dsimp only
      rw [performRun, kind]
      dsimp only
      cases assigned : Action.assign e.readOnly config w.globals w.scope with
      | error f =>
        refine ⟨.failed on (fun config limited begun' => ?_) rfl rfl, keyed.scope, keyed.engine⟩
        rw [begun] at begun'
        cases begun'
        intro result l stores
        obtain ⟨after, ok⟩ := Action.storesAssign stores
        rw [assigned] at ok
        cases ok
      | ok answer =>
        obtain ⟨result, after⟩ := answer
        have stores := Action.assignStores keyed.scope keyed.engine assigned
        obtain ⟨name, value, _, _, _, _, rfl⟩ := Action.assignIff.mp assigned
        obtain ⟨scope, engine⟩ := Action.writtenKeyed keyed.scope keyed.engine config name value
        exact ⟨.stored on begun stores (Action.writtenFacts config w.globals w.scope name value), scope, engine⟩

/-- In a run of variable actions, each stores what it asks for in its layers or leaves all of them as they are,
and the mirror is kept throughout. -/
theorem variablesStored (e : Executor) (o : Occasion) (token : Token Float) {actions : List Action}
    (kinds : ∀ a ∈ actions, a.type = .assign) {w : Workspace} (keyed : w.Keyed) (mirrored : w.layers.Mirrored) :
    StepsAll e token actions w (e.run o token actions w).1 (e.run o token actions w).2 := by
  induction actions generalizing w with
  | nil => exact .nil w
  | cons a rest ih =>
    obtain ⟨kind, others⟩ := List.forall_mem_cons.mp kinds
    obtain ⟨step, keyed⟩ := executeSteps (e := e) kind keyed o token
    have mirrored := step.mirrored mirrored
    exact .cons step mirrored (ih others keyed mirrored)

def keeper : Executor := ⟨.catalogue 0 "", .ofBuiltins true, ["fixed"], none, 30⟩

/-- A caller's variable shadows the rule's, and the rule's shadows one of the engine's. -/
def shadowed : Workspace :=
  let engine : Fields := [("y", .int 7), ("fixed", .null)]
  ⟨⟨⟨⟨[], [("x", .int 1), ("t", .text "one")], []⟩, [("x", .int 5), ("y", .int 2)], engine⟩, 0, 0⟩,
    engine, .quiet [], [], .empty⟩

def variableAction (config : Fields) : Action := ⟨"v", .assign, config, true⟩

def bookkeeping : List Action := [
  variableAction [("name", .text "y"), ("operation", .text "increment")],
  variableAction [("name", .text "y"), ("operation", .text "increment"), ("scope", .text "global")],
  variableAction [("name", .text "x"), ("operation", .text "delete")],
  variableAction [("name", .text "t"), ("operation", .text "increment")],
  variableAction [("name", .text "fixed"), ("value", .int 1), ("scope", .text "global")],
  variableAction [("name", .text "z"), ("value", .text "$\x7by\x7d")]]

theorem variablesStoredShadowed :
    let run := keeper.run ⟨none, .none⟩ (.root 0 none "rule") bookkeeping shadowed
    let shown (fields : Fields) := fields.map fun e => (e.1, e.2.literal.toOption)
    StepsAll keeper (.root 0 none "rule") bookkeeping shadowed run.1 run.2 ∧
    run.1.map (fun r => r.status.name) = ["success", "success", "success", "failed", "failed", "success"] ∧
    shown run.2.scope.caller = [("t", some "'one'"), ("y", some "3"), ("z", some "3")] ∧
    shown run.2.scope.rule = [("y", some "2")] ∧
    shown run.2.globals = [("y", some "8"), ("fixed", some "None")] := by
  have kinds : ∀ a ∈ bookkeeping, a.type = .assign := by decide
  have keyed : shadowed.Keyed := ⟨⟨by decide, by decide, by decide⟩, by decide⟩
  exact ⟨variablesStored keeper ⟨none, .none⟩ (.root 0 none "rule") kinds keyed rfl, by decide +kernel⟩

end Executor
end DecisionRules
