import DecisionRules.Proofs.Outcome
import DecisionRules.Proofs.Schema
import DecisionRules.Settings

/-! Loading with an environment that sets nothing. Six values are converted, and three sections rebuilt,
before the schema sees them; where that makes no difference to the schema, settings are loaded as they
are validated. -/
namespace DecisionRules
open Schema (Coercion withDefault)

namespace Environment

def overrides : List String :=
  ["RULECRAFT_MAX_RULES", "RULECRAFT_MAX_CONDITION_DEPTH", "RULECRAFT_CACHE_RESULTS",
    "RULECRAFT_ALLOW_UNSAFE_EXPRESSIONS", "RULECRAFT_FUNCTION_TIMEOUT_S", "RULECRAFT_ACTION_TIMEOUT_S"]

def Silent (env : Environment) : Prop := ∀ name ∈ overrides, env.text? name = none

variable {env : Environment} {name : String}

theorem silentInt (silent : env.Silent) (known : name ∈ overrides) (n : Int) : env.int name n = n := by
  simp [int, silent name known]

theorem silentFloat (silent : env.Silent) (known : name ∈ overrides) (x : Float) :
    env.float name x = x := by
  simp [float, silent name known]

theorem silentFlag (silent : env.Silent) (known : name ∈ overrides) (b : Bool) : env.flag name b = b := by
  simp [flag, silent name known]

end Environment

namespace Schema

/-- Conversion makes no difference to what the schema accepts. -/
def Kept {α : Type} (convert : Value → Except Breach Value) (c : Coercion α) (v : Value) : Prop :=
  ∃ w, convert v = .ok w ∧ ∀ a, c w = .ok a ↔ c v = .ok a

theorem withDefaultSet {α : Type} (fields : Fields) (k key : String) (v : Value) (default : α)
    (c : Coercion α) : withDefault (Assoc.set fields k v) key default c =
      if k = key then (c v).under key else withDefault fields key default c := by
  unfold withDefault
  rw [Assoc.getSet]
  by_cases same : k = key <;> simp [same]

theorem keptAccepts {α : Type} {convert : Value → Except Breach Value} {c : Coercion α}
    {fields : Fields} {key : String} {default : α} {initial : Value}
    (own : ∃ w, convert initial = .ok w ∧ c w = .ok default)
    (kept : ∀ v, Assoc.get? fields key = some v → Kept convert c v) :
    ∃ w, convert (Assoc.getD fields key initial) = .ok w ∧
      ∀ a, (c w).under key = .ok a ↔ withDefault fields key default c = .ok a := by
  unfold Assoc.getD withDefault
  cases found : Assoc.get? fields key with
  | none =>
    obtain ⟨w, converted, accepted⟩ := own
    refine ⟨w, converted, fun a => ?_⟩
    rw [underAccepts, accepted]
  | some v =>
    obtain ⟨w, converted, same⟩ := kept v found
    refine ⟨w, converted, fun a => ?_⟩
    rw [underAccepts, underAccepts]
    exact same a

theorem keptBoth {α : Type} {convert : Value → Except Breach Value} {c : Coercion α}
    {fields : Fields} {key : String} {default a : α} {initial w : Value}
    (converted : convert (Assoc.getD fields key initial) = .ok w) (after : c w = .ok a)
    (before : withDefault fields key default c = .ok a) :
    ∀ v, Assoc.get? fields key = some v → Kept convert c v := by
  intro v given
  rw [withDefaultGiven given, underAccepts] at before
  refine ⟨w, ?_, fun b => by rw [after, before]⟩
  rw [← converted, Assoc.getD, given]
  rfl

end Schema

namespace Settings

def asInt (v : Value) : Except Breach Value := v.toInt.map .int

def asFlag (v : Value) : Except Breach Value := .ok (.bool v.truthy)

def asFloat (v : Value) : Except Breach Value := v.toFloat.map .float

theorem ofFieldsAccepts {fields : Fields} {s : Settings} : ofFields fields = .ok s ↔
    withDefault fields "enabled" default.enabled Schema.bool = .ok s.enabled ∧
    withDefault fields "max_rules" default.maxRules positive = .ok s.maxRules ∧
    withDefault fields "max_condition_depth" default.maxConditionDepth positive = .ok s.maxConditionDepth ∧
    withDefault fields "worker_threads" default.workerThreads positive = .ok s.workerThreads ∧
    withDefault fields "evaluation" .default (Schema.model EvaluationSettings.ofFields) = .ok s.evaluation ∧
    withDefault fields "functions" .default (Schema.model FunctionSettings.ofFields) = .ok s.functions ∧
    withDefault fields "variables" .default (Schema.model VariableSettings.ofFields) = .ok s.bindings ∧
    withDefault fields "actions" .default (Schema.model ActionSettings.ofFields) = .ok s.actions ∧
    withDefault fields "priorities" default.defaultPriority (Schema.model priorityOf) =
      .ok s.defaultPriority ∧
    withDefault fields "groups" .default (Schema.model GroupSettings.ofFields) = .ok s.groups := by
  unfold ofFields
  simp only [Schema.seqAccepts, Schema.mapAccepts]
  constructor
  · rintro ⟨_, _, ⟨_, _, ⟨_, _, ⟨_, _, ⟨_, _, ⟨_, _, ⟨_, _, ⟨_, _, ⟨_, _, ⟨_, h1, rfl⟩, h2, rfl⟩, h3, rfl⟩,
      h4, rfl⟩, h5, rfl⟩, h6, rfl⟩, h7, rfl⟩, h8, rfl⟩, h9, rfl⟩, h10, rfl⟩
    exact ⟨h1, h2, h3, h4, h5, h6, h7, h8, h9, h10⟩
  · rintro ⟨h1, h2, h3, h4, h5, h6, h7, h8, h9, h10⟩
    exact ⟨_, _, ⟨_, _, ⟨_, _, ⟨_, _, ⟨_, _, ⟨_, _, ⟨_, _, ⟨_, _, ⟨_, _, ⟨_, h1, rfl⟩, h2, rfl⟩, h3, rfl⟩,
      h4, rfl⟩, h5, rfl⟩, h6, rfl⟩, h7, rfl⟩, h8, rfl⟩, h9, rfl⟩, h10, rfl⟩

end Settings

theorem EvaluationSettings.ofNothing : ofFields [] = .ok default := rfl

theorem EvaluationSettings.ofFieldsAccepts {fields : Fields} {s : EvaluationSettings} :
    ofFields fields = .ok s ↔
    withDefault fields "timeout_s" default.timeout Schema.float = .ok s.timeout ∧
    withDefault fields "cache_results" default.cacheResults Schema.bool = .ok s.cacheResults ∧
    withDefault fields "cache_max_entries" default.cacheMaxEntries Schema.int = .ok s.cacheMaxEntries ∧
    withDefault fields "cache_ttl_s" default.cacheTtl Schema.int = .ok s.cacheTtl ∧
    withDefault fields "cache_sweep_interval_s" default.cacheSweepInterval Schema.int =
      .ok s.cacheSweepInterval := by
  unfold ofFields
  simp only [Schema.seqAccepts, Schema.mapAccepts]
  constructor
  · rintro ⟨_, _, ⟨_, _, ⟨_, _, ⟨_, _, ⟨_, h1, rfl⟩, h2, rfl⟩, h3, rfl⟩, h4, rfl⟩, h5, rfl⟩
    exact ⟨h1, h2, h3, h4, h5⟩
  · rintro ⟨h1, h2, h3, h4, h5⟩
    exact ⟨_, _, ⟨_, _, ⟨_, _, ⟨_, _, ⟨_, h1, rfl⟩, h2, rfl⟩, h3, rfl⟩, h4, rfl⟩, h5, rfl⟩

theorem FunctionSettings.ofNothing : ofFields [] = .ok default := rfl

theorem FunctionSettings.ofFieldsAccepts {fields : Fields} {s : FunctionSettings} :
    ofFields fields = .ok s ↔
    withDefault fields "builtin" default.builtin Schema.bool = .ok s.builtin ∧
    withDefault fields "allow_unsafe_expressions" default.unsafeExpressions Schema.bool =
      .ok s.unsafeExpressions ∧
    withDefault fields "timeout_s" default.timeout Schema.float = .ok s.timeout := by
  unfold ofFields
  simp only [Schema.seqAccepts, Schema.mapAccepts]
  constructor
  · rintro ⟨_, _, ⟨_, _, ⟨_, h1, rfl⟩, h2, rfl⟩, h3, rfl⟩
    exact ⟨h1, h2, h3⟩
  · rintro ⟨h1, h2, h3⟩
    exact ⟨_, _, ⟨_, _, ⟨_, h1, rfl⟩, h2, rfl⟩, h3, rfl⟩

theorem ActionSettings.ofNothing : ofFields [] = .ok default := rfl

theorem ActionSettings.ofFieldsAccepts {fields : Fields} {s : ActionSettings} :
    ofFields fields = .ok s ↔
    withDefault fields "max_per_rule" default.maxPerRule Schema.int = .ok s.maxPerRule ∧
    withDefault fields "timeout_s" default.timeout Schema.float = .ok s.timeout := by
  unfold ofFields
  simp only [Schema.seqAccepts, Schema.mapAccepts]
  constructor
  · rintro ⟨_, _, ⟨_, h1, rfl⟩, h2, rfl⟩
    exact ⟨h1, h2⟩
  · rintro ⟨h1, h2⟩
    exact ⟨_, _, ⟨_, h1, rfl⟩, h2, rfl⟩

namespace Settings
open Schema (Kept)

/-! The values that are converted, and where they are -/

def rebuiltSections : List String := ["evaluation", "functions", "actions"]

def inside (fields : Fields) (outer : String) : Fields :=
  match Assoc.get? fields outer with
  | some (.object inner) => inner
  | _ => []

def Sectioned (fields : Fields) : Prop :=
  ∀ outer ∈ rebuiltSections, ∀ v, Assoc.get? fields outer = some v → ∃ inner, v = .object inner

/-- The rebuilt sections are mappings, and the values that are converted are kept. -/
structure Faithful (fields : Fields) : Prop where
  sections : Sectioned fields
  maxRules : ∀ v, Assoc.get? fields "max_rules" = some v → Kept asInt positive v
  maxDepth : ∀ v, Assoc.get? fields "max_condition_depth" = some v → Kept asInt positive v
  cacheResults : ∀ v, Assoc.get? (inside fields "evaluation") "cache_results" = some v →
    Kept asFlag Schema.bool v
  unsafeExpressions : ∀ v, Assoc.get? (inside fields "functions") "allow_unsafe_expressions" = some v →
    Kept asFlag Schema.bool v
  functionTimeout : ∀ v, Assoc.get? (inside fields "functions") "timeout_s" = some v →
    Kept asFloat Schema.float v
  actionTimeout : ∀ v, Assoc.get? (inside fields "actions") "timeout_s" = some v →
    Kept asFloat Schema.float v

theorem sectionInside {fields : Fields} {outer : String}
    (shaped : ∀ v, Assoc.get? fields outer = some v → ∃ inner, v = .object inner) :
    Settings.section? fields outer = .ok (inside fields outer) := by
  unfold section? inside Assoc.getD
  cases found : Assoc.get? fields outer with
  | none => rfl
  | some v =>
    obtain ⟨inner, rfl⟩ := shaped v found
    cases inner <;> rfl

theorem sectionAccepts {α : Type} {fields : Fields} {outer : String} {default : α}
    {build : Fields → Schema.Checked α} (plain : build [] = .ok default)
    (shaped : ∀ v, Assoc.get? fields outer = some v → ∃ inner, v = .object inner) {a : α} :
    withDefault fields outer default (Schema.model build) = .ok a ↔ build (inside fields outer) = .ok a := by
  unfold withDefault inside
  cases found : Assoc.get? fields outer with
  | none => rw [plain]
  | some v =>
    obtain ⟨inner, rfl⟩ := shaped v found
    exact Schema.underAccepts

/-! What the conversions make of the fields -/

/-- The converted values -/
structure Converted where
  maxRules : Int
  maxDepth : Int
  cacheResults : Bool
  unsafeExpressions : Bool
  functionTimeout : Float
  actionTimeout : Float

def Converted.over (k : Converted) (fields evaluation functions actions : Fields) : Fields :=
  Assoc.merge fields [("max_rules", .int k.maxRules), ("max_condition_depth", .int k.maxDepth),
    ("evaluation", .object (Assoc.set evaluation "cache_results" (.bool k.cacheResults))),
    ("functions", .object (Assoc.set (Assoc.set functions "allow_unsafe_expressions"
      (.bool k.unsafeExpressions)) "timeout_s" (.float k.functionTimeout))),
    ("actions", .object (Assoc.set actions "timeout_s" (.float k.actionTimeout)))]

theorem overrideSilent {env : Environment} (silent : env.Silent) {fields merged : Fields} :
    override env fields = .ok merged ↔ ∃ (evaluation functions actions : Fields) (k : Converted),
      Settings.section? fields "evaluation" = .ok evaluation ∧ section? fields "functions" = .ok functions ∧
      Settings.section? fields "actions" = .ok actions ∧
      asInt (Assoc.getD fields "max_rules" (.int 1000)) = .ok (.int k.maxRules) ∧
      asInt (Assoc.getD fields "max_condition_depth" (.int 10)) = .ok (.int k.maxDepth) ∧
      asFlag (Assoc.getD evaluation "cache_results" (.bool true)) = .ok (.bool k.cacheResults) ∧
      asFlag (Assoc.getD functions "allow_unsafe_expressions" (.bool false)) =
        .ok (.bool k.unsafeExpressions) ∧
      asFloat (Assoc.getD functions "timeout_s" (.float 1)) = .ok (.float k.functionTimeout) ∧
      asFloat (Assoc.getD actions "timeout_s" (.float 30)) = .ok (.float k.actionTimeout) ∧
      merged = k.over fields evaluation functions actions := by
  have rules := Environment.silentInt silent (show "RULECRAFT_MAX_RULES" ∈ _ by decide)
  have depth := Environment.silentInt silent (show "RULECRAFT_MAX_CONDITION_DEPTH" ∈ _ by decide)
  have cached := Environment.silentFlag silent (show "RULECRAFT_CACHE_RESULTS" ∈ _ by decide)
  have allowed := Environment.silentFlag silent (show "RULECRAFT_ALLOW_UNSAFE_EXPRESSIONS" ∈ _ by decide)
  have functionTime := Environment.silentFloat silent (show "RULECRAFT_FUNCTION_TIMEOUT_S" ∈ _ by decide)
  have actionTime := Environment.silentFloat silent (show "RULECRAFT_ACTION_TIMEOUT_S" ∈ _ by decide)
  unfold override
  simp only [bindAccepts, pureAccepts, rules, depth, cached, allowed, functionTime, actionTime]
  constructor
  · rintro ⟨evaluation, first, functions, second, actions, third, n, wholeRules, d, wholeDepth, x, timed,
      y, limited, rfl⟩
    exact ⟨evaluation, functions, actions, ⟨n, d, _, _, x, y⟩, first, second, third,
      mapAccepts.mpr ⟨n, wholeRules, rfl⟩, mapAccepts.mpr ⟨d, wholeDepth, rfl⟩, rfl, rfl,
      mapAccepts.mpr ⟨x, timed, rfl⟩, mapAccepts.mpr ⟨y, limited, rfl⟩, rfl⟩
  · rintro ⟨evaluation, functions, actions, ⟨n, d, b, u, x, y⟩, first, second, third, wholeRules,
      wholeDepth, flagged, trusted, timed, limited, rfl⟩
    obtain ⟨_, wholeRules, same⟩ := mapAccepts.mp wholeRules
    cases same
    obtain ⟨_, wholeDepth, same⟩ := mapAccepts.mp wholeDepth
    cases same
    obtain ⟨_, timed, same⟩ := mapAccepts.mp timed
    cases same
    obtain ⟨_, limited, same⟩ := mapAccepts.mp limited
    cases same
    cases flagged
    cases trusted
    exact ⟨evaluation, first, functions, second, actions, third, n, wholeRules, d, wholeDepth, x, timed,
      y, limited, rfl⟩

theorem overAccepts (k : Converted) (fields evaluation functions actions : Fields) {s : Settings} :
    ofFields (k.over fields evaluation functions actions) = .ok s ↔
    withDefault fields "enabled" default.enabled Schema.bool = .ok s.enabled ∧
    positive (.int k.maxRules) = .ok s.maxRules ∧
    positive (.int k.maxDepth) = .ok s.maxConditionDepth ∧
    withDefault fields "worker_threads" default.workerThreads positive = .ok s.workerThreads ∧
    EvaluationSettings.ofFields (Assoc.set evaluation "cache_results" (.bool k.cacheResults)) =
      .ok s.evaluation ∧
    FunctionSettings.ofFields (Assoc.set (Assoc.set functions "allow_unsafe_expressions"
      (.bool k.unsafeExpressions)) "timeout_s" (.float k.functionTimeout)) = .ok s.functions ∧
    withDefault fields "variables" .default (Schema.model VariableSettings.ofFields) = .ok s.bindings ∧
    ActionSettings.ofFields (Assoc.set actions "timeout_s" (.float k.actionTimeout)) = .ok s.actions ∧
    withDefault fields "priorities" default.defaultPriority (Schema.model priorityOf) =
      .ok s.defaultPriority ∧
    withDefault fields "groups" .default (Schema.model GroupSettings.ofFields) = .ok s.groups := by
  rw [ofFieldsAccepts]
  simp [Converted.over, Assoc.merge, Schema.withDefaultSet, Schema.underAccepts, Schema.model]

/-! Loading against validation -/

/-- Where validation gives settings, they are loaded; where it fails, loading reports that they are
invalid. -/
def Loads (loaded validated : Outcome Settings) : Prop :=
  match validated with
  | .ok s => loaded = .ok s
  | .error _ => ∃ report, loaded = .error (.settings (.invalid report))

theorem concludesIff (loaded validated : Schema.Checked Settings) :
    Loads (Schema.conclude modelName (fun report => .settings (.invalid report)) loaded)
      (Schema.conclude modelName Failure.validation validated) ↔
    ∀ s, loaded = .ok s ↔ validated = .ok s := by
  cases validated with
  | ok s =>
    cases loaded with
    | ok t =>
      simp only [Loads, Schema.conclude, Except.ok.injEq, Schema.Checked.ok.injEq]
      exact ⟨fun same _ => same ▸ Iff.rfl, fun alike => (alike t).mp rfl |>.symm⟩
    | faulty issues =>
      simp only [Loads, Schema.conclude]
      exact ⟨fun same => (by cases same), fun alike => absurd ((alike s).mpr rfl) (by simp)⟩
  | faulty issues =>
    cases loaded with
    | ok t =>
      simp only [Loads, Schema.conclude]
      constructor
      · rintro ⟨_, same⟩
        cases same
      · exact fun alike => absurd ((alike t).mp rfl) (by simp)
    | faulty others => simp [Loads, Schema.conclude]

theorem loadsIff (env : Environment) (fields : Fields) :
    Loads (load env (some (.object fields))) (ofValue (.object fields)) ↔
    ∃ merged, override env fields = .ok merged ∧
      ∀ s, ofFields merged = .ok s ↔ ofFields fields = .ok s := by
  have given : ((some (Value.object fields)).getD .null).orElse (.object []) = .object fields := by
    cases fields <;> rfl
  have loaded : load env (some (.object fields)) = (do
      let merged ← override env fields
      Schema.conclude modelName (fun report => .settings (.invalid report)) (ofFields merged)) := by
    unfold load
    rw [given]
  rw [loaded]
  cases override env fields with
  | ok merged =>
    have compared := concludesIff (ofFields merged) (ofFields fields)
    constructor
    · exact fun loads => ⟨merged, rfl, compared.mp loads⟩
    · rintro ⟨_, same, alike⟩
      cases same
      exact compared.mpr alike
  | error b =>
    refine ⟨fun loads => ?_, fun ⟨_, impossible, _⟩ => (by cases impossible)⟩
    unfold Loads at loads
    split at loads
    · cases loads
    · obtain ⟨_, impossible⟩ := loads
      cases impossible

/-! Where conversion makes no difference -/

theorem evaluationKept {inner : Fields} {w : Value}
    (kept : ∀ b, (Schema.bool w).under "cache_results" = .ok b ↔
      withDefault inner "cache_results" EvaluationSettings.default.cacheResults Schema.bool = .ok b)
    (s : EvaluationSettings) : EvaluationSettings.ofFields (Assoc.set inner "cache_results" w) = .ok s ↔
      EvaluationSettings.ofFields inner = .ok s := by
  rw [EvaluationSettings.ofFieldsAccepts, EvaluationSettings.ofFieldsAccepts, ← kept]
  simp [Schema.withDefaultSet]

theorem functionsKept {inner : Fields} {w t : Value}
    (kept : ∀ b, (Schema.bool w).under "allow_unsafe_expressions" = .ok b ↔
      withDefault inner "allow_unsafe_expressions" FunctionSettings.default.unsafeExpressions Schema.bool =
        .ok b)
    (timed : ∀ x, (Schema.float t).under "timeout_s" = .ok x ↔
      withDefault inner "timeout_s" FunctionSettings.default.timeout Schema.float = .ok x)
    (s : FunctionSettings) :
    FunctionSettings.ofFields (Assoc.set (Assoc.set inner "allow_unsafe_expressions" w) "timeout_s" t) =
      .ok s ↔ FunctionSettings.ofFields inner = .ok s := by
  rw [FunctionSettings.ofFieldsAccepts, FunctionSettings.ofFieldsAccepts, ← kept, ← timed]
  simp [Schema.withDefaultSet]

theorem actionsKept {inner : Fields} {t : Value}
    (timed : ∀ x, (Schema.float t).under "timeout_s" = .ok x ↔
      withDefault inner "timeout_s" ActionSettings.default.timeout Schema.float = .ok x)
    (s : ActionSettings) : ActionSettings.ofFields (Assoc.set inner "timeout_s" t) = .ok s ↔
      ActionSettings.ofFields inner = .ok s := by
  rw [ActionSettings.ofFieldsAccepts, ActionSettings.ofFieldsAccepts, ← timed]
  simp [Schema.withDefaultSet]

theorem faithfulLoads {env : Environment} (silent : env.Silent) {fields : Fields}
    (faithful : Faithful fields) : Loads (load env (some (.object fields))) (ofValue (.object fields)) := by
  have evaluation := faithful.sections "evaluation" (by decide)
  have functions := faithful.sections "functions" (by decide)
  have actions := faithful.sections "actions" (by decide)
  have thousand : ∃ w, asInt (.int 1000) = .ok w ∧ positive w = .ok default.maxRules := ⟨_, rfl, rfl⟩
  have ten : ∃ w, asInt (.int 10) = .ok w ∧ positive w = .ok default.maxConditionDepth := ⟨_, rfl, rfl⟩
  have yes : ∃ w, asFlag (.bool true) = .ok w ∧
    Schema.bool w = .ok EvaluationSettings.default.cacheResults := ⟨_, rfl, rfl⟩
  have no : ∃ w, asFlag (.bool false) = .ok w ∧
    Schema.bool w = .ok FunctionSettings.default.unsafeExpressions := ⟨_, rfl, rfl⟩
  have one : ∃ w, asFloat (.float 1) = .ok w ∧ Schema.float w = .ok FunctionSettings.default.timeout :=
    ⟨_, rfl, rfl⟩
  have thirty : ∃ w, asFloat (.float 30) = .ok w ∧ Schema.float w = .ok ActionSettings.default.timeout :=
    ⟨_, rfl, rfl⟩
  obtain ⟨_, rulesGiven, rules⟩ := Schema.keptAccepts thousand faithful.maxRules
  obtain ⟨_, depthGiven, depth⟩ := Schema.keptAccepts ten faithful.maxDepth
  obtain ⟨_, cachedGiven, cached⟩ := Schema.keptAccepts yes faithful.cacheResults
  obtain ⟨_, trustedGiven, trusted⟩ := Schema.keptAccepts no faithful.unsafeExpressions
  obtain ⟨_, functionGiven, functionTime⟩ := Schema.keptAccepts one faithful.functionTimeout
  obtain ⟨_, actionGiven, actionTime⟩ := Schema.keptAccepts thirty faithful.actionTimeout
  obtain ⟨n, _, rfl⟩ := mapAccepts.mp rulesGiven
  obtain ⟨d, _, rfl⟩ := mapAccepts.mp depthGiven
  obtain ⟨x, _, rfl⟩ := mapAccepts.mp functionGiven
  obtain ⟨y, _, rfl⟩ := mapAccepts.mp actionGiven
  obtain rfl := Except.ok.inj cachedGiven
  obtain rfl := Except.ok.inj trustedGiven
  refine (loadsIff env fields).mpr ⟨_, (overrideSilent silent).mpr ⟨inside fields "evaluation",
    inside fields "functions", inside fields "actions",
    ⟨n, d, (Assoc.getD (inside fields "evaluation") "cache_results" (.bool true)).truthy,
      (Assoc.getD (inside fields "functions") "allow_unsafe_expressions" (.bool false)).truthy, x, y⟩,
    sectionInside evaluation, sectionInside functions, sectionInside actions, rulesGiven, depthGiven,
    rfl, rfl, functionGiven, actionGiven, rfl⟩, fun s => ?_⟩
  rw [overAccepts, ofFieldsAccepts, sectionAccepts EvaluationSettings.ofNothing evaluation,
    sectionAccepts FunctionSettings.ofNothing functions,
    sectionAccepts ActionSettings.ofNothing actions, ← rules, ← depth, Schema.underAccepts,
    Schema.underAccepts, evaluationKept cached, functionsKept trusted functionTime, actionsKept actionTime]

theorem sectionShaped {α : Type} {fields : Fields} {outer : String} {default a : α}
    {build : Fields → Schema.Checked α}
    (accepted : withDefault fields outer default (Schema.model build) = .ok a) :
    ∀ v, Assoc.get? fields outer = some v → ∃ inner, v = .object inner := by
  intro v given
  rw [Schema.withDefaultGiven given, Schema.underAccepts, Schema.modelAccepts] at accepted
  obtain ⟨inner, shape, _⟩ := accepted
  exact ⟨inner, shape⟩

theorem loadedFaithful {env : Environment} (silent : env.Silent) {fields : Fields} {s : Settings}
    (validated : ofFields fields = .ok s) {merged : Fields} (given : override env fields = .ok merged)
    (loaded : ofFields merged = .ok s) : Faithful fields := by
  obtain ⟨evaluation, functions, actions, k, first, second, third, rules, depth, cached, trusted,
    functionTime, actionTime, rfl⟩ := (overrideSilent silent).mp given
  obtain ⟨_, rulesBefore, depthBefore, _, evaluated, functional, _, active, _⟩ :=
    ofFieldsAccepts.mp validated
  obtain ⟨_, rulesAfter, depthAfter, _, evaluatedAfter, functionalAfter, _, activeAfter, _⟩ :=
    (overAccepts ..).mp loaded
  have shapedEvaluation := sectionShaped evaluated
  have shapedFunctions := sectionShaped functional
  have shapedActions := sectionShaped active
  rw [sectionInside shapedEvaluation] at first
  rw [sectionInside shapedFunctions] at second
  rw [sectionInside shapedActions] at third
  obtain rfl := Except.ok.inj first
  obtain rfl := Except.ok.inj second
  obtain rfl := Except.ok.inj third
  rw [sectionAccepts EvaluationSettings.ofNothing shapedEvaluation, EvaluationSettings.ofFieldsAccepts]
    at evaluated
  rw [sectionAccepts FunctionSettings.ofNothing shapedFunctions, FunctionSettings.ofFieldsAccepts]
    at functional
  rw [sectionAccepts ActionSettings.ofNothing shapedActions, ActionSettings.ofFieldsAccepts] at active
  rw [EvaluationSettings.ofFieldsAccepts] at evaluatedAfter
  rw [FunctionSettings.ofFieldsAccepts] at functionalAfter
  rw [ActionSettings.ofFieldsAccepts] at activeAfter
  simp [Schema.withDefaultSet, Schema.underAccepts] at evaluatedAfter functionalAfter activeAfter
  refine ⟨?_, Schema.keptBoth rules rulesAfter rulesBefore, Schema.keptBoth depth depthAfter depthBefore,
    Schema.keptBoth cached evaluatedAfter.2.1 evaluated.2.1,
    Schema.keptBoth trusted functionalAfter.2.1 functional.2.1,
    Schema.keptBoth functionTime functionalAfter.2.2 functional.2.2,
    Schema.keptBoth actionTime activeAfter.2 active.2⟩
  intro outer rebuilt
  have either : outer = "evaluation" ∨ outer = "functions" ∨ outer = "actions" := by
    simpa [rebuiltSections] using rebuilt
  rcases either with rfl | rfl | rfl
  · exact shapedEvaluation
  · exact shapedFunctions
  · exact shapedActions

/-- Converted values of their own types: integers, booleans, and floats or integers that are floats -/
structure OwnTypes (fields : Fields) : Prop where
  sections : Sectioned fields
  integers : ∀ key ∈ ["max_rules", "max_condition_depth"], ∀ v, Assoc.get? fields key = some v →
    ∃ n, v = .int n
  flags : ∀ place ∈ [("evaluation", "cache_results"), ("functions", "allow_unsafe_expressions")],
    ∀ v, Assoc.get? (inside fields place.1) place.2 = some v → ∃ b, v = .bool b
  times : ∀ outer ∈ ["functions", "actions"], ∀ v,
    Assoc.get? (inside fields outer) "timeout_s" = some v →
    ∃ x, v = .float x ∨ ∃ n, v = .int n ∧ Number.ofInt? n = some x

theorem ownTypesFaithful {fields : Fields} (own : OwnTypes fields) : Faithful fields := by
  have integer {v : Value} (typed : ∃ n, v = .int n) : Kept asInt positive v := by
    obtain ⟨n, rfl⟩ := typed
    exact ⟨.int n, rfl, fun _ => Iff.rfl⟩
  have flag {v : Value} (typed : ∃ b, v = .bool b) : Kept asFlag Schema.bool v := by
    obtain ⟨b, rfl⟩ := typed
    exact ⟨.bool b, rfl, fun _ => Iff.rfl⟩
  have time {v : Value} (typed : ∃ x, v = .float x ∨ ∃ n, v = .int n ∧ Number.ofInt? n = some x) :
      Kept asFloat Schema.float v := by
    obtain ⟨x, rfl | ⟨n, rfl, whole⟩⟩ := typed
    · exact ⟨.float x, rfl, fun _ => Iff.rfl⟩
    · refine ⟨.float x, ?_, fun _ => ?_⟩
      · simp [asFloat, Value.toFloat, whole, Except.map]
      · simp [Schema.float, whole]
  exact ⟨own.sections, fun v given => integer (own.integers _ (by simp) v given),
    fun v given => integer (own.integers _ (by simp) v given),
    fun v given => flag (own.flags ("evaluation", "cache_results") (by simp) v given),
    fun v given => flag (own.flags ("functions", "allow_unsafe_expressions") (by simp) v given),
    fun v given => time (own.times "functions" (by simp) v given),
    fun v given => time (own.times "actions" (by simp) v given)⟩

/-- Without overrides, settings that pass validation are loaded as validated if and only if what is
converted first is kept. If it is, settings that fail validation are reported as invalid; and values of
their own types are kept. -/
theorem loadTransparent (env : Environment) (silent : env.Silent) (fields : Fields) :
    (∀ s, ofValue (.object fields) = .ok s →
      (load env (some (.object fields)) = .ok s ↔ Faithful fields)) ∧
    (Faithful fields → Loads (load env (some (.object fields))) (ofValue (.object fields))) ∧
    (OwnTypes fields → Faithful fields) := by
  refine ⟨fun s valid => ?_, faithfulLoads silent, ownTypesFaithful⟩
  have loads : Loads (load env (some (.object fields))) (ofValue (.object fields)) ↔
      load env (some (.object fields)) = .ok s := by
    rw [valid]
    exact Iff.rfl
  have validated : ofFields fields = .ok s := Schema.concludeAccepts.mp valid
  constructor
  · intro loaded
    obtain ⟨merged, given, alike⟩ := (loadsIff env fields).mp (loads.mpr loaded)
    exact loadedFaithful silent validated given ((alike s).mpr validated)
  · intro faithful
    exact loads.mp (faithfulLoads silent faithful)

def typicalFile : Fields :=
  [("max_rules", .int 5), ("functions", .object [("timeout_s", .float 2.5)])]

theorem loadTransparentTypical :
    Environment.Silent [] ∧ OwnTypes typicalFile ∧
    load [] (some (.object typicalFile)) =
      .ok { default with maxRules := 5, functions := ⟨true, false, 2.5⟩ } := by
  have silent : Environment.Silent [] := fun _ _ => rfl
  have own : OwnTypes typicalFile := by
    constructor
    · intro outer rebuilt v given
      simp only [rebuiltSections, List.mem_cons, List.not_mem_nil, or_false] at rebuilt
      rcases rebuilt with rfl | rfl | rfl
      · cases given
      · cases given
        exact ⟨_, rfl⟩
      · cases given
    · intro key known v given
      simp only [List.mem_cons, List.not_mem_nil, or_false] at known
      rcases known with rfl | rfl
      · cases given
        exact ⟨5, rfl⟩
      · cases given
    · intro place known v given
      simp only [List.mem_cons, List.not_mem_nil, or_false] at known
      rcases known with rfl | rfl <;> cases given
    · intro outer known v given
      simp only [List.mem_cons, List.not_mem_nil, or_false] at known
      rcases known with rfl | rfl
      · cases given
        exact ⟨_, .inl rfl⟩
      · cases given
  have transparent := loadTransparent [] silent typicalFile
  exact ⟨silent, own, (transparent.1 _ rfl).mpr (transparent.2.2 own)⟩

/-- A flag in quotes is taken for its truth before the schema can read its word, and what is no number
fails before the schema can report it. -/
theorem conversionShows :
    let quoted : Value := .object [("functions", .object [("allow_unsafe_expressions", .text "false")])]
    let unread : Value := .object [("max_rules", .text "many")]
    (ofValue quoted).map (fun s => s.functions.unsafeExpressions) = .ok false ∧
    (load [] (some quoted)).map (fun s => s.functions.unsafeExpressions) = .ok true ∧
    (ofValue unread).isOk = false ∧
    (load [] (some unread)).map (fun _ => ()) = .error (.breach .badValue) := by
  refine ⟨?_, ?_, ?_, ?_⟩ <;> decide +kernel

end Settings
end DecisionRules
