import DecisionRules.Proofs.Registry.Turn

/-! Updates of rules. A field that is named, at the top or in the configuration, takes the value that is given for
it; every other field stays, and so do the other rules and the order of all. -/
namespace DecisionRules
open Schema (Coercion)

/-- A field after a change: what is given for it, coerced, or what it was if nothing is given. -/
def Takes {α : Type} (given : Option Value) (c : Coercion α) (before after : α) : Prop :=
  match given with
  | none => after = before
  | some v => c v = .ok after

structure RuleConfig.Amends (given : String → Option Value) (before after : RuleConfig) : Prop where
  priority : Takes (given "priority") Priority.coerce before.priority after.priority
  group : Takes (given "group") (Schema.optional Schema.text) before.group after.group
  tags : Takes (given "tags") (Schema.listOf Schema.text) before.tags after.tags
  timeout : Takes (given "timeout_s") (Schema.optional Schema.float) before.timeout after.timeout
  retryOnFailure : Takes (given "retry_on_failure") Schema.bool before.retryOnFailure after.retryOnFailure

/-- A rule changed by what is given for its fields and for those of its configuration. -/
structure Rule.Amends (next : Nat) (given config : String → Option Value) (before after : Rule) : Prop where
  name : Takes (given "name") Schema.text before.name after.name
  description : Takes (given "description") Schema.text before.description after.description
  enabled : Takes (given "enabled") Schema.bool before.enabled after.enabled
  config : RuleConfig.Amends config before.config after.config
  conditions : Takes (given "conditions") Schema.anything before.conditions after.conditions
  actions : Takes (given "actions") (Action.coerceList next) before.actions after.actions
  bindings : Takes (given "variables") Schema.object before.bindings after.bindings

theorem withDefaultTakes {α : Type} {fields : Fields} {key : String} {before after : α} {c : Coercion α}
    (ok : Schema.withDefault fields key before c = .ok after) :
    Takes (Assoc.get? fields key) c before after := by
  unfold Schema.withDefault at ok
  cases given : Assoc.get? fields key with
  | none =>
    rw [given] at ok
    exact (Schema.Checked.ok.inj ok).symm
  | some v =>
    rw [given] at ok
    exact Schema.underAccepts.mp ok

namespace RuleConfig

theorem reviseAmends {c built : RuleConfig} {fields : Fields} (ok : c.revise fields = .ok built) :
    Amends (Assoc.get? fields) c built := by
  simp only [revise, Schema.seqAccepts, Schema.mapAccepts] at ok
  obtain ⟨_, retry, ⟨_, timeout, ⟨_, tags, ⟨_, group, ⟨_, priority, rfl⟩, hgroup, rfl⟩, htags, rfl⟩,
    htimeout, rfl⟩, hretry, rfl⟩ := ok
  exact ⟨withDefaultTakes priority, withDefaultTakes hgroup, withDefaultTakes htags,
    withDefaultTakes htimeout, withDefaultTakes hretry⟩

theorem Amends.nothing (c : RuleConfig) : Amends (fun _ => none) c c := ⟨rfl, rfl, rfl, rfl, rfl⟩

theorem Amends.alike {given other : String → Option Value} {before after : RuleConfig}
    (amends : Amends given before after) (same : ∀ key ∈ shortcutKeys, given key = other key) :
    Amends other before after := by
  refine ⟨?_, ?_, ?_, ?_, ?_⟩
  · exact same "priority" (by decide) ▸ amends.priority
  · exact same "group" (by decide) ▸ amends.group
  · exact same "tags" (by decide) ▸ amends.tags
  · exact same "timeout_s" (by decide) ▸ amends.timeout
  · exact same "retry_on_failure" (by decide) ▸ amends.retryOnFailure

end RuleConfig

/-! Shortcuts, as entries of the configuration -/

def picked (fields : Fields) (keys : List String) : Fields :=
  keys.filterMap fun key => (Assoc.get? fields key).map fun v => (key, v)

theorem getPicked (fields : Fields) (keys : List String) (key : String) :
    Assoc.get? (picked fields keys) key = if key ∈ keys then Assoc.get? fields key else none := by
  induction keys with
  | nil => rfl
  | cons k rest ih =>
    unfold picked at ih ⊢
    by_cases here : k = key
    · subst here
      cases given : Assoc.get? fields k with
      | none => simp [given, ih]
      | some v => simp [given, Assoc.get?]
    · have other : key ≠ k := Ne.symm here
      cases given : Assoc.get? fields k with
      | none => simp [given, ih, other]
      | some v => simp [given, ih, other, Assoc.get?, here]

theorem keysPicked (fields : Fields) (keys : List String) :
    Assoc.keys (picked fields keys) = keys.filter (Assoc.contains fields) := by
  induction keys with
  | nil => rfl
  | cons k rest ih =>
    unfold picked Assoc.keys at ih ⊢
    cases given : Assoc.get? fields k with
    | none => simp [given, ih, Assoc.contains]
    | some v => simp [given, ih, Assoc.contains]

theorem fieldsOfObject (fields : Fields) : (Value.object fields).fieldsOrNone = .ok fields := by
  cases fields <;> rfl

/-- What is not in the configuration is as it was given, and the configuration is what the shortcuts and
the partial configuration give. -/
theorem foldGives {fields folded config : Fields} (ok : foldShortcuts fields = .ok folded)
    (own : (Assoc.getD folded "config" .null).fieldsOrNone = .ok config) :
    (∀ key ∈ updatableKeys, key ≠ "config" → Assoc.get? folded key = Assoc.get? fields key) ∧
    ∃ part, (Assoc.getD fields "config" .null).fieldsOrNone = .ok part ∧
      ∀ key ∈ shortcutKeys, Assoc.get? config key = (Assoc.get? fields key).or (Assoc.get? part key) := by
  have shortcuts := getPicked fields shortcutKeys
  unfold foldShortcuts at ok
  change (if (picked fields shortcutKeys).isEmpty then _ else _) = _ at ok
  split at ok
  · rename_i none
    cases ok
    rw [List.isEmpty_iff.mp none] at shortcuts
    refine ⟨fun _ _ _ => rfl, config, own, fun key member => ?_⟩
    have absent := shortcuts key
    rw [if_pos member] at absent
    rw [← absent]
    rfl
  · obtain ⟨part, given, ok⟩ := bindAccepts.mp ok
    cases ok
    refine ⟨fun key updatable other => ?_, part, given, fun key member => ?_⟩
    · have apart : ∀ key ∈ updatableKeys, ¬ key ∈ shortcutKeys := by decide
      rw [Assoc.getSetOther _ (Ne.symm other),
        Assoc.getFilter fields (fun key => !shortcutKeys.contains key) key]
      simp [apart key updatable]
    · have merged : config = Assoc.merge part (picked fields shortcutKeys) := by
        rw [Assoc.getD, Assoc.getSet, if_pos rfl] at own
        exact (Except.ok.inj ((fieldsOfObject _).symm.trans own)).symm
      have unique : (Assoc.keys (picked fields shortcutKeys)).Nodup := by
        rw [keysPicked]
        exact List.Nodup.filter _ (by decide)
      rw [merged, Assoc.getMerge part unique, shortcuts, if_pos member]

/-! The whole rule -/

theorem Rule.Amends.alike {next : Nat} {given other config otherConfig : String → Option Value}
    {before after : Rule} (amends : Rule.Amends next given config before after)
    (same : ∀ key ∈ updatableKeys, key ≠ "config" → given key = other key)
    (sameConfig : ∀ key ∈ shortcutKeys, config key = otherConfig key) :
    Rule.Amends next other otherConfig before after where
  name := same "name" (by decide) (by decide) ▸ amends.name
  description := same "description" (by decide) (by decide) ▸ amends.description
  enabled := same "enabled" (by decide) (by decide) ▸ amends.enabled
  config := amends.config.alike sameConfig
  conditions := same "conditions" (by decide) (by decide) ▸ amends.conditions
  actions := same "actions" (by decide) (by decide) ▸ amends.actions
  bindings := same "variables" (by decide) (by decide) ▸ amends.bindings

theorem Rule.reviseAmends {r built : Rule} {next revision : Nat} {metadata : RuleMetadata} {fields : Fields}
    {config : String → Option Value}
    (configured : ∀ c, Takes (Assoc.get? fields "config") (Schema.model r.config.revise) r.config c →
      RuleConfig.Amends config r.config c)
    (ok : Rule.revise { r with metadata, revision } next fields = .ok built) :
    Rule.Amends next (Assoc.get? fields) config r built ∧ built.metadata = metadata := by
  simp only [Rule.revise, Schema.seqAccepts, Schema.mapAccepts] at ok
  obtain ⟨_, bindings, ⟨_, actions, ⟨_, conditions, ⟨_, revised, ⟨_, enabled, ⟨_, description,
    ⟨_, name, ⟨_, _, rfl⟩, hname, rfl⟩, hdescription, rfl⟩, henabled, rfl⟩, hrevised, rfl⟩,
    hconditions, rfl⟩, hactions, rfl⟩, hbindings, rfl⟩ := ok
  exact ⟨⟨withDefaultTakes hname, withDefaultTakes hdescription, withDefaultTakes henabled,
    configured revised (withDefaultTakes hrevised), withDefaultTakes hconditions,
    withDefaultTakes hactions, withDefaultTakes hbindings⟩, rfl⟩

namespace Drafting

theorem revisedAmends {d : Drafting} {current updated : Rule} {changes : Fields}
    (ok : d.revised current changes = .ok updated) :
    ∃ config, (Assoc.getD changes "config" .null).fieldsOrNone = .ok config ∧
      Rule.Amends d.next (Assoc.get? changes) (Assoc.get? config) current updated ∧
      updated.metadata = { current.metadata with updatedAt := d.now } := by
  unfold revised at ok
  split at ok
  · rename_i absent
    refine ⟨[], by simp [Assoc.getD, absent, Value.fieldsOrNone, Value.truthy], ?_⟩
    refine Rule.reviseAmends (fun c taken => ?_) (buildAccepts ok)
    rw [absent] at taken
    cases taken
    exact .nothing current.config
  · rename_i v given
    simp only [bindAccepts, liftAccepts, pureAccepts, exists_eq_left'] at ok
    obtain ⟨config, own, built⟩ := ok
    have placed (key : String) := Assoc.getSet changes "config" key (.object config)
    have configured : ∀ c, Takes (Assoc.get? (Assoc.set changes "config" (.object config)) "config")
        (Schema.model current.config.revise) current.config c →
        RuleConfig.Amends (Assoc.get? config) current.config c := fun c taken => by
      rw [placed, if_pos rfl] at taken
      obtain ⟨_, same, revised⟩ := Schema.modelAccepts.mp taken
      cases same
      exact RuleConfig.reviseAmends revised
    obtain ⟨amends, metadata⟩ := Rule.reviseAmends configured (buildAccepts built)
    refine ⟨config, by rw [Assoc.getD, given]; exact own, amends.alike (fun key _ other => ?_) ?_, metadata⟩
    · rw [placed, if_neg (Ne.symm other)]
    · exact fun _ _ => rfl

/-- Of the fields of a configuration, shortcuts come first and then the partial configuration. -/
theorem changesAmend {d : Drafting} {current updated : Rule} {given changes : Fields}
    (changed : d.changes given = .ok changes) (ok : d.revised current changes = .ok updated) :
    ∃ part, (Assoc.getD given "config" .null).fieldsOrNone = .ok part ∧
      Rule.Amends d.next (Assoc.get? given) (fun key => (Assoc.get? given key).or (Assoc.get? part key))
        current updated ∧
      updated.metadata = { current.metadata with updatedAt := d.now } := by
  obtain ⟨config, own, amends, metadata⟩ := revisedAmends ok
  simp only [Drafting.changes, bindAccepts, liftAccepts, pureAccepts] at changed
  obtain ⟨folded, shortened, _, _, rfl⟩ := changed
  have kept {key : String} (updatable : key ∈ updatableKeys) :
      Assoc.get? (folded.filter fun e => updatableKeys.contains e.1) key = Assoc.get? folded key :=
    (Assoc.getFilter folded updatableKeys.contains key).trans (by simp [updatable])
  rw [Assoc.getD, kept (by decide)] at own
  obtain ⟨others, part, given, merged⟩ := foldGives shortened own
  refine ⟨part, given, amends.alike (fun key updatable other => ?_) merged, metadata⟩
  exact (kept updatable).trans (others key updatable other)

end Drafting

namespace Registry

theorem updateAmends {d : Drafting} {r : Registry} {id : String} {given : Fields} {stored : Rule}
    {changed : List String} (ok : (r.update d id given).1 = .ok (stored, changed)) :
    ∃ current part, r.rule? id = some current ∧
      (Assoc.getD given "config" .null).fieldsOrNone = .ok part ∧
      Rule.Amends d.next (Assoc.get? given) (fun key => (Assoc.get? given key).or (Assoc.get? part key))
        current stored ∧
      stored.metadata = { current.metadata with updatedAt := d.now } := by
  unfold update at ok
  dsimp only at ok
  split at ok
  · cases ok
  · rename_i changes current updated planned
    simp only [bindAccepts, pureAccepts, Prod.mk.injEq] at planned
    obtain ⟨_, changed, _, found, _, revised, rfl, rfl, rfl⟩ := planned
    obtain ⟨_, replaced, same⟩ := mapAccepts.mp ok
    cases same
    obtain ⟨rfl, _⟩ := replaceAccepts replaced
    obtain ⟨part, own, amends, metadata⟩ := Drafting.changesAmend changed revised
    exact ⟨_, part, getAccepts.mp found, own, amends, metadata⟩

/-- Storing a known rule puts it in its place, and leaves all others in theirs. -/
theorem storedInPlace {r after : Registry} (keyed : r.Keyed) {rule : Rule}
    (known : (r.rule? rule.id).isSome) (rules : after.rules = Assoc.set r.rules rule.id rule) :
    after.list = r.list.map fun other => if other.id = rule.id then rule else other := by
  have own (entry : String × Rule) (member : entry ∈ r.rules) : entry.2.id = entry.1 :=
    keyed.named (Assoc.getOfMem keyed.unique member)
  rw [list, list, rules, Assoc.setKnown keyed.unique known]
  simp only [Assoc.values, List.map_map]
  refine List.map_congr_left fun entry member => ?_
  simp [own entry member]

/-- An update that succeeds changes what it names and nothing else. The rule keeps its identifier, its
statistics, what is known of its creation and its place; its revision grows by one. A field that is named
takes what is given, coerced, and any other field keeps its value; a partial configuration is merged key by
key, and shortcuts win. Every other rule stays as it is. -/
theorem updateChangesNamed (s : Settings) (calls : List Call) (d : Drafting) (id : String) (given : Fields)
    (stored : Rule) (changed : List String)
    (ok : ((empty.run s calls).update d id given).1 = .ok (stored, changed)) :
    let r := empty.run s calls
    let after := (r.update d id given).2
    ∃ before part, r.get id = .ok before ∧ after.get id = .ok stored ∧
      stored.id = before.id ∧ stored.stats = before.stats ∧ stored.revision = before.revision + 1 ∧
      stored.metadata = { before.metadata with updatedAt := d.now } ∧
      (Assoc.getD given "config" .null).fieldsOrNone = .ok part ∧
      Rule.Amends d.next (Assoc.get? given) (fun key => (Assoc.get? given key).or (Assoc.get? part key))
        before stored ∧
      after.list.map Rule.id = r.list.map Rule.id ∧
      after.list = (r.list.map fun rule => if rule.id = id then stored else rule) ∧
      ∀ other, other ≠ id → after.get other = r.get other := by
  intro r after
  have keyed : r.Keyed := runKeyed emptyKeyed s calls
  obtain ⟨before, found, own, stats, next, rules⟩ := updateAccepts ok
  obtain ⟨_, part, again, configured, amends, metadata⟩ := updateAmends ok
  cases again.symm.trans found
  have named : stored.id = id := own.trans (keyed.named found)
  have listed := storedInPlace keyed (named ▸ Option.isSome_of_eq_some found) rules
  rw [named] at listed
  refine ⟨before, part, getAccepts.mpr found, ?_, own, stats, next, metadata, configured, amends, ?_, listed,
    fun other apart => ?_⟩
  · exact getAccepts.mpr ((storedRule rules id).trans (if_pos named))
  · rw [listed, List.map_map]
    refine List.map_congr_left fun rule _ => ?_
    by_cases here : rule.id = id
    · simp [here, named]
    · simp [here]
  · have same : after.rule? other = r.rule? other :=
      (storedRule rules other).trans (if_neg (named ▸ Ne.symm apart))
    rw [get, get, same]

/-- A shortcut wins over the same key of the partial configuration, which for its part wins over what was
there; an identifier and a revision that are given make no difference. -/
theorem updateChangesNamedMerging :
    let create (id : String) : Call := .create (.ofBuiltins true) 1 0
      [("id", .text id), ("priority", .text "low"), ("tags", .list [.text "old"]), ("group", .text "g")]
    let r := empty.run .default [create "a", create "r", create "z", .record "r" 2 0 true 3 0]
    let given : Fields := [("id", .text "z"), ("revision", .int 7), ("priority", .text "critical"),
      ("config", .object [("priority", .text "high"), ("group", .null)])]
    ∃ stored changed before, (r.update ⟨.default, .ofBuiltins true, 5, 0⟩ "r" given).1 = .ok (stored, changed) ∧
      r.get "r" = .ok before ∧ stored.stats = before.stats ∧ before.stats.executed = 3 ∧
      stored.revision = before.revision + 1 ∧ stored.config.tags = ["old"] ∧
      stored.config.priority = .critical ∧ stored.config.group = none ∧
      (r.update ⟨.default, .ofBuiltins true, 5, 0⟩ "r" given).2.list.map Rule.id = ["a", "r", "z"] := by
  intro create r given
  obtain ⟨before, _, found, _, _, stats, next, _, _, _, order, _⟩ := updateChangesNamed .default
    [create "a", create "r", create "z", .record "r" 2 0 true 3 0] ⟨.default, .ofBuiltins true, 5, 0⟩ "r" given
    _ _ rfl
  refine ⟨_, _, before, rfl, found, stats, ?_, next, rfl, rfl, rfl, order⟩
  cases found
  rfl

end Registry
end DecisionRules
