import DecisionRules.Proofs.Engine.Run
import DecisionRules.Proofs.Registry.Consistency

/-! Changes of rules and groups that fail. A failed change leaves the whole engine as it was, with one
exception: a group that is made for a rule stays behind when it has no room for it. -/
namespace DecisionRules

/-! Which failures are for want of room in a group: none that a check of a definition finds. -/

def Roomy {α : Type} (x : Outcome α) : Prop := ∀ name, x ≠ .error (.registry (.groupFull name))

namespace Roomy
variable {α β : Type}

theorem ok (a : α) : Roomy (.ok a) := fun _ h => by contradiction

theorem bind {x : Outcome α} {f : α → Outcome β} (first : Roomy x) (next : ∀ a, Roomy (f a)) :
    Roomy (x >>= f) := by
  cases x with
  | ok a => exact next a
  | error e => exact fun name h => first name (by simpa [Bind.bind, Except.bind] using h)

theorem branch {c : Prop} [Decidable c] {x y : Outcome α} (yes : Roomy x) (no : Roomy y) :
    Roomy (if c then x else y) := by
  split
  · exact yes
  · exact no

theorem lift (x : Except Breach α) : Roomy (liftM x : Outcome α) := by
  intro name
  cases x <;> simp [liftM, monadLift, MonadLift.monadLift, Outcome.ofBreach]

theorem ofBreach (x : Except Breach α) : Roomy (Outcome.ofBreach x) := lift x

theorem map {x : Outcome α} (first : Roomy x) (f : α → β) : Roomy (x.map f) := by
  cases x with
  | ok a => exact ok (f a)
  | error e => exact fun name h => first name (by simpa [Except.map] using h)

theorem conclude {model : String} {fault : Schema.Report → Failure} {x : Schema.Checked α}
    (other : ∀ report name, fault report ≠ .registry (.groupFull name)) :
    Roomy (Schema.conclude model fault x) := by
  cases x with
  | ok a => exact ok a
  | faulty issues => exact fun name h => other _ name (Except.error.inj h)

end Roomy

namespace Condition

theorem compilePatternRoomy (source : String) (ignoreCase : Bool) :
    Roomy (compilePattern source ignoreCase) := by
  unfold compilePattern
  intro name
  split <;> simp

theorem validateExpressionRoomy (allowed : Bool) (source : String) :
    Roomy (validateExpression allowed source) := by
  unfold validateExpression
  intro name
  split
  · simp
  · split <;> simp

theorem validateFunctionRoomy (ops : Operators) (name : Value) (args : Option Value) :
    Roomy (validateFunction ops name args) := by
  unfold validateFunction
  intro group
  split
  · split
    · simp
    · split <;> simp
  · unfold unknownFunction
    split <;> simp

theorem validatePatternRoomy (pattern : Value) : Roomy (validatePattern pattern) := by
  unfold validatePattern
  split
  · split
    · exact Roomy.ok _
    · exact Roomy.map (compilePatternRoomy _ _) _
  · exact Roomy.ok _
  · exact fun name h => by simp at h

theorem checkRoomy (good : Bool) (fault : ConditionFault) : Roomy (check good fault) := by
  unfold check
  intro name
  split <;> simp

mutual
theorem validateRoomy (ops : Operators) (allowed : Bool) (c : Condition) :
    Roomy (c.validate ops allowed) := by
  cases c with
  | literal b => exact Roomy.ok _
  | expression source => exact validateExpressionRoomy allowed source
  | inert v =>
    intro name
    cases v <;> simp [validate]
  | headless => exact fun name h => by simp [validate] at h
  | logical op children =>
    unfold validate
    split
    · exact fun name h => by simp at h
    · exact validateAllRoomy ops allowed children
  | not child => cases child with
    | none => exact Roomy.ok _
    | some c => exact validateRoomy ops allowed c
  | childless op => exact fun name h => by simp [validate] at h
  | comparison op left right => exact Roomy.ok _
  | inclusion negated left right => exact checkRoomy _ _
  | text op left right => exact Roomy.ok _
  | matching left pattern => exact validatePatternRoomy pattern
  | between value range => exact checkRoomy _ _
  | existence field =>
    unfold validate validateField
    split
    · exact checkRoomy _ _
    · exact fun name h => by simp at h
  | function name args => exact validateFunctionRoomy ops name args
  | custom op node => exact checkRoomy _ _
theorem validateAllRoomy (ops : Operators) (allowed : Bool) (cs : List Condition) :
    Roomy (validateAll ops allowed cs) := by
  cases cs with
  | nil => exact Roomy.ok _
  | cons c rest =>
    exact Roomy.bind (validateRoomy ops allowed c) fun _ => validateAllRoomy ops allowed rest
end

end Condition

namespace Action

theorem rejectRoomy {α : Type} (fault : ActionFault) : Roomy (reject fault : Outcome α) :=
  fun name h => by simp [reject] at h

theorem validateLogRoomy (config : Fields) : Roomy (validateLog config) := by
  refine Roomy.bind (Roomy.lift _) fun level => ?_
  exact Roomy.branch (rejectRoomy _) (Roomy.ok _)

theorem validateVariableRoomy (config : Fields) : Roomy (validateVariable config) := by
  have complain : ∀ (x : Except Breach String) (fault : String → ActionFault),
      Roomy (do reject (fault (← x)) : Outcome Unit) := fun x fault =>
    Roomy.bind (Roomy.lift x) fun shown => rejectRoomy (fault shown)
  have scope : Roomy (if !(Assoc.getD config "scope" (.text "local")).isOneOf variableScopes then
      (do reject (.unknownScope (← (setting config "scope").display))) else pure () :
      Outcome Unit) := Roomy.branch (complain _ _) (Roomy.ok _)
  unfold validateVariable
  refine Roomy.branch (Roomy.bind (rejectRoomy _) fun _ => ?_) ?_
  all_goals
    exact Roomy.branch (Roomy.bind (Roomy.lift _) fun _ => Roomy.bind (rejectRoomy _) fun _ => scope)
      scope

theorem validateConfigRoomy (a : Action) : Roomy a.validateConfig := by
  unfold validateConfig
  split
  · exact validateLogRoomy _
  · exact validateVariableRoomy _
  · exact Roomy.branch (rejectRoomy _) (Roomy.ok _)
  · exact Roomy.ok _
  · exact Roomy.branch (rejectRoomy _) (Roomy.ok _)
  · exact Roomy.branch (rejectRoomy _) (Roomy.ok _)

theorem validateFromRoomy (position next : Nat) (items : List Value) :
    Roomy (validateFrom position next items) := by
  induction items generalizing position next with
  | nil => exact Roomy.ok _
  | cons v rest ih =>
    refine Roomy.bind (Roomy.conclude fun _ _ => by simp) fun a => ?_
    refine Roomy.bind (validateConfigRoomy a) fun _ => ?_
    exact Roomy.bind (ih _ _) fun _ => Roomy.ok _

theorem validateAllRoomy (actions : Value) (limit : Int) (next : Nat) :
    Roomy (validateAll actions limit next) := by
  refine Roomy.bind (Roomy.lift _) fun items => ?_
  refine Roomy.branch (Roomy.bind (rejectRoomy _) fun _ => ?_) ?_ <;> exact validateFromRoomy _ _ _

end Action

namespace Drafting

theorem validatePartsRoomy (d : Drafting) (fields : Fields) : Roomy (d.validateParts fields) := by
  have actions (given : Value) : Roomy (do
      let _ ← Action.validateAll given d.settings.actions.maxPerRule d.next : Outcome Unit) :=
    Roomy.bind (Action.validateAllRoomy _ _ _) fun _ => Roomy.ok _
  unfold validateParts
  dsimp only
  split
  · refine Roomy.bind (Condition.validateRoomy _ _ _) fun _ => ?_
    split
    · exact actions _
    · exact Roomy.ok _
  · split
    · exact actions _
    · exact Roomy.ok _

theorem buildRoomy (base : Rule) (next : Nat) (fields : Fields) : Roomy (build base next fields) := by
  refine Roomy.bind (Roomy.conclude fun _ _ => by simp) fun rule => ?_
  refine Roomy.branch (fun name h => ?_) (Roomy.ok _)
  simp [throw, throwThe, MonadExceptOf.throw, bind, Except.bind] at h

theorem draftRoomy (d : Drafting) (definition : Fields) : Roomy (d.draft definition) := by
  refine Roomy.bind (Roomy.lift _) fun fields => ?_
  refine Roomy.bind (Roomy.lift _) fun config => ?_
  refine Roomy.bind (Roomy.lift _) fun metadata => ?_
  refine Roomy.bind (Roomy.conclude fun _ _ => by simp) fun metadata => ?_
  exact Roomy.bind (validatePartsRoomy d fields) fun _ => buildRoomy _ _ _

theorem changesRoomy (d : Drafting) (update : Fields) : Roomy (d.changes update) := by
  refine Roomy.bind (Roomy.lift _) fun folded => ?_
  exact Roomy.bind (validatePartsRoomy d _) fun _ => Roomy.ok _

theorem revisedRoomy (d : Drafting) (current : Rule) (changes : Fields) :
    Roomy (d.revised current changes) := by
  unfold revised
  dsimp only
  split
  · exact buildRoomy _ _ _
  · exact Roomy.bind (Roomy.lift _) fun _ => buildRoomy _ _ _

end Drafting

namespace Registry

/-- What a change that fails leaves of a registry: all of it, or all of it and the group without room. -/
inductive Left (s : Settings) (r : Registry) : Failure → Registry → Prop where
  | same {f : Failure} (other : ∀ name, f ≠ .registry (.groupFull name)) : Left s r f r
  | full {name : String}
      (noRoom : (r.groupFor s name).maxRules ≤ ((r.groupFor s name).ruleIds.length : Int)) :
      Left s r (.registry (.groupFull name))
        { r with groups := Assoc.set r.groups name (r.groupFor s name) }

theorem leftRoomy {α : Type} {s : Settings} {r : Registry} {x : Outcome α} {f : Failure}
    (failed : x = .error f) (roomy : Roomy x) : Left s r f r :=
  .same fun name full => roomy name (full ▸ failed)

theorem attachLeft {s : Settings} {r : Registry} {id : String} {group : Option String} {f : Failure}
    (failed : (r.attach? s id group).1 = .error f) : Left s r f (r.attach? s id group).2 := by
  cases group with
  | none => cases failed
  | some name =>
    change (r.attach s id name).1 = .error f at failed
    change Left s r f (r.attach s id name).2
    unfold attach at failed ⊢
    dsimp only at failed ⊢
    split at failed
    · rename_i noRoom
      cases failed
      rw [if_pos noRoom]
      exact .full noRoom
    · cases failed

theorem insertLeft {s : Settings} {r : Registry} {rule : Rule} {f : Failure}
    (failed : (r.insert s rule).1 = .error f) : Left s r f (r.insert s rule).2 := by
  unfold insert at failed ⊢
  by_cases known : Assoc.contains r.rules rule.id
  · rw [if_pos known] at failed ⊢
    cases failed
    exact .same fun _ => by simp
  rw [if_neg known] at failed ⊢
  by_cases exhausted : s.maxRules ≤ r.rules.length
  · rw [if_pos exhausted] at failed ⊢
    cases failed
    exact .same fun _ => by simp
  rw [if_neg exhausted] at failed ⊢
  have entering := @attachLeft s r rule.id rule.group
  cases entered : r.attach? s rule.id rule.group with
  | mk outcome after =>
    rw [entered] at failed entering
    cases outcome with
    | error g =>
      cases failed
      exact entering rfl
    | ok _ => cases failed

theorem createLeft {d : Drafting} {r : Registry} {definition : Fields} {f : Failure}
    (failed : (r.create d definition).1 = .error f) :
    Left d.settings r f (r.create d definition).2 := by
  unfold create at failed ⊢
  cases drafted : d.draft definition with
  | error g =>
    rw [drafted] at failed
    cases failed
    exact leftRoomy drafted (d.draftRoomy definition)
  | ok rule =>
    rw [drafted] at failed
    exact insertLeft failed

theorem replaceLeft {s : Settings} {r : Registry} {current updated : Rule} {f : Failure}
    (failed : (r.replace s current updated).1 = .error f) :
    Left s r f (r.replace s current updated).2 := by
  unfold replace at failed ⊢
  by_cases stays : updated.group = current.group
  · rw [if_pos stays] at failed
    cases failed
  rw [if_neg stays] at failed ⊢
  have entering := @attachLeft s r updated.id updated.group
  cases entered : r.attach? s updated.id updated.group with
  | mk outcome after =>
    rw [entered] at failed entering
    cases outcome with
    | error g =>
      cases failed
      exact entering rfl
    | ok _ => cases failed

theorem getRoomy (r : Registry) (id : String) : Roomy (r.get id) := by
  unfold get
  intro name
  split <;> simp

theorem updateLeft {d : Drafting} {r : Registry} {id : String} {given : Fields} {f : Failure}
    (failed : (r.update d id given).1 = .error f) :
    Left d.settings r f (r.update d id given).2 := by
  unfold update at failed ⊢
  dsimp only at failed ⊢
  split at failed
  · rename_i g planned
    cases failed
    refine leftRoomy planned ?_
    refine Roomy.bind (d.changesRoomy given) fun changes => ?_
    refine Roomy.bind (r.getRoomy id) fun current => ?_
    exact Roomy.bind (d.revisedRoomy current changes) fun _ => Roomy.ok _
  · rename_i changes current updated planned
    dsimp only at failed
    have stored : (r.replace d.settings current updated).1 = .error f := by
      cases outcome : (r.replace d.settings current updated).1 with
      | ok rule => simp [outcome, Except.map] at failed
      | error g => simpa [outcome, Except.map] using failed
    exact replaceLeft stored

theorem deleteLeft {s : Settings} {r : Registry} {id : String} {f : Failure}
    (failed : (r.delete id).1 = .error f) : Left s r f (r.delete id).2 := by
  unfold delete at failed ⊢
  cases found : r.get id with
  | error g =>
    rw [found] at failed
    cases failed
    exact leftRoomy found (r.getRoomy id)
  | ok rule =>
    rw [found] at failed
    cases failed

theorem checkGroupNameRoomy (r : Registry) (name : Value) : Roomy (r.checkGroupName name) := by
  unfold checkGroupName refuse
  intro other
  split
  · simp
  · split
    · simp
    · split
      · split <;> simp
      · simp

theorem draftGroupRoomy (s : Settings) (name mode maxRules : Value) :
    Roomy (draftGroup s name mode maxRules) :=
  Roomy.bind (Roomy.ofBreach _) fun _ => Roomy.conclude fun _ _ => by simp

theorem createGroupLeft {s : Settings} {r : Registry} {name mode maxRules : Value} {f : Failure}
    (failed : (r.createGroup s name mode maxRules).1 = .error f) :
    Left s r f (r.createGroup s name mode maxRules).2 := by
  unfold createGroup at failed ⊢
  split at failed
  · rename_i g refused
    cases failed
    exact leftRoomy refused
      (Roomy.bind (r.checkGroupNameRoomy name) fun _ => draftGroupRoomy s name mode maxRules)
  · cases failed

/-! What is left, read -/

theorem leftSame {s : Settings} {r after : Registry} {f : Failure} (left : Left s r f after)
    (there : ∀ name, f = .registry (.groupFull name) → Assoc.contains r.groups name = true) :
    after = r := by
  cases left with
  | same other => rfl
  | @full name noRoom =>
    obtain ⟨g, found⟩ := Option.isSome_iff_exists.mp (there name rfl)
    have own : r.groupFor s name = g := by simp [groupFor, found]
    rw [own, Assoc.setSame found]

theorem leftMore {s : Settings} {r after : Registry} {f : Failure} (left : Left s r f after)
    {name : String} (full : f = .registry (.groupFull name))
    (fresh : Assoc.contains r.groups name = false) :
    s.groups.maxPerGroup ≤ 0 ∧
    after = { r with groups := r.groups ++ [(name, ⟨name, s.groups.mode, s.groups.maxPerGroup, []⟩)] } := by
  cases left with
  | same other => exact absurd full (other name)
  | @full group noRoom =>
    cases full
    have made : r.groupFor s name = ⟨name, s.groups.mode, s.groups.maxPerGroup, []⟩ := by
      simp [groupFor, Assoc.notContains.mp fresh]
    rw [made] at noRoom ⊢
    exact ⟨by simpa using noRoom, by rw [Assoc.setFresh fresh]⟩

end Registry

namespace Engine

def LeftBy (e : Engine) (f : Failure) (after : Engine) : Prop :=
  ∃ registry, Registry.Left e.settings e.registry f registry ∧ after = { e with registry := registry }

theorem createRuleLeft {e : Engine} {definition : Fields} {f : Failure}
    (failed : (e.createRule definition).1 = .error f) : e.LeftBy f (e.createRule definition).2 := by
  have left := @Registry.createLeft e.drafting e.registry definition
  unfold createRule at failed ⊢
  cases created : e.registry.create e.drafting definition with
  | mk outcome registry =>
    rw [created] at failed left
    cases outcome with
    | error g =>
      cases failed
      exact ⟨registry, left rfl, rfl⟩
    | ok rule => cases failed

theorem copyRuleLeft {e : Engine} {id : String} {fields : Fields} {f : Failure}
    (failed : (e.copyRule id fields).1 = .error f) : e.LeftBy f (e.copyRule id fields).2 := by
  unfold copyRule at failed ⊢
  cases found : e.registry.get id with
  | error g =>
    rw [found] at failed
    cases failed
    exact ⟨e.registry, Registry.leftRoomy found (e.registry.getRoomy id), rfl⟩
  | ok rule =>
    rw [found] at failed
    exact createRuleLeft failed

theorem updateRuleLeft {e : Engine} {id : String} {given : Fields} {f : Failure}
    (failed : (e.updateRule id given).1 = .error f) : e.LeftBy f (e.updateRule id given).2 := by
  have left := @Registry.updateLeft e.drafting e.registry id given
  unfold updateRule at failed ⊢
  cases updated : e.registry.update e.drafting id given with
  | mk outcome registry =>
    rw [updated] at failed left
    cases outcome with
    | error g =>
      cases failed
      exact ⟨registry, left rfl, rfl⟩
    | ok rule => cases failed

theorem deleteRuleLeft {e : Engine} {id : String} {f : Failure}
    (failed : (e.deleteRule id).1 = .error f) : e.LeftBy f (e.deleteRule id).2 := by
  have left := @Registry.deleteLeft e.settings e.registry id
  unfold deleteRule at failed ⊢
  cases deleted : e.registry.delete id with
  | mk outcome registry =>
    rw [deleted] at failed left
    cases outcome with
    | error g =>
      cases failed
      exact ⟨registry, left rfl, rfl⟩
    | ok rule => cases failed

theorem createGroupLeft {e : Engine} {name mode maxRules : Value} {f : Failure}
    (failed : (e.createGroup name mode maxRules).1 = .error f) :
    e.LeftBy f (e.createGroup name mode maxRules).2 :=
  ⟨_, Registry.createGroupLeft failed, rfl⟩

theorem mapFails {α β : Type} {x : Outcome α} {g : α → β} {f : Failure} :
    x.map g = .error f ↔ x = .error f := by
  cases x <;> simp [Except.map]

theorem changeLeft {e : Engine} {c : Change} {f : Failure} (failed : (e.change c).1 = .error f) :
    e.LeftBy f (e.change c).2 := by
  cases c with
  | create definition => exact createRuleLeft (mapFails.mp failed)
  | copy id fields => exact copyRuleLeft (mapFails.mp failed)
  | update id given => exact updateRuleLeft (mapFails.mp failed)
  | delete id => exact deleteRuleLeft failed
  | createGroup name mode maxRules => exact createGroupLeft (mapFails.mp failed)

/-- A change that fails leaves the engine as it was exactly if it is not a missing group that has no
room. Such a group is the one thing that is left behind, which takes a usual limit below one. -/
theorem failedChange (e : Engine) (c : Change) (f : Failure) (failed : (e.change c).1 = .error f) :
    ((e.change c).2 = e ↔
      ∀ name, f = .registry (.groupFull name) → Assoc.contains e.registry.groups name = true) ∧
    (0 < e.settings.groups.maxPerGroup → (e.change c).2 = e) ∧
    (∀ name, f = .registry (.groupFull name) → Assoc.contains e.registry.groups name = false →
      (e.change c).2 = { e with registry := { e.registry with
        groups := e.registry.groups ++
          [(name, ⟨name, e.settings.groups.mode, e.settings.groups.maxPerGroup, []⟩)] } }) := by
  obtain ⟨registry, left, after⟩ := changeLeft failed
  have kept (there : ∀ name, f = .registry (.groupFull name) →
      Assoc.contains e.registry.groups name = true) : (e.change c).2 = e := by
    rw [after, Registry.leftSame left there]
  refine ⟨⟨fun same name full => ?_, kept⟩, fun limit => kept fun name full => ?_,
    fun name full fresh => ?_⟩
  · by_contra fresh
    have more := (Registry.leftMore left full (by simpa using fresh)).2
    have unchanged : registry = e.registry := congrArg Engine.registry (after.symm.trans same)
    have longer := congrArg (fun r : Registry => r.groups.length) (unchanged.symm.trans more)
    simp at longer
  · by_contra fresh
    have noLimit := (Registry.leftMore left full (by simpa using fresh)).1
    omega
  · rw [after, (Registry.leftMore left full fresh).2]

theorem failedChangeUnknown :
    ((probe .default).change (.delete "a")).1 = .error (.notFound "Rule" "a") ∧
    ((probe .default).change (.delete "a")).2 = probe .default :=
  ⟨rfl, (failedChange (probe .default) (.delete "a") _ rfl).1.mpr fun _ full => by cases full⟩

/-- With accepted settings, a rule is refused for want of room and leaves its empty group. -/
theorem failedChangeLeavesGroup :
    ∃ s, Settings.ofValue (.object [("groups", .object [("max_per_group", .int 0)])]) = .ok s ∧
      (let (outcome, after) := (probe s).change (.create [("id", .text "a"),
        ("config", .object [("group", .text "g")])])
      outcome = .error (.registry (.groupFull "g")) ∧
      after.registry.groups = [("g", ⟨"g", .sequential, 0, []⟩)] ∧
      (probe s).registry.groups = []) :=
  ⟨{ Settings.default with groups := ⟨0, .sequential⟩ }, rfl, rfl, rfl, rfl⟩

end Engine
end DecisionRules
