import DecisionRules.Proofs.Registry.Membership

/-! The invariant of the registry, over every sequence of operations. Rules stand under their own
identifiers, no more of them than allowed; a group lists an identifier exactly if that is a stored rule
with this group. -/
namespace DecisionRules.Registry

structure Consistent (s : Settings) (r : Registry) : Prop where
  unique : (Assoc.keys r.rules).Nodup
  named : ∀ {id rule}, r.rule? id = some rule → rule.id = id
  capacity : (r.rules.length : Int) ≤ max 0 s.maxRules
  orderly : Orderly r.groups
  agree : ∀ id name, Seats r.groups id name ↔ ∃ rule, r.rule? id = some rule ∧ rule.group = some name

theorem emptyConsistent (s : Settings) : Consistent s empty where
  unique := List.nodup_nil
  named := by simp [rule?, empty, Assoc.get?]
  capacity := Int.le_max_left 0 _
  orderly := ⟨List.nodup_nil, by simp [empty, Assoc.get?], by simp [empty, Assoc.get?],
    by simp [empty, Assoc.get?]⟩
  agree := by simp [Seats, rule?, empty, Assoc.get?]

theorem ruleStore (r : Registry) (rule : Rule) (id : String) :
    (r.store rule).rule? id = if rule.id = id then some rule else r.rule? id :=
  Assoc.getSet r.rules rule.id id rule

theorem regroupConsistent {s : Settings} {r after : Registry} (valid : Consistent s r)
    (rules : after.rules = r.rules) (orderly : Orderly after.groups)
    (seats : ∀ id name, Seats after.groups id name ↔ Seats r.groups id name) : Consistent s after where
  unique := rules ▸ valid.unique
  named := by
    unfold rule?
    exact rules ▸ valid.named
  capacity := rules ▸ valid.capacity
  orderly := orderly
  agree := by
    intro id name
    unfold rule?
    rw [rules]
    exact (seats id name).trans (valid.agree id name)

theorem storeConsistent {s : Settings} {r after : Registry} (valid : Consistent s r)
    {current updated : Rule} (found : r.rule? updated.id = some current)
    (rules : after.rules = r.rules) (orderly : Orderly after.groups)
    (seats : ∀ id name, Seats after.groups id name ↔
      if updated.id = id then updated.group = some name else Seats r.groups id name) :
    Consistent s (after.store updated) where
  unique := Assoc.uniqueSet (rules ▸ valid.unique) updated.id updated
  named := by
    intro id rule there
    rw [ruleStore] at there
    split at there
    · rename_i same
      exact Option.some.inj there ▸ same
    · exact valid.named (by simpa [rule?, rules] using there)
  capacity := by
    have known : Assoc.contains after.rules updated.id = true := by
      rw [rules]
      exact Option.isSome_iff_exists.mpr ⟨current, found⟩
    have counted : (after.store updated).rules.length = r.rules.length :=
      (Assoc.lengthSetKnown known updated).trans (congrArg List.length rules)
    rw [counted]
    exact valid.capacity
  orderly := orderly
  agree := by
    intro id name
    refine (seats id name).trans ?_
    rw [ruleStore]
    by_cases same : updated.id = id
    · simp [same]
    · simpa [same, rule?, rules] using valid.agree id name

/-! Operations -/

theorem insertConsistent {s : Settings} {r : Registry} (valid : Consistent s r) (rule : Rule) :
    Consistent s (r.insert s rule).2 := by
  unfold insert
  by_cases known : Assoc.contains r.rules rule.id
  · rw [if_pos known]
    exact valid
  rw [if_neg known]
  by_cases full : s.maxRules ≤ r.rules.length
  · rw [if_pos full]
    exact valid
  rw [if_neg full]
  have absent : r.rule? rule.id = none := Assoc.notContains.mp (by simpa using known)
  have nobody : ∀ name, ¬ Seats r.groups rule.id name := fun name seat => by
    obtain ⟨_, there, _⟩ := (valid.agree rule.id name).mp seat
    simp [absent] at there
  have rules := attach?Rules s r rule.id rule.group
  have orderly : Orderly (r.attach? s rule.id rule.group).2.groups :=
    attach?Orderly valid.orderly (fun name _ => nobody name) s
  have seats := attach?Seats s r rule.id rule.group
  cases entered : r.attach? s rule.id rule.group with
  | mk outcome after =>
    simp only [entered] at rules orderly seats
    cases outcome with
    | error f => exact regroupConsistent valid rules orderly (by simpa using seats)
    | ok _ =>
      change Consistent s (after.store rule)
      refine ⟨Assoc.uniqueSet (rules ▸ valid.unique) rule.id rule, ?_, ?_, orderly, ?_⟩
      · intro id other there
        rw [ruleStore] at there
        split at there
        · rename_i same
          exact Option.some.inj there ▸ same
        · exact valid.named (by simpa [rule?, rules] using there)
      · have counted : (after.store rule).rules.length = r.rules.length + 1 := by
          have fresh : Assoc.contains after.rules rule.id = false := by simpa [rules] using known
          exact (Assoc.lengthSetFresh fresh rule).trans (by rw [rules])
        have bound := valid.capacity
        omega
      · intro id name
        refine (seats id name).trans ?_
        rw [ruleStore]
        by_cases same : rule.id = id
        · subst same
          simp [nobody name]
        · have other : id ≠ rule.id := fun back => same back.symm
          simpa [same, other, rule?, rules] using valid.agree id name

theorem createConsistent {s : Settings} {r : Registry} (valid : Consistent s r) {d : Drafting}
    (settings : d.settings = s) (definition : Fields) : Consistent s (r.create d definition).2 := by
  unfold create
  cases d.draft definition with
  | error f => exact valid
  | ok rule => exact settings ▸ insertConsistent (settings ▸ valid) rule

theorem replaceConsistent {s : Settings} {r : Registry} (valid : Consistent s r)
    {current updated : Rule} (found : r.rule? current.id = some current)
    (same : updated.id = current.id) : Consistent s (r.replace s current updated).2 := by
  rw [← same] at found
  have listed : ∀ name, Seats r.groups updated.id name ↔ current.group = some name := fun name => by
    rw [valid.agree updated.id name]
    simp [found]
  unfold replace
  by_cases stays : updated.group = current.group
  · rw [if_pos stays]
    refine storeConsistent valid found rfl valid.orderly ?_
    intro id name
    split
    · rename_i here
      rw [← here, stays]
      exact listed name
    · exact Iff.rfl
  rw [if_neg stays]
  have fresh : ∀ name, updated.group = some name → ¬ Seats r.groups updated.id name :=
    fun name goes seat => stays (goes.trans ((listed name).mp seat).symm)
  have rules := attach?Rules s r updated.id updated.group
  have orderly := attach?Orderly valid.orderly fresh s
  have seats := attach?Seats s r updated.id updated.group
  cases entered : r.attach? s updated.id updated.group with
  | mk outcome after =>
    simp only [entered] at rules orderly seats
    cases outcome with
    | error f => exact regroupConsistent valid rules orderly (by simpa using seats)
    | ok _ =>
      refine storeConsistent valid found ((detach?Rules _ _ _).trans rules)
        (detach?Orderly orderly _ _) ?_
      intro id name
      rw [detach?Seats orderly, seats, ← same]
      by_cases here : updated.id = id
      · subst here
        simp only [if_true, true_and, listed]
        exact ⟨fun ⟨seat, gone⟩ => seat.resolve_left gone, fun goes =>
          ⟨.inr goes, fun stayed => stays (goes.trans stayed.symm)⟩⟩
      · have other : id ≠ updated.id := fun back => here back.symm
        simp [here, other]

theorem getAccepts {r : Registry} {id : String} {rule : Rule} :
    r.get id = .ok rule ↔ r.rule? id = some rule := by
  unfold get
  cases r.rule? id <;> simp

theorem updateConsistent {s : Settings} {r : Registry} (valid : Consistent s r) {d : Drafting}
    (settings : d.settings = s) (id : String) (given : Fields) :
    Consistent s (r.update d id given).2 := by
  unfold update
  dsimp only
  split
  · exact valid
  · rename_i changes current updated planned
    simp only [bindAccepts, pureAccepts, Prod.mk.injEq] at planned
    obtain ⟨_, changed, _, found, _, revised, rfl, rfl, rfl⟩ := planned
    have stored := getAccepts.mp found
    have own := valid.named stored
    have kept := Drafting.revisedKeeps (Drafting.changesAllowed changed (by decide)) revised
    exact settings ▸ replaceConsistent (settings ▸ valid) (own ▸ stored) kept.1

theorem deleteConsistent {s : Settings} {r : Registry} (valid : Consistent s r) (id : String) :
    Consistent s (r.delete id).2 := by
  unfold delete
  cases found : r.get id with
  | error f => exact valid
  | ok rule =>
    dsimp only
    have stored := getAccepts.mp found
    have rules := detach?Rules { r with rules := Assoc.erase r.rules id } id rule.group
    have gone : ∀ key, Assoc.get? (Assoc.erase r.rules id) key =
        if id = key then none else r.rule? key := Assoc.getErase valid.unique id
    refine ⟨?_, ?_, ?_, detach?Orderly (r := ⟨Assoc.erase r.rules id, r.groups⟩) valid.orderly id rule.group, ?_⟩
    · rw [rules]
      exact Assoc.uniqueErase valid.unique id
    · intro key other there
      rw [rule?, rules] at there
      rw [gone] at there
      split at there
      · contradiction
      · exact valid.named there
    · have fewer := Assoc.lengthErase r.rules id
      have bound := valid.capacity
      rw [rules]
      dsimp only
      omega
    · intro key name
      rw [detach?Seats (r := ⟨Assoc.erase r.rules id, r.groups⟩) valid.orderly, rule?, rules, gone]
      have agree := valid.agree key name
      by_cases here : id = key
      · subst here
        simp only [agree, stored, Option.some.injEq, exists_eq_left', if_true]
        tauto
      · have other : key ≠ id := fun back => here back.symm
        simpa [here, other] using agree

theorem draftGroupAccepts {s : Settings} {r : Registry} {name mode maxRules : Value} {g : RuleGroup}
    (free : r.checkGroupName name = .ok ()) (made : draftGroup s name mode maxRules = .ok g) :
    g.ruleIds = [] ∧ Assoc.contains r.groups g.name = false := by
  simp only [draftGroup, bindAccepts, Schema.concludeAccepts, RuleGroup.ofFields,
    Schema.seqAccepts, Schema.mapAccepts, Schema.requiredAccepts, Schema.textAccepts] at made
  obtain ⟨_, _, _, limit, ⟨_, mode, ⟨key, ⟨_, found, text⟩, rfl⟩, _, rfl⟩, _, rfl⟩ := made
  refine ⟨rfl, ?_⟩
  have named : name = .text key := (Option.some.inj found).trans text
  subst named
  unfold checkGroupName at free
  split at free
  · contradiction
  · split at free
    · contradiction
    · dsimp only at free
      split at free
      · contradiction
      · simpa using ‹¬ Assoc.contains r.groups key = true›

theorem createGroupConsistent {s : Settings} {r : Registry} (valid : Consistent s r)
    (name mode maxRules : Value) : Consistent s (r.createGroup s name mode maxRules).2 := by
  unfold createGroup
  split
  · exact valid
  · rename_i g made
    obtain ⟨_, free, made⟩ := bindAccepts.mp made
    obtain ⟨empty, fresh⟩ := draftGroupAccepts free made
    refine regroupConsistent valid rfl
      (setOrderly valid.orderly rfl (empty ▸ List.nodup_nil) ?_) ?_
    · simp only [empty, List.length_nil]
      exact Int.le_max_left 0 _
    · intro id name
      rw [setSeats]
      split
      · rename_i same
        simp [empty, Seats, ← same, Assoc.notContains.mp fresh]
      · exact Iff.rfl

theorem recordConsistent {s : Settings} {r : Registry} (valid : Consistent s r) (id : String)
    (now : Int) (duration : Float) (matched : Bool) (executed failed : Int) :
    Consistent s (r.record id now duration matched executed failed) := by
  unfold record
  cases found : r.rule? id with
  | none => exact valid
  | some rule =>
    have own := valid.named found
    subst own
    refine storeConsistent valid found rfl valid.orderly ?_
    intro id name
    split
    · rename_i same
      rw [← same, valid.agree]
      simp [found, Rule.group]
    · exact Iff.rfl

/-! Runs -/

inductive Call where
  | create (operators : Operators) (now : Int) (next : Nat) (definition : Fields)
  | update (operators : Operators) (now : Int) (next : Nat) (id : String) (given : Fields)
  | delete (id : String)
  | createGroup (name mode maxRules : Value)
  | record (id : String) (now : Int) (duration : Float) (matched : Bool) (executed failed : Int)

def after (s : Settings) (r : Registry) : Call → Registry
  | .create operators now next definition => (r.create ⟨s, operators, now, next⟩ definition).2
  | .update operators now next id given => (r.update ⟨s, operators, now, next⟩ id given).2
  | .delete id => (r.delete id).2
  | .createGroup name mode maxRules => (r.createGroup s name mode maxRules).2
  | .record id now duration matched executed failed =>
    r.record id now duration matched executed failed

def run (s : Settings) (r : Registry) (calls : List Call) : Registry := calls.foldl (after s) r

theorem afterConsistent {s : Settings} {r : Registry} (valid : Consistent s r) (call : Call) :
    Consistent s (r.after s call) := by
  cases call with
  | create => exact createConsistent valid rfl _
  | update => exact updateConsistent valid rfl _ _
  | delete id => exact deleteConsistent valid id
  | createGroup => exact createGroupConsistent valid _ _ _
  | record => exact recordConsistent valid _ _ _ _ _ _

theorem runConsistent {s : Settings} {r : Registry} (valid : Consistent s r) (calls : List Call) :
    Consistent s (r.run s calls) := by
  induction calls generalizing r with
  | nil => exact valid
  | cons call rest ih => exact ih (afterConsistent valid call)

theorem acceptedLimit {v : Value} {s : Settings} (ok : Settings.ofValue v = .ok s) : 0 < s.maxRules := by
  obtain ⟨fields, _, ok⟩ := Schema.modelAccepts.mp (Schema.concludeAccepts.mp ok)
  simp only [Settings.ofFields, Schema.seqAccepts, Schema.mapAccepts] at ok
  obtain ⟨_, _, ⟨_, _, ⟨_, _, ⟨_, _, ⟨_, _, ⟨_, _, ⟨_, _, ⟨_, _, ⟨_, limit, ⟨_, _, rfl⟩, given, rfl⟩,
    _, rfl⟩, _, rfl⟩, _, rfl⟩, _, rfl⟩, _, rfl⟩, _, rfl⟩, _, rfl⟩, _, rfl⟩ := ok
  dsimp only
  cases there : Assoc.get? fields "max_rules" with
  | none =>
    rw [Schema.withDefaultAbsent there] at given
    exact Schema.Checked.ok.inj given ▸ by decide
  | some w =>
    rw [Schema.withDefaultGiven there, Schema.underAccepts, Settings.positive,
      Schema.requireAccepts] at given
    simpa using given.2

/-- After every sequence of calls: there are no more rules than allowed, where accepted settings allow
some; a rule with a group is listed once by that group; what a group lists is a stored rule of this
group; and no group has more members than it may. -/
theorem rulesAndGroupsAgree (s : Settings) (calls : List Call) :
    let r := empty.run s calls
    (r.list.length : Int) ≤ max 0 s.maxRules ∧
    (∀ v, Settings.ofValue v = .ok s → (r.list.length : Int) ≤ s.maxRules) ∧
    (∀ rule ∈ r.list, ∀ name, rule.group = some name →
      ∃ g, r.group name = .ok g ∧ g.name = name ∧ g.ruleIds.count rule.id = 1) ∧
    (∀ g ∈ Assoc.values r.groups, ∀ id ∈ g.ruleIds,
      ∃ rule, r.get id = .ok rule ∧ rule.id = id ∧ rule.group = some g.name) ∧
    (∀ g ∈ Assoc.values r.groups, (g.ruleIds.length : Int) ≤ max 0 g.maxRules) := by
  intro r
  have valid : Consistent s r := runConsistent (emptyConsistent s) calls
  have capacity : (r.list.length : Int) ≤ max 0 s.maxRules := by
    simpa [list, Assoc.values] using valid.capacity
  refine ⟨capacity, fun v accepted => ?_, ?_, ?_, ?_⟩
  · have limit := acceptedLimit accepted
    omega
  · intro rule there name grouped
    obtain ⟨id, found⟩ := Assoc.getOfMemValues valid.unique there
    have own : rule.id = id := valid.named found
    obtain ⟨g, here, listed⟩ := (valid.agree id name).mpr ⟨rule, found, grouped⟩
    refine ⟨g, by simp [group, here], valid.orderly.named here, ?_⟩
    rw [own]
    exact List.count_eq_one_of_mem (valid.orderly.once here) listed
  · intro g there id listed
    obtain ⟨name, here⟩ := Assoc.getOfMemValues valid.orderly.unique there
    obtain ⟨rule, found, grouped⟩ := (valid.agree id name).mp ⟨g, here, listed⟩
    exact ⟨rule, getAccepts.mpr found, valid.named found, by rw [valid.orderly.named here, grouped]⟩
  · intro g there
    obtain ⟨name, here⟩ := Assoc.getOfMemValues valid.orderly.unique there
    exact valid.orderly.room here

end DecisionRules.Registry
