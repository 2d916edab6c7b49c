import DecisionRules.Proofs.Registry.Version

/-! A stored rule can always be disabled. Its time limit, if it has one, is not below or at zero: that is
checked when a rule is made or changed, and nothing else touches it. -/
namespace DecisionRules

def Rule.Timely (r : Rule) : Prop := (r.config.timeout.any fun t => t ≤ 0) = false

namespace Drafting

theorem buildTimely {base built : Rule} {next : Nat} {fields : Fields}
    (ok : build base next fields = .ok built) : built.Timely := by
  simp only [build, bindAccepts, Schema.concludeAccepts] at ok
  obtain ⟨rule, _, ok⟩ := ok
  split at ok
  · simp [throw, throwThe, MonadExceptOf.throw, bind, Except.bind] at ok
  · rename_i timely
    exact pureAccepts.mp ok ▸ Bool.eq_false_iff.mpr timely

theorem draftTimely {d : Drafting} {definition : Fields} {rule : Rule}
    (ok : d.draft definition = .ok rule) : rule.Timely := by
  simp only [draft, bindAccepts] at ok
  obtain ⟨_, _, _, _, _, _, _, _, _, _, built⟩ := ok
  exact buildTimely built

theorem revisedTimely {d : Drafting} {current updated : Rule} {changes : Fields}
    (ok : d.revised current changes = .ok updated) : updated.Timely := by
  unfold revised at ok
  split at ok
  · exact buildTimely ok
  · simp only [bindAccepts, pureAccepts, exists_eq_left'] at ok
    obtain ⟨_, _, built⟩ := ok
    exact buildTimely built

end Drafting

namespace Registry

def Timely (r : Registry) : Prop := ∀ id rule, r.rule? id = some rule → rule.Timely

theorem sameTimely {r after : Registry} (timely : r.Timely) (rules : after.rules = r.rules) :
    after.Timely := by
  intro id rule found
  rw [rule?, rules] at found
  exact timely id rule found

theorem storedTimely {r after : Registry} (timely : r.Timely) {rule : Rule} (own : rule.Timely)
    (rules : after.rules = Assoc.set r.rules rule.id rule) : after.Timely := by
  intro id other found
  rw [storedRule rules] at found
  split at found
  · exact Option.some.inj found ▸ own
  · exact timely id other found

theorem updateTimely {r : Registry} (timely : r.Timely) (d : Drafting) (id : String) (given : Fields) :
    (r.update d id given).2.Timely := by
  cases outcome : (r.update d id given).1 with
  | error f => exact sameTimely timely (leftRules (updateLeft outcome))
  | ok answer =>
    obtain ⟨stored, changed⟩ := answer
    obtain ⟨_, _, _, _, _, rules⟩ := updateAccepts outcome
    refine storedTimely timely ?_ rules
    unfold update at outcome
    dsimp only at outcome
    split at outcome
    · cases outcome
    · rename_i planned
      simp only [bindAccepts, pureAccepts, Prod.mk.injEq] at planned
      obtain ⟨_, _, _, _, _, revised, rfl, rfl, rfl⟩ := planned
      obtain ⟨_, replaced, same⟩ := mapAccepts.mp outcome
      cases same
      obtain ⟨rfl, _⟩ := replaceAccepts replaced
      exact Drafting.revisedTimely revised

theorem afterTimely {s : Settings} {r : Registry} (keyed : r.Keyed) (timely : r.Timely) (call : Call) :
    (r.after s call).Timely := by
  cases call with
  | create operators now next definition =>
    change (r.create ⟨s, operators, now, next⟩ definition).2.Timely
    cases outcome : (r.create ⟨s, operators, now, next⟩ definition).1 with
    | error f => exact sameTimely timely (leftRules (createLeft outcome))
    | ok rule =>
      obtain ⟨drafted, _, rules⟩ := createAccepts outcome
      exact storedTimely timely (Drafting.draftTimely drafted) rules
  | update operators now next id given => exact updateTimely timely _ id given
  | delete id =>
    change (r.delete id).2.Timely
    cases outcome : (r.delete id).1 with
    | error f => exact sameTimely timely (leftRules (deleteLeft (s := s) outcome))
    | ok _ =>
      obtain ⟨_, _, rules⟩ := deleteAccepts outcome
      intro other rule found
      rw [erasedRule keyed.unique rules] at found
      split at found
      · contradiction
      · exact timely other rule found
  | createGroup name mode maxRules => exact sameTimely timely (createGroupRules s r name mode maxRules)
  | record id now duration matched executed failed =>
    change (r.record id now duration matched executed failed).Timely
    unfold record
    split
    · exact timely
    · rename_i rule found
      have own : Rule.Timely { rule with
          stats := rule.stats.record now duration matched executed failed } := timely id rule found
      exact storedTimely timely own rfl

theorem runTimely {s : Settings} {r : Registry} (keyed : r.Keyed) (timely : r.Timely)
    (calls : List Call) : (r.run s calls).Timely := by
  induction calls generalizing r with
  | nil => exact timely
  | cons call rest ih =>
    obtain ⟨_, turn⟩ := afterTurn (s := s) keyed call
    exact ih (turn.keyed keyed) (afterTimely keyed timely call)

theorem emptyTimely : empty.Timely := by simp [Timely, rule?, empty, Assoc.get?]

def disabled (d : Drafting) (current : Rule) : Rule := { touched d current with enabled := false }

theorem updateDisabled {r : Registry} (timely : r.Timely) {id : String} {current : Rule}
    (found : r.rule? id = some current) (d : Drafting) :
    r.update d id [("enabled", .bool false)] =
      (.ok (disabled d current, ["enabled"]), r.store (disabled d current)) := by
  have named : d.changes [("enabled", .bool false)] = .ok [("enabled", .bool false)] := rfl
  have there : r.get id = .ok current := getAccepts.mpr found
  have revised : d.revised current [("enabled", .bool false)] = .ok (disabled d current) := by
    have built : (touched d current).revise d.next [("enabled", .bool false)] =
        .ok (disabled d current) := rfl
    have room : ¬ ((disabled d current).config.timeout.any fun t => t ≤ 0) = true :=
      Bool.eq_false_iff.mp (timely id current found)
    change Drafting.build (touched d current) d.next [("enabled", .bool false)] = _
    unfold Drafting.build
    rw [built]
    simp [Schema.conclude, room, bind, Except.bind, pure, Except.pure]
  have stays : (disabled d current).group = current.group := rfl
  simp only [update, named, there, bind, Except.bind, pure, Except.pure, revised]
  rw [replace, if_pos stays]
  rfl

/-- When a rule is stored that a test refuses, the test finds the others. -/
theorem storeOthers {r : Registry} (keyed : r.Keyed) {rule : Rule} {p : Rule → Bool}
    (refused : p rule = false) :
    (r.store rule).list.filter p = (r.list.filter p).filter (·.id != rule.id) := by
  have named (e : String × Rule) (member : e ∈ r.rules) : e.2.id = e.1 :=
    keyed.named (Assoc.getOfMem keyed.unique member)
  have unique := keyed.unique
  unfold list store
  generalize r.rules = rules at named unique
  induction rules with
  | nil => simp [Assoc.values, Assoc.set, refused]
  | cons e rest ih =>
    obtain ⟨key, current⟩ := e
    obtain ⟨fresh, others⟩ := List.nodup_cons.mp unique
    obtain ⟨own, named⟩ := List.forall_mem_cons.mp named
    have own : current.id = key := own
    have ih := ih named others
    simp only [Assoc.values, List.filter_filter] at ih ⊢
    by_cases here : key = rule.id
    · have elsewhere (x : Rule) (member : x ∈ rest.map Prod.snd) : (x.id != rule.id) = true := by
        obtain ⟨e, there, rfl⟩ := List.mem_map.mp member
        rw [named e there, bne_iff_ne, ← here]
        rintro rfl
        exact fresh (List.mem_map.mpr ⟨e, there, rfl⟩)
      have same : (rest.map Prod.snd).filter (fun x => x.id != rule.id && p x) =
          (rest.map Prod.snd).filter p :=
        List.filter_congr fun x member => by rw [elsewhere x member, Bool.true_and]
      simp [Assoc.set, here, own, refused, same]
    · have other : (current.id != rule.id) = true := by simpa [own] using here
      simp [Assoc.set, here, List.filter_cons, other, ih]

end Registry
end DecisionRules
