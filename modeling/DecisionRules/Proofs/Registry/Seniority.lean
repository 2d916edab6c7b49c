import DecisionRules.Proofs.Registry.Turn
import DecisionRules.Proofs.Selection
import Mathlib.Data.List.Induction

/-! Rules stand in the order in which they came in. A call that brings no rule in leaves those that stay in
their order, whatever it changes of them; one that was deleted and comes in again is the last. -/
namespace DecisionRules.Registry

/-- The identifier of the rule that a call brings in. -/
def entrant (s : Settings) (r : Registry) : Call → Option String
  | .create operators now next definition =>
    (r.create ⟨s, operators, now, next⟩ definition).1.toOption.map Rule.id
  | _ => none

/-- The call at this position brought the rule in that is stored under the identifier since then. -/
structure Introduced (s : Settings) (calls : List Call) (id : String) (i : Nat) : Prop where
  entered : ∃ call, calls[i]? = some call ∧ (empty.run s (calls.take i)).entrant s call = some id
  stayed : ∀ j, i < j → j ≤ calls.length → ∃ rule, (empty.run s (calls.take j)).rule? id = some rule

def Senior (s : Settings) (calls : List Call) (a b : String) : Prop :=
  ∃ i j, Introduced s calls a i ∧ Introduced s calls b j ∧ i < j

theorem entrantKeys {s : Settings} {r : Registry} {call : Call} {id : String}
    (brings : r.entrant s call = some id) :
    r.rule? id = none ∧ Assoc.keys (r.after s call).rules = Assoc.keys r.rules ++ [id] := by
  cases call with
  | create operators now next definition =>
    obtain ⟨rule, accepted, rfl⟩ := Option.map_eq_some_iff.mp brings
    have ok : (r.create ⟨s, operators, now, next⟩ definition).1 = .ok rule := by
      cases outcome : (r.create ⟨s, operators, now, next⟩ definition).1 with
      | error f => simp [outcome, Except.toOption] at accepted
      | ok other => simpa [outcome, Except.toOption] using accepted
    obtain ⟨_, fresh, rules⟩ := createAccepts ok
    have absent : rule.id ∉ Assoc.keys r.rules := fun there => by
      rw [Assoc.containsIff.mpr there] at fresh
      contradiction
    refine ⟨Assoc.notContains.mp fresh, ?_⟩
    exact (congrArg Assoc.keys rules).trans ((Assoc.keysSet ..).trans (if_neg absent))
  | update => cases brings
  | delete => cases brings
  | createGroup => cases brings
  | record => cases brings

theorem knownKeys {r after : Registry} {current rule : Rule} (found : r.rule? rule.id = some current)
    (rules : after.rules = Assoc.set r.rules rule.id rule) :
    Assoc.keys after.rules = Assoc.keys r.rules := by
  have member : rule.id ∈ Assoc.keys r.rules :=
    Assoc.containsIff.mp (Option.isSome_iff_exists.mpr ⟨current, found⟩)
  rw [rules, Assoc.keysSet, if_pos member]

theorem stayKeys {s : Settings} {r : Registry} (keyed : r.Keyed) {call : Call}
    (brings : r.entrant s call = none) :
    (Assoc.keys (r.after s call).rules).Sublist (Assoc.keys r.rules) := by
  have same {after : Registry} (rules : after.rules = r.rules) :
      (Assoc.keys after.rules).Sublist (Assoc.keys r.rules) := rules ▸ .refl _
  have known {after : Registry} {current rule : Rule} (found : r.rule? rule.id = some current)
      (rules : after.rules = Assoc.set r.rules rule.id rule) :
      (Assoc.keys after.rules).Sublist (Assoc.keys r.rules) := knownKeys found rules ▸ .refl _
  cases call with
  | create operators now next definition =>
    cases outcome : (r.create ⟨s, operators, now, next⟩ definition).1 with
    | error f => exact same (leftRules (createLeft outcome))
    | ok rule => simp [entrant, outcome, Except.toOption] at brings
  | update operators now next id given =>
    cases outcome : (r.update ⟨s, operators, now, next⟩ id given).1 with
    | error f => exact same (leftRules (updateLeft outcome))
    | ok answer =>
      obtain ⟨current, found, own, _, _, rules⟩ := updateAccepts outcome
      exact known (own.trans (keyed.named found) ▸ found) rules
  | delete id =>
    cases outcome : (r.delete id).1 with
    | error f => exact same (leftRules (deleteLeft (s := s) outcome))
    | ok _ =>
      obtain ⟨_, _, rules⟩ := deleteAccepts outcome
      have erased := (congrArg Assoc.keys rules).trans (Assoc.keysErase r.rules id)
      exact erased ▸ List.erase_sublist
  | createGroup name mode maxRules => exact same (createGroupRules s r name mode maxRules)
  | record id now duration matched executed failed =>
    change (Assoc.keys (r.record id now duration matched executed failed).rules).Sublist _
    unfold record
    cases found : r.rule? id with
    | none => exact same rfl
    | some rule =>
      let recorded : Rule := { rule with stats := rule.stats.record now duration matched executed failed }
      have own : r.rule? recorded.id = some rule := (congrArg r.rule? (keyed.named found)).trans found
      exact known own rfl

/-! Positions -/

section
variable {s : Settings} {calls : List Call} {id : String} {i : Nat}

theorem Introduced.within (entry : Introduced s calls id i) : i < calls.length := by
  obtain ⟨call, found, _⟩ := entry.entered
  exact (List.getElem?_eq_some_iff.mp found).1

/-- A rule is stored from its entry on, and an entry takes a free identifier. -/
theorem Introduced.unique {j : Nat} (first : Introduced s calls id i) (other : Introduced s calls id j) :
    i = j := by
  have apart {i j : Nat} (first : Introduced s calls id i) (other : Introduced s calls id j) : ¬ i < j :=
    fun before => by
      obtain ⟨rule, there⟩ := first.stayed j before (Nat.le_of_lt other.within)
      obtain ⟨_, _, brings⟩ := other.entered
      rw [(entrantKeys brings).1] at there
      contradiction
  have neither := And.intro (apart first other) (apart other first)
  omega

theorem Introduced.onward (entry : Introduced s calls id i) {call : Call} {rule : Rule}
    (there : (empty.run s (calls ++ [call])).rule? id = some rule) :
    Introduced s (calls ++ [call]) id i := by
  have within := entry.within
  obtain ⟨old, found, brings⟩ := entry.entered
  refine ⟨⟨old, ?_, ?_⟩, fun j later most => ?_⟩
  · rw [List.getElem?_append_left within, found]
  · rw [List.take_append_of_le_length (Nat.le_of_lt within), brings]
  · rcases Nat.lt_or_eq_of_le most with less | rfl
    · have inside : j ≤ calls.length := by simpa [Nat.lt_succ_iff] using less
      rw [List.take_append_of_le_length inside]
      exact entry.stayed j later inside
    · exact ⟨rule, by rw [List.take_length, there]⟩

theorem introducedNow {call : Call} {rule : Rule} (brings : (empty.run s calls).entrant s call = some id)
    (there : (empty.run s (calls ++ [call])).rule? id = some rule) :
    Introduced s (calls ++ [call]) id calls.length := by
  refine ⟨⟨call, by simp, by rw [List.take_left, brings]⟩, fun j later most => ⟨rule, ?_⟩⟩
  have last : j = (calls ++ [call]).length := by
    simp only [List.length_append, List.length_singleton] at most ⊢
    omega
  rw [last, List.take_length, there]

end

theorem knownStored {r : Registry} {id : String} (known : id ∈ Assoc.keys r.rules) :
    ∃ rule, r.rule? id = some rule := Option.isSome_iff_exists.mp (Assoc.containsIff.mpr known)

/-- Each key came in, and before those that follow it. -/
structure Ranked (s : Settings) (calls : List Call) (keys : List String) : Prop where
  entered : ∀ id ∈ keys, ∃ i, Introduced s calls id i
  ordered : keys.Pairwise (Senior s calls)

section
variable {s : Settings} {calls : List Call} {keys : List String}

theorem Ranked.sublist {fewer : List String} (ranked : Ranked s calls keys) (within : fewer.Sublist keys) :
    Ranked s calls fewer :=
  ⟨fun id there => ranked.entered id (within.subset there), ranked.ordered.sublist within⟩

/-- Keys that are still stored after one more call keep their ranks. -/
theorem Ranked.onward (ranked : Ranked s calls keys) {call : Call}
    (kept : ∀ id ∈ keys, id ∈ Assoc.keys (empty.run s (calls ++ [call])).rules) :
    Ranked s (calls ++ [call]) keys := by
  have onward {id : String} {i : Nat} (there : id ∈ keys) (entry : Introduced s calls id i) :
      Introduced s (calls ++ [call]) id i := by
    obtain ⟨rule, stored⟩ := knownStored (kept id there)
    exact entry.onward stored
  refine ⟨fun id there => ?_, ranked.ordered.imp_of_mem fun there others senior => ?_⟩
  · obtain ⟨i, entry⟩ := ranked.entered id there
    exact ⟨i, onward there entry⟩
  · obtain ⟨i, j, first, other, before⟩ := senior
    exact ⟨i, j, onward there first, onward others other, before⟩

/-- What the last call brought in is the last. -/
theorem Ranked.joined {call : Call} {new : String} (ranked : Ranked s calls keys)
    (kept : ∀ id ∈ keys, id ∈ Assoc.keys (empty.run s (calls ++ [call])).rules)
    (entry : Introduced s (calls ++ [call]) new calls.length) :
    Ranked s (calls ++ [call]) (keys ++ [new]) := by
  have former := ranked.onward kept
  refine ⟨fun id there => ?_,
    List.pairwise_append.mpr ⟨former.ordered, List.pairwise_singleton _ new, fun id there last here => ?_⟩⟩
  · rcases List.mem_append.mp there with there | here
    · exact former.entered id there
    · exact ⟨calls.length, List.mem_singleton.mp here ▸ entry⟩
  · obtain ⟨i, first⟩ := ranked.entered id there
    obtain ⟨rule, stored⟩ := knownStored (kept id there)
    exact ⟨i, calls.length, first.onward stored, List.mem_singleton.mp here ▸ entry, first.within⟩

end

theorem keysBySeniority (s : Settings) (calls : List Call) :
    Ranked s calls (Assoc.keys (empty.run s calls).rules) := by
  induction calls using List.reverseRecOn with
  | nil => exact ⟨fun id there => absurd there (List.not_mem_nil), .nil⟩
  | append_singleton calls call ih =>
    have whole : empty.run s (calls ++ [call]) = (empty.run s calls).after s call := List.foldl_append
    cases brings : (empty.run s calls).entrant s call with
    | none =>
      have fewer : (Assoc.keys (empty.run s (calls ++ [call])).rules).Sublist
          (Assoc.keys (empty.run s calls).rules) := whole ▸ stayKeys (runKeyed emptyKeyed s calls) brings
      exact (ih.sublist fewer).onward fun id there => there
    | some new =>
      have more : Assoc.keys (empty.run s (calls ++ [call])).rules =
          Assoc.keys (empty.run s calls).rules ++ [new] := whole ▸ (entrantKeys brings).2
      obtain ⟨rule, there⟩ := knownStored (more ▸ List.mem_concat_self)
      rw [more]
      exact ih.joined (more ▸ fun id there => List.mem_append_left _ there) (introducedNow brings there)

/-! Rules -/

theorem Keyed.listed {r : Registry} (keyed : r.Keyed) {rule : Rule} :
    rule ∈ r.list ↔ r.rule? rule.id = some rule :=
  ⟨keyed.known, fun found => List.mem_map.mpr ⟨_, Assoc.memOfGet found, rfl⟩⟩

theorem rulesBySeniority (s : Settings) (calls : List Call) :
    (empty.run s calls).list.Pairwise fun a b => Senior s calls a.id b.id := by
  have keyed := runKeyed emptyKeyed s calls
  have keys := (keysBySeniority s calls).ordered
  rw [← keyed.listIds] at keys
  exact List.pairwise_map.mp keys

theorem selectDistinct {r : Registry} (keyed : r.Keyed) (o : EvaluationOptions) :
    ((selectRules r.list o).map Rule.id).Nodup := by
  have kept := ((selectPerm r.list o).map Rule.id).nodup_iff
  have distinct := keyed.listIds ▸ keyed.unique
  exact kept.mpr (distinct.sublist (List.filter_sublist.map Rule.id))

/-- Whatever was called, an evaluation looks at exactly the stored rules that are enabled and satisfy every
criterion, at each once: critical ones first, then high, normal and low ones, and those of one priority in
the order of the calls that brought them in. There is one such call for each of them, the one after which
it has always been stored. -/
theorem creationFixesOrder (s : Settings) (calls : List Call) (o : EvaluationOptions) :
    let r := empty.run s calls
    let selected := selectRules r.list o
    (∀ rule, rule ∈ selected ↔ r.get rule.id = .ok rule ∧ rule.enabled = true ∧ o.criteria.Meets rule) ∧
    (selected.map Rule.id).Nodup ∧
    (∀ rule ∈ selected, ∃! i, Introduced s calls rule.id i) ∧
    selected.Pairwise fun a b =>
      a.priority.rank < b.priority.rank ∨ a.priority = b.priority ∧ Senior s calls a.id b.id := by
  intro r selected
  have keyed : r.Keyed := runKeyed emptyKeyed s calls
  refine ⟨fun rule => ?_, selectDistinct keyed o, fun rule chosen => ?_, selectOrdered o (rulesBySeniority s calls)⟩
  · rw [selectIff, keyed.listed, getAccepts]
  · have found := keyed.known (selectListed chosen)
    have member : rule.id ∈ Assoc.keys r.rules :=
      Assoc.containsIff.mp (Option.isSome_iff_exists.mpr ⟨rule, found⟩)
    obtain ⟨i, entry⟩ := (keysBySeniority s calls).entered rule.id member
    exact ⟨i, entry, fun j other => other.unique entry⟩

def arrival (id : String) : Call :=
  .create (.ofBuiltins true) 0 0 [("id", .text id), ("priority", .text "high")]

def alteration (id : String) (given : Fields) : Call := .update (.ofBuiltins true) 0 0 id given

/-- The oldest rule is deleted and comes in again; one becomes critical and one gets a group; a rule with a
known identifier and a priority that is none are refused. -/
def turnover : List Call :=
  [arrival "a", arrival "b", arrival "c", arrival "d", arrival "b",
    alteration "d" [("priority", .text "critical")], .delete "a", arrival "a",
    alteration "b" [("group", .text "g")], alteration "c" [("priority", .int 3)]]

theorem creationFixesOrderReturning :
    let selected := selectRules (empty.run .default turnover).list .unlimited
    selected.map Rule.id = ["d", "b", "c", "a"] ∧
      ∃ rule ∈ selected, rule.id = "a" ∧ ∃! i, Introduced .default turnover rule.id i := by
  have order : (selectRules (empty.run .default turnover).list .unlimited).map Rule.id = ["d", "b", "c", "a"] := by
    rfl
  have there : "a" ∈ (selectRules (empty.run .default turnover).list .unlimited).map Rule.id :=
    order ▸ by decide
  obtain ⟨rule, chosen, named⟩ := List.mem_map.mp there
  exact ⟨order, rule, chosen, named, (creationFixesOrder .default turnover .unlimited).2.2.1 rule chosen⟩

end DecisionRules.Registry
