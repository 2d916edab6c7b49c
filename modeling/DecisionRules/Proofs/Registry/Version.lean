import DecisionRules.Proofs.Cache.Fingerprint
import DecisionRules.Proofs.Registry.Turn

/-! Revisions tell the versions of a rule apart as long as it stays stored. A rule that comes back after
its deletion starts with revision zero again, so that its revisions are those of the rule before it. -/
namespace DecisionRules

def Rule.Precedes (a b : Rule) : Prop := a.SameDefinition b ∨ a.revision < b.revision

theorem Rule.SameDefinition.revision {a b : Rule} (same : a.SameDefinition b) :
    b.revision = a.revision := by
  unfold Rule.SameDefinition at same
  rw [same]

theorem Rule.Precedes.trans {a b c : Rule} (first : a.Precedes b) (next : b.Precedes c) :
    a.Precedes c := by
  rcases first with same | less <;> rcases next with again | more
  · exact .inl (same.trans again)
  · exact .inr (same.revision ▸ more)
  · exact .inr (again.revision ▸ less)
  · exact .inr (Nat.lt_trans less more)

theorem Rule.Precedes.identified {a b : Rule} (later : a.Precedes b)
    (same : a.revision = b.revision) : a.SameDefinition b := by
  rcases later with identical | less
  · exact identical
  · omega

namespace Registry

/-! One life of a rule -/

theorem Turn.precedes {r after : Registry} {replaced : Option String} (keyed : r.Keyed)
    (turn : Turn r after replaced) {id : String} {a b : Rule} (was : r.rule? id = some a)
    (is : after.rule? id = some b) : a.Precedes b := by
  by_cases here : replaced = some id
  · subst here
    cases turn with
    | updated found next rules =>
      rw [storedRule rules, if_pos rfl] at is
      rw [was] at found
      cases is
      cases found
      exact .inr (by omega)
    | deleted _ rules =>
      rw [erasedRule keyed.unique rules, if_pos rfl] at is
      contradiction
  · obtain ⟨current, found, same⟩ := turn.kept keyed was here
    rw [is] at found
    cases found
    exact .inl same

/-- Is there a rule with this identifier at first and after each of the calls? -/
def Stays (s : Settings) (r : Registry) (id : String) (calls : List Call) : Prop :=
  ∀ mid, mid <+: calls → ∃ rule, (r.run s mid).rule? id = some rule

theorem staysPrecedes {s : Settings} {r : Registry} (keyed : r.Keyed) {id : String}
    {calls : List Call} (stays : r.Stays s id calls) {a b : Rule} (was : r.rule? id = some a)
    (is : (r.run s calls).rule? id = some b) : a.Precedes b := by
  induction calls generalizing r a with
  | nil =>
    cases was.symm.trans is
    exact .inl (.refl _)
  | cons call rest ih =>
    obtain ⟨_, turn⟩ := afterTurn (s := s) keyed call
    obtain ⟨c, there⟩ := stays [call] (by simp)
    have onward : (r.after s call).Stays s id rest := fun mid before =>
      stays (call :: mid) (List.cons_prefix_cons.mpr ⟨rfl, before⟩)
    exact (turn.precedes keyed was there).trans (ih (turn.keyed keyed) onward there is)

/-! Keys -/

/-- Keys of one rule come from the same text only if the revisions are the same. -/
theorem keyTextRevision {rule : String} {a b : Nat} {data bindings data' bindings' : Fields}
    {text : String} (left : fingerprintText rule a data bindings = .ok text)
    (right : fingerprintText rule b data' bindings' = .ok text) : a = b := by
  obtain ⟨_, _, reads⟩ := (@Question.textReads ⟨rule, a, data, bindings⟩ text).mp left
  obtain ⟨_, _, reads'⟩ := (@Question.textReads ⟨rule, b, data', bindings'⟩ text).mp right
  have rest := List.append_cancel_left (List.append_cancel_left (reads.symm.trans reads'))
  have free (n : Nat) := Number.digitCharsFree n (by decide : '|'.isDigit = false)
  exact Number.digitCharsSame (Number.frontsSame (free a) (free b) (List.cons.inj rest).2).1

/-! Another life -/

theorem draftBoolean (d : Drafting) (id : String) (b : Bool) :
    ∃ rule, d.draft [("id", .text id), ("conditions", .bool b)] = .ok rule ∧ rule.id = id ∧
      rule.conditions = .bool b ∧ rule.group = none ∧ rule.config.timeout = none ∧ rule.revision = 0 := by
  refine ⟨_, rfl, rfl, rfl, rfl, rfl, rfl⟩

theorem reviseNothing (r : Rule) (next : Nat) : r.revise next [] = .ok r := rfl

def touched (d : Drafting) (current : Rule) : Rule :=
  { current with
    metadata := { current.metadata with updatedAt := d.now }
    revision := current.revision + 1 }

theorem revisedNothing (d : Drafting) {current : Rule} (untimed : current.config.timeout = none) :
    d.revised current [] = .ok (touched d current) := by
  change Drafting.build (touched d current) d.next [] = _
  have timeless : (touched d current).config.timeout = none := untimed
  unfold Drafting.build
  rw [reviseNothing]
  simp [Schema.conclude, timeless, bind, Except.bind, pure, Except.pure]

theorem updateNothing {r : Registry} {id : String} {current : Rule} (found : r.rule? id = some current)
    (untimed : current.config.timeout = none) (d : Drafting) :
    (r.update d id []).2 = r.store (touched d current) := by
  have named : d.changes [] = .ok [] := rfl
  have there : r.get id = .ok current := getAccepts.mpr found
  have stays : (touched d current).group = current.group := rfl
  simp only [update, named, there, bind, Except.bind, pure, Except.pure, revisedNothing d untimed]
  rw [replace, if_pos stays]

theorem updatesNothing {s : Settings} {r : Registry} {current : Rule}
    (found : r.rule? current.id = some current) (untimed : current.config.timeout = none)
    (operators : Operators) (now : Int) (next n : Nat) :
    ∃ rule, (r.run s (List.replicate n (.update operators now next current.id []))).rule? current.id =
      some rule ∧ rule.revision = current.revision + n ∧ rule.conditions = current.conditions := by
  induction n generalizing r current with
  | zero => exact ⟨current, found, rfl, rfl⟩
  | succ n ih =>
    let d : Drafting := ⟨s, operators, now, next⟩
    have stored : (r.after s (.update operators now next current.id [])).rule? current.id =
        some (touched d current) := by
      rw [after, updateNothing found untimed, ruleStore]
      exact if_pos rfl
    obtain ⟨rule, there, revision, conditions⟩ := @ih _ (touched d current) stored untimed
    refine ⟨rule, there, ?_, conditions⟩
    simp [revision, touched]
    omega

theorem deleteFrees {s : Settings} {r : Registry} (valid : Consistent s r) {id : String} {rule : Rule}
    (found : r.rule? id = some rule) :
    (r.delete id).2.rule? id = none ∧ ((r.delete id).2.rules.length : Int) < s.maxRules := by
  have there : r.get id = .ok rule := getAccepts.mpr found
  have rules : (r.delete id).2.rules = Assoc.erase r.rules id := by
    unfold delete
    rw [there]
    exact detach?Rules _ id rule.group
  refine ⟨(erasedRule valid.unique rules id).trans (if_pos rfl), ?_⟩
  have member : id ∈ Assoc.keys r.rules :=
    Assoc.containsIff.mp (Option.isSome_iff_exists.mpr ⟨rule, found⟩)
  have fewer := congrArg List.length (Assoc.keysErase r.rules id)
  rw [List.length_erase_of_mem member] at fewer
  have present := List.length_pos_of_mem member
  have bound := valid.capacity
  simp only [Assoc.keys, List.length_map] at fewer present
  rw [rules, fewer]
  omega

theorem createBoolean {r : Registry} (d : Drafting) {id : String} (fresh : r.rule? id = none)
    (room : (r.rules.length : Int) < d.settings.maxRules) (b : Bool) :
    ∃ rule, (r.create d [("id", .text id), ("conditions", .bool b)]).2 = r.store rule ∧ rule.id = id ∧
      rule.conditions = .bool b ∧ rule.config.timeout = none ∧ rule.revision = 0 := by
  obtain ⟨rule, drafted, named, conditions, alone, untimed, first⟩ := draftBoolean d id b
  refine ⟨rule, ?_, named, conditions, untimed, first⟩
  have absent : Assoc.contains r.rules rule.id = false := Assoc.notContains.mpr (named ▸ fresh)
  have enough : ¬ d.settings.maxRules ≤ (r.rules.length : Int) := by omega
  simp [create, drafted, insert, absent, enough, alone, attach?]

/-- The same identifier and revision again: the rule is deleted, created and updated without changes. -/
def anew (operators : Operators) (now : Int) (next : Nat) (id : String) (b : Bool) (updates : Nat) :
    List Call :=
  .delete id :: .create operators now next [("id", .text id), ("conditions", .bool b)] ::
    List.replicate updates (.update operators now next id [])

theorem anewReuses {s : Settings} {r : Registry} (valid : Consistent s r) {id : String} {a : Rule}
    (found : r.rule? id = some a) (operators : Operators) (now : Int) (next : Nat) (b : Bool) :
    ∃ rule, (r.run s (anew operators now next id b a.revision)).rule? id = some rule ∧
      rule.revision = a.revision ∧ rule.conditions = .bool b := by
  obtain ⟨gone, room⟩ := deleteFrees valid found
  obtain ⟨rule, created, rfl, conditions, untimed, first⟩ :=
    createBoolean ⟨s, operators, now, next⟩ gone room b
  have stored : ((r.delete rule.id).2.store rule).rule? rule.id = some rule := by simp [ruleStore]
  obtain ⟨last, there, revision, same⟩ := updatesNothing (s := s) stored untimed operators now next
    a.revision
  refine ⟨last, ?_, by rw [revision, first, Nat.zero_add], same.trans conditions⟩
  rw [← there, ← created]
  rfl

/-- While a rule stays stored, its revision tells its versions apart: the same revision is the same
definition, and results are kept under the same text only if they were computed from it. But every
stored version can be followed by another one with its identifier and revision and other conditions,
once the rule is deleted. -/
theorem revisionIdentifies (s : Settings) (first later : List Call) (id : String) (a b : Rule)
    (stays : (empty.run s first).Stays s id later) (was : (empty.run s first).rule? id = some a)
    (is : (empty.run s (first ++ later)).rule? id = some b) :
    (a.revision = b.revision → a.SameDefinition b) ∧
    (∀ data bindings data' bindings' text,
      fingerprintText a.id a.revision data bindings = .ok text →
      fingerprintText b.id b.revision data' bindings' = .ok text → a.SameDefinition b) ∧
    (∀ operators now next c, ∃ rule,
      (empty.run s (first ++ later ++ anew operators now next id c b.revision)).rule? id = some rule ∧
      rule.revision = b.revision ∧ rule.conditions = .bool c) := by
  have keyed : (empty.run s first).Keyed := runKeyed emptyKeyed s first
  have whole : empty.run s (first ++ later) = (empty.run s first).run s later := List.foldl_append
  have precedes : a.Precedes b := staysPrecedes keyed stays was (whole ▸ is)
  have named : a.id = b.id :=
    (keyed.named was).trans ((runKeyed emptyKeyed s (first ++ later)).named is).symm
  refine ⟨precedes.identified, fun data bindings data' bindings' text left right => ?_,
    fun operators now next c => ?_⟩
  · rw [← named] at right
    exact precedes.identified (keyTextRevision left right)
  · obtain ⟨rule, there, again⟩ := anewReuses (runConsistent (emptyConsistent s) (first ++ later)) is
      operators now next c
    refine ⟨rule, ?_, again⟩
    rw [← there]
    exact congrArg (rule? · id) List.foldl_append

def beginning (conditions : Value) : Call :=
  .create (.ofBuiltins true) 0 0 [("id", .text "r"), ("conditions", conditions)]

theorem revisionIdentifiesRecorded :
    ∃ a b, (empty.run .default [beginning (.bool true)]).rule? "r" = some a ∧
      (empty.run .default ([beginning (.bool true)] ++ [.record "r" 0 0 true 0 0])).rule? "r" = some b ∧
      a.stats.evaluations = 0 ∧ b.stats.evaluations = 1 ∧ a.SameDefinition b := by
  refine ⟨_, _, rfl, rfl, rfl, rfl, (revisionIdentifies .default [beginning (.bool true)]
    [.record "r" 0 0 true 0 0] "r" _ _ (fun mid before => ?_) rfl rfl).1 rfl⟩
  rcases List.prefix_cons_iff.mp before with rfl | ⟨rest, rfl, nothing⟩
  · exact ⟨_, rfl⟩
  · rw [List.prefix_nil.mp nothing]
    exact ⟨_, rfl⟩

end Registry

namespace Engine

/-- What is answered for `b` on these facts, when a result of `a` on them comes in late. -/
def answerAfter (e : Engine) (a b : Rule) (context : Context) : Outcome (Verdict × Bool) := do
  let token : Token Float := .root e.clock none "rule"
  let scope (rule : Rule) : Scope := ⟨context, rule.bindings, e.globals⟩
  let verdict ← (e.judgeAfresh a token (scope a)).1
  let key ← fingerprint a.id a.revision (scope a).data (scope a).snapshot
  let late ← e.remember .none a.id key verdict
  (late.judge .none b token (scope b)).1

end Engine

/-- The rule is deleted and created with other conditions. It has the identifier and revision of the rule
before it, and a late result of that one is served for it. -/
theorem Registry.revisionStartsAgain :
    let new := empty.run .default [beginning (.bool true), .delete "r", beginning (.bool false)]
    let e : Engine := { Engine.probe .default with registry := new }
    ∃ a b, (empty.run .default [beginning (.bool true)]).rule? "r" = some a ∧
      new.rule? "r" = some b ∧ a.revision = b.revision ∧
      a.conditions = .bool true ∧ b.conditions = .bool false ∧
      (e.answerAfter a b ⟨[], [], []⟩).toOption.map (fun v => (v.1.1, v.2)) = some (true, true) := by
  refine ⟨_, _, rfl, rfl, rfl, rfl, rfl, ?_⟩
  decide +kernel

end DecisionRules
