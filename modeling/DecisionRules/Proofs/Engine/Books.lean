import DecisionRules.Proofs.Engine.Accounting
import DecisionRules.Proofs.Engine.Calls
import DecisionRules.Proofs.Registry.Books
import DecisionRules.Proofs.Selection
import Mathlib.Algebra.BigOperators.Ring.Finset

/-! The books of an engine. What is counted of the rules stands in its counters, in the statistics of the
rules and in the reports; all of it goes back to the findings of the visits, and so it agrees. -/
namespace DecisionRules

/-- A column of the books. -/
inductive Column where
  | evaluated
  | matched
  | executed
  | failed

namespace Column

def counted : Column → Counters → Nat
  | evaluated => Counters.evaluated
  | matched => Counters.matched
  | executed => Counters.executed
  | failed => Counters.failed

def reported : Column → Report → Nat
  | evaluated => Report.evaluated
  | matched => Report.matched
  | executed => Report.executed
  | failed => Report.failed

def kept : Column → RuleStats Float → Int
  | evaluated, s => s.evaluations
  | matched, s => s.matched
  | executed, s => s.executed
  | failed, s => s.failed

def found : Column → Finding → Nat
  | evaluated, finding => if finding.isEvaluated then 1 else 0
  | matched, finding => finding.match?.elim 0 fun _ => 1
  | executed, finding => finding.match?.elim 0 RuleMatch.executed
  | failed, finding => finding.match?.elim 0 RuleMatch.failed

def entered : Column → Recording Float → Int
  | evaluated, _ => 1
  | matched, r => if r.matched then 1 else 0
  | executed, r => r.executed
  | failed, r => r.failed

theorem reportedFound (c : Column) (r : Report) : c.reported r = (r.findings.map c.found).sum := by
  obtain ⟨id, findings, bindings⟩ := r
  induction findings with
  | nil => cases c <;> rfl
  | cons finding rest ih =>
    rw [List.map_cons, List.sum_cons, ← ih]
    cases c with
    | evaluated => exact (List.countP_cons ..).trans (Nat.add_comm ..)
    | matched => cases finding with
      | matched m => exact Nat.add_comm (List.length _) 1
      | _ => exact (Nat.zero_add _).symm
    | _ => cases finding with
      | matched m => rfl
      | _ => exact (Nat.zero_add _).symm

theorem resultsListed (found : List RuleMatch) :
    found.foldr (fun m n => m.executed + n) 0 =
      (found.flatMap RuleMatch.results).countP (fun a => a.status.isSuccess) ∧
    found.foldr (fun m n => m.failed + n) 0 =
      (found.flatMap RuleMatch.results).countP fun a => a.status.isFailed := by
  induction found with
  | nil => exact ⟨rfl, rfl⟩
  | cons m rest ih =>
    rw [List.flatMap_cons, List.countP_append, List.countP_append, ← ih.1, ← ih.2]
    exact ⟨rfl, rfl⟩

theorem keptEntered (c : Column) (recordings : List (Recording Float)) :
    c.kept (.ofRecordings recordings) = (recordings.map c.entered).sum := by
  induction recordings using List.reverseRecOn with
  | nil => cases c <;> rfl
  | append_singleton past r ih =>
    have stepped (s : RuleStats Float) : c.kept (s.enter r) = c.kept s + c.entered r := by
      cases c with
      | matched => cases matched : r.matched <;> simp [kept, entered, RuleStats.enter, RuleStats.record, matched]
      | _ => rfl
    rw [RuleStats.ofRecordingsSnoc, stepped, ih, List.map_append, List.sum_append]
    simp

end Column

/-- A counter that goes by what the reports say. -/
structure Counters.Tallies (counter : Counters → Nat) (reported : Report → Nat) : Prop where
  add : ∀ k r, counter (k.add r) = counter k + reported r
  created : ∀ k n, counter { k with created := n } = counter k
  nothing : ∀ r, r.findings = [] → reported r = 0

theorem Column.tallies (c : Column) : Counters.Tallies c.counted c.reported where
  add k r := by cases c <;> rfl
  created k n := by cases c <;> rfl
  nothing r none := by rw [reportedFound, none]; rfl

theorem Counters.errorsTally : Counters.Tallies Counters.errors fun r => r.errors.length where
  add _ _ := rfl
  created _ _ := rfl
  nothing r none := by rw [Report.errors, none]; rfl

namespace Engine

namespace Visit

def duration (x : Visit) : Float := x.engine.host.elapsed x.evaluation.id x.rule.id

/-- What a visit records of its rule, for which it took so long; a rule that fails has nothing recorded. -/
def recording {α : Type} (x : Visit) (duration : α) : Option (Recording α) :=
  match x.finding with
  | .failed _ => none
  | .unmatched => some ⟨x.engine.host.now, duration, false, 0, 0⟩
  | .matched m => some ⟨x.engine.host.now, duration, true, m.executed, m.failed⟩

theorem recordingFound (x : Visit) (duration : Float) (c : Column) :
    (x.recording duration).elim 0 c.entered = c.found x.finding := by
  unfold recording
  cases x.finding <;> cases c <;> rfl

end Visit

def recordings {α : Type} (xs : List Visit) (id : String) (duration : Visit → α) : List (Recording α) :=
  (xs.filter fun x => x.rule.id == id).filterMap fun x => x.recording (duration x)

theorem recordingsSnoc {α : Type} (xs : List Visit) (x : Visit) (id : String) (duration : Visit → α) :
    recordings (xs ++ [x]) id duration = recordings xs id duration ++
      if x.rule.id = id then (x.recording (duration x)).toList else [] := by
  by_cases own : x.rule.id = id
  · cases entry : x.recording (duration x) <;> simp [recordings, own, entry]
  · simp [recordings, own]

theorem visitEnters (e : Engine) (v : Evaluation) (rule : Rule) (context : Context) :
    let x : Visit := ⟨e, v, rule, context⟩
    (e.visit v rule context).2.2.registry = e.registry.enter rule.id (x.recording x.duration) := by
  intro x
  obtain ⟨r, scope, _, _, _, _, visited⟩ := e.visitSettlesJudged v rule context
  rw [Visit.recording, show x.finding = (e.visit v rule context).1 from rfl, visited]
  rcases r with f | ⟨⟨_ | _, trace⟩, hit⟩ <;> rfl

/-! The statistics go with the visits. -/

structure Balanced (e : Engine) (xs : List Visit) : Prop where
  keyed : e.registry.Keyed
  known : ∀ x ∈ xs, e.registry.Knows x.rule.id
  stats : ∀ id, e.registry.statsOf id = .ofRecordings (recordings xs id Visit.duration)

namespace Balanced
variable {e after : Engine} {xs : List Visit}

theorem same (balanced : e.Balanced xs) (registry : after.registry = e.registry) : after.Balanced xs :=
  ⟨registry ▸ balanced.keyed, registry ▸ balanced.known, registry ▸ balanced.stats⟩

theorem books (balanced : e.Balanced xs) (keyed : after.registry.Keyed)
    (books : e.registry.SameBooks after.registry) : after.Balanced xs :=
  ⟨keyed, fun x visited => books.knows (balanced.known x visited),
    fun id => (books.stats id).trans (balanced.stats id)⟩

theorem visit (balanced : e.Balanced xs) (v : Evaluation) {rule : Rule}
    (known : e.registry.Knows rule.id) (context : Context) :
    (e.visit v rule context).2.2.Balanced (xs ++ [⟨e, v, rule, context⟩]) := by
  have enters := visitEnters e v rule context
  generalize (e.visit v rule context).2.2 = after at enters ⊢
  have knows {id : String} (there : e.registry.Knows id) : after.registry.Knows id :=
    enters ▸ Registry.enterKnows balanced.keyed rule.id _ there
  refine ⟨enters ▸ (Registry.enterTurn balanced.keyed rule.id _).keyed balanced.keyed, ?_, fun id => ?_⟩
  · intro x visited
    rcases List.mem_append.mp visited with before | now
    · exact knows (balanced.known x before)
    · rw [List.mem_singleton.mp now]
      exact knows known
  · rw [enters, Registry.enterStats balanced.keyed known, recordingsSnoc, balanced.stats]
    by_cases own : rule.id = id
    · rw [if_pos own, if_pos own]
      cases Visit.recording ⟨e, v, rule, context⟩ (Visit.duration ⟨e, v, rule, context⟩) with
      | none => simp
      | some entry => exact (RuleStats.ofRecordingsSnoc _ entry).symm
    · rw [if_neg own, if_neg own, List.append_nil]

theorem walk (balanced : e.Balanced xs) (v : Evaluation) (l : MatchLimiter) {rules : List Rule}
    (known : ∀ rule ∈ rules, e.registry.Knows rule.id) (context : Context) :
    (Engine.walk v l rules context e).2.2.Balanced (xs ++ walkVisits v l rules context e) := by
  induction rules generalizing l context e xs with
  | nil => simpa [Engine.walk, walkVisits] using balanced
  | cons rule rest ih =>
    obtain ⟨here, there⟩ := List.forall_mem_cons.mp known
    cases done : l.exhausted with
    | true =>
      rw [(walkDone done).1, (walkDone done).2]
      simpa using balanced
    | false =>
      cases skipped : l.skips rule with
      | true =>
        rw [(walkSkipped done skipped).1, (walkSkipped done skipped).2]
        exact ih balanced l there context
      | false =>
        have after := balanced.visit v here context
        have stays (other : Rule) (member : other ∈ rest) :
            (e.visit v rule context).2.2.registry.Knows other.id :=
          visitEnters e v rule context ▸
            Registry.enterKnows balanced.keyed rule.id _ (there other member)
        obtain ⟨finding, context', e', visited⟩ : ∃ finding context' e',
            e.visit v rule context = (finding, context', e') := ⟨_, _, _, rfl⟩
        rw [visited] at after stays
        rw [(walkVisited done skipped visited).1, (walkVisited done skipped visited).2, List.append_cons]
        exact ih after (l.after rule finding) stays context'

theorem evaluate (balanced : e.Balanced xs) (context : Context) (options : EvaluationOptions) :
    (e.evaluate context options).2.2.Balanced (xs ++ e.applyVisits (.evaluate context options)) := by
  cases on : e.enabled with
  | false =>
    rw [(evaluateOff on context options).1, (evaluateOff on context options).2, List.append_nil]
    exact balanced.same rfl
  | true =>
    obtain ⟨v, e₁, walked, opened, left, _, closed, visits⟩ := evaluateWalks on context options
    have known (rule : Rule) (member : rule ∈ e.candidates options) : e₁.registry.Knows rule.id := by
      rw [opened.registry, Registry.Knows, balanced.keyed.known (selectListed member)]
      rfl
    have after := (balanced.same opened.registry).walk v
      (.start options e.registry.firstMatchGroups) known context
    rw [left] at after
    rw [visits]
    exact after.same closed.registry

end Balanced

theorem changeBooks {e : Engine} (keyed : e.registry.Keyed) {c : Change} (keeps : ∀ id, c ≠ .delete id) :
    e.registry.SameBooks (e.change c).2.registry := by
  have created (definition : Fields) : e.registry.SameBooks (e.createRule definition).2.registry :=
    createRuleRegistry e definition ▸ Registry.createBooks e.drafting e.registry definition
  cases c with
  | create definition => exact created definition
  | copy id fields =>
    change e.registry.SameBooks (e.copyRule id fields).2.registry
    unfold copyRule
    split
    · exact .same rfl
    · exact created _
  | update id given =>
    exact updateRuleRegistry e id given ▸ Registry.updateBooks keyed e.drafting id given
  | delete id => exact absurd rfl (keeps id)
  | createGroup name mode maxRules =>
    exact .same (Registry.createGroupRules e.settings e.registry name mode maxRules)

def Operation.Keeps (op : Operation) : Prop := ∀ id, op ≠ .change (.delete id)

theorem Balanced.apply {e : Engine} {xs : List Visit} (balanced : e.Balanced xs) {op : Operation}
    (keeps : op.Keeps) : (e.apply op).2.Balanced (xs ++ e.applyVisits op) := by
  cases rests : op.rests with
  | true =>
    rw [(applyRests e rests).2.2, List.append_nil]
    exact balanced.same (applyRests e rests).2.1
  | false =>
    cases op with
    | change c =>
      obtain ⟨calls, registry⟩ := changeLeads e c
      have keyed : (e.change c).2.registry.Keyed :=
        registry ▸ Registry.runKeyed balanced.keyed e.settings calls
      change (e.change c).2.Balanced (xs ++ [])
      rw [List.append_nil]
      exact balanced.books keyed
        (changeBooks balanced.keyed fun id same => keeps id (congrArg Operation.change same))
    | evaluate context options => exact balanced.evaluate context options
    | clearCache =>
      change e.clearCache.Balanced (xs ++ [])
      rw [List.append_nil]
      exact balanced.same rfl
    | sweep =>
      change e.sweep.2.Balanced (xs ++ [])
      rw [List.append_nil]
      exact balanced.same e.sweepRests.2
    | _ => contradiction

theorem Balanced.run {e : Engine} {xs : List Visit} (balanced : e.Balanced xs) {ops : List Operation}
    (keeps : ∀ op ∈ ops, op.Keeps) : (e.run ops).2.Balanced (xs ++ e.visits ops) := by
  induction ops generalizing e xs with
  | nil => simpa [Engine.run, visits] using balanced
  | cons op rest ih =>
    obtain ⟨here, later⟩ := List.forall_mem_cons.mp keeps
    have after := ih (balanced.apply here) later
    rw [List.append_assoc] at after
    exact after

/-! Sums over the stored rules -/

theorem recordingsFound (xs : List Visit) (c : Column) (duration : Visit → Float) :
    ((xs.filterMap fun x => x.recording (duration x)).map c.entered).sum =
      (xs.map fun x => (c.found x.finding : Int)).sum := by
  induction xs with
  | nil => rfl
  | cons x rest ih =>
    rw [List.map_cons, List.sum_cons, ← ih, ← x.recordingFound (duration x) c]
    cases entry : x.recording (duration x) <;> simp [entry]

/-- What is summed up owner by owner is summed up once. -/
theorem sumByOwner {owners : List String} (distinct : owners.Nodup) {xs : List Visit}
    (owned : ∀ x ∈ xs, x.rule.id ∈ owners) (f : Visit → Int) :
    (owners.map fun id => ((xs.filter fun x => x.rule.id == id).map f).sum).sum = (xs.map f).sum := by
  induction xs with
  | nil => simp
  | cons x rest ih =>
    obtain ⟨here, later⟩ := List.forall_mem_cons.mp owned
    have parted (id : String) : (((x :: rest).filter fun x => x.rule.id == id).map f).sum =
        (if id = x.rule.id then f x else 0) + ((rest.filter fun x => x.rule.id == id).map f).sum := by
      by_cases own : id = x.rule.id
      · simp [own]
      · have other : ¬ x.rule.id = id := fun same => own same.symm
        simp [own, other]
    rw [List.map_congr_left fun id _ => parted id, List.sum_map_add, ih later, List.sum_map_ite_eq,
      List.count_eq_one_of_mem distinct here]
    simp

theorem Balanced.total {e : Engine} {xs : List Visit} (balanced : e.Balanced xs) (c : Column) :
    (e.registry.list.map fun rule => c.kept rule.stats).sum =
      (xs.map fun x => (c.found x.finding : Int)).sum := by
  have own (rule : Rule) (listed : rule ∈ e.registry.list) : c.kept rule.stats =
      ((xs.filter fun x => x.rule.id == rule.id).map fun x => (c.found x.finding : Int)).sum := by
    have stats := balanced.stats rule.id
    rw [Registry.statsOf, balanced.keyed.known listed] at stats
    rw [show rule.stats = _ from stats, c.keptEntered]
    exact recordingsFound _ c Visit.duration
  have owned (x : Visit) (visited : x ∈ xs) : x.rule.id ∈ Assoc.keys e.registry.rules :=
    Assoc.containsIff.mp (balanced.known x visited)
  rw [List.map_congr_left own, ← sumByOwner balanced.keyed.unique owned, ← balanced.keyed.listIds,
    List.map_map]
  rfl

/-! Sums over the reports -/

def reports (e : Engine) (ops : List Operation) : List Report := (e.run ops).1.filterMap id

theorem reportsCons (e : Engine) (op : Operation) (rest : List Operation) :
    e.reports (op :: rest) = (e.apply op).1.toList ++ (e.apply op).2.reports rest := by
  change ((e.apply op).1 :: ((e.apply op).2.run rest).1).filterMap id = _
  cases (e.apply op).1 <;> rfl

theorem applyFindings (e : Engine) (op : Operation) :
    (e.apply op).1.toList.flatMap Report.findings = (e.applyVisits op).map Visit.finding := by
  cases op with
  | evaluate context options =>
    change [(e.evaluate context options).1].flatMap Report.findings = _
    rw [List.flatMap_singleton]
    cases on : e.enabled with
    | false =>
      rw [(evaluateOff on context options).1, (evaluateOff on context options).2]
      rfl
    | true =>
      obtain ⟨v, e₁, walked, _, left, found, _, visits⟩ := evaluateWalks on context options
      rw [found, visits, ← left]
      exact walkFindings ..
  | _ => rfl

theorem runFindings (e : Engine) (ops : List Operation) :
    (e.reports ops).flatMap Report.findings = (e.visits ops).map Visit.finding := by
  induction ops generalizing e with
  | nil => rfl
  | cons op rest ih =>
    rw [reportsCons, List.flatMap_append, applyFindings, ih, ← List.map_append]
    rfl

theorem evaluateTallies {counter : Counters → Nat} {reported : Report → Nat}
    (tallies : Counters.Tallies counter reported) (e : Engine) (context : Context)
    (options : EvaluationOptions) : counter (e.evaluate context options).2.2.counters =
      counter e.counters + reported (e.evaluate context options).1 := by
  cases on : e.enabled with
  | false =>
    rw [(evaluateOff on context options).1, tallies.nothing _ rfl]
    rfl
  | true =>
    obtain ⟨_, _, _, _, _, _, _, _, left⟩ := walkTouches (e.opened context).1
      (.start options e.registry.firstMatchGroups) (e.candidates options) context (e.opened context).2
    obtain ⟨findings, after, e₂, walked⟩ : ∃ findings after e₂, Engine.walk (e.opened context).1
        (.start options e.registry.firstMatchGroups) (e.candidates options) context
        (e.opened context).2 = (findings, after, e₂) := ⟨_, _, _, rfl⟩
    rw [walked] at left
    change e₂ = _ at left
    rw [(evaluateOn on rfl walked).1]
    subst left
    exact tallies.add e.counters _

theorem applyTallies {counter : Counters → Nat} {reported : Report → Nat}
    (tallies : Counters.Tallies counter reported) (e : Engine) (op : Operation) :
    counter (e.apply op).2.counters =
      counter e.counters + ((e.apply op).1.toList.map reported).sum := by
  cases upkeep : op.upkeep with
  | true =>
    obtain ⟨_, _, _, _, _, _, left⟩ := applyUpkeep e upkeep
    rw [left]
    rfl
  | false =>
    cases op with
    | change c =>
      obtain ⟨_, _, created, _, _, left⟩ := changeTouches e c
      change counter (e.change c).2.counters = _
      rw [left]
      exact tallies.created e.counters created
    | setGlobal name value =>
      obtain ⟨_, left⟩ := setGlobalTouches e name value
      change counter (e.setGlobal name value).2.counters = _
      rw [left]
      rfl
    | deleteGlobal name =>
      obtain ⟨_, left⟩ := deleteGlobalTouches e name
      change counter (e.deleteGlobal name).2.counters = _
      rw [left]
      rfl
    | evaluate context options =>
      change counter (e.evaluate context options).2.2.counters =
        counter e.counters + ([(e.evaluate context options).1].map reported).sum
      rw [List.map_singleton, List.sum_singleton]
      exact evaluateTallies tallies e context options
    | _ => contradiction

theorem runTallies {counter : Counters → Nat} {reported : Report → Nat}
    (tallies : Counters.Tallies counter reported) (e : Engine) (ops : List Operation) :
    counter (e.run ops).2.counters = counter e.counters + ((e.reports ops).map reported).sum := by
  induction ops generalizing e with
  | nil => rfl
  | cons op rest ih =>
    rw [reportsCons, List.map_append, List.sum_append, ← Nat.add_assoc, ← applyTallies tallies]
    exact ih (e.apply op).2

/-- Where no rule is taken away, all columns agree between the counters, the reports and the rules; and what
a rule has on itself is made of its recordings, across all updates, its mean being theirs. -/
theorem booksBalance (s : Settings) (host : Host) (transport : Transport) (env : Environment)
    (clock : Float) (network : Network Float) (ops : List Operation) (keeps : ∀ op ∈ ops, op.Keeps) :
    let start := create s host transport env clock network
    let e := (start.run ops).2
    (∀ c : Column, c.counted e.counters = ((start.reports ops).map c.reported).sum ∧
      (c.counted e.counters : Int) = (e.registry.list.map fun rule => c.kept rule.stats).sum) ∧
    e.counters.errors = ((start.reports ops).map fun r => r.errors.length).sum ∧
    (∀ r ∈ start.reports ops,
      r.executed = (r.matchList.flatMap RuleMatch.results).countP (fun a => a.status.isSuccess) ∧
      r.failed = (r.matchList.flatMap RuleMatch.results).countP fun a => a.status.isFailed) ∧
    ∀ rule ∈ e.registry.list, rule.stats.matched ≤ rule.stats.evaluations ∧
      rule.stats = .ofRecordings (recordings (start.visits ops) rule.id Visit.duration) ∧
      ∀ (α : Type) [Field α] [CharZero α] (duration : Visit → α),
        let recorded := recordings (start.visits ops) rule.id duration
        (RuleStats.ofRecordings recorded).mean = RuleStats.average recorded := by
  intro start e
  have begun : start.Balanced [] := ⟨Registry.emptyKeyed, by simp, fun _ => rfl⟩
  have balanced : e.Balanced (start.visits ops) := begun.run keeps
  have counted (c : Column) : c.counted e.counters = ((start.reports ops).map c.reported).sum := by
    have total := runTallies c.tallies start ops
    rwa [show c.counted start.counters = 0 by cases c <;> rfl, Nat.zero_add] at total
  have found (c : Column) : ((start.reports ops).map c.reported).sum =
      ((start.visits ops).map fun x => c.found x.finding).sum := by
    calc ((start.reports ops).map c.reported).sum
        = ((start.reports ops).map fun r => (r.findings.map c.found).sum).sum :=
          congrArg List.sum (List.map_congr_left fun r _ => c.reportedFound r)
      _ = (((start.reports ops).flatMap Report.findings).map c.found).sum := by
          rw [List.map_flatMap, List.flatMap_def, List.sum_flatten, List.map_map]
          rfl
      _ = ((start.visits ops).map fun x => c.found x.finding).sum := by
          rw [runFindings, List.map_map]
          rfl
  refine ⟨fun c => ⟨counted c, ?_⟩, ?_, fun r _ => Column.resultsListed r.matchList, fun rule listed => ?_⟩
  · rw [balanced.total c, counted c, found c, Nat.cast_list_sum, List.map_map]
    rfl
  · exact (runTallies Counters.errorsTally start ops).trans (Nat.zero_add _)
  · have stats : rule.stats = .ofRecordings (recordings (start.visits ops) rule.id Visit.duration) := by
      rw [← balanced.stats rule.id, Registry.statsOf, balanced.keyed.known listed]
      rfl
    exact ⟨stats ▸ RuleStats.matchedWithin _, stats, fun α _ _ duration => RuleStats.meanExact _⟩

/-- One rule matches, and one of its actions fails; another rule fails. The first is then renamed. -/
def busy : List Operation :=
  let ask : Operation := .evaluate ⟨[], [("n", .text "x")], []⟩ .unlimited
  [.change (.create [("id", .text "a"), ("conditions", .bool true), ("actions", .list [
      .object [("type", .text "log"), ("config", .object [])],
      .object [("type", .text "variable"), ("config", .object [("name", .text "n"),
        ("operation", .text "increment")])]])]),
    .change (.create [("id", .text "b"), ("conditions", .object [("operator", .text "in"),
      ("left", .int 1), ("right", .text "$\x7bmissing\x7d")])]),
    ask, .change (.update "a" [("name", .text "renamed")]), ask]

theorem booksBalanceBusy :
    let e := ((probe .default).run busy).2
    (∀ op ∈ busy, op.Keeps) ∧
    (e.registry.list.map fun rule => (rule.revision, rule.stats.evaluations)) = [(1, 2), (0, 0)] ∧
    e.counters = ⟨2, 2, 2, 2, 2, 2, 2⟩ ∧
    (e.registry.list.map fun rule => rule.stats.failed).sum = 2 ∧
    (((probe .default).reports busy).map fun r => r.errors.length).sum = 2 := by
  intro e
  have keeps : ∀ op ∈ busy, op.Keeps := by simp [busy, Operation.Keeps]
  have counters : e.counters = ⟨2, 2, 2, 2, 2, 2, 2⟩ := by decide +kernel
  have revised : (e.registry.list.map fun rule => (rule.revision, rule.stats.evaluations)) =
      [(1, 2), (0, 0)] := by decide +kernel
  obtain ⟨columns, errors, _⟩ := booksBalance .default (.catalogue 0 "") (.keeping fun _ => .stalled) [] 0
    (.quiet []) busy keeps
  have failed : (e.counters.failed : Int) = (e.registry.list.map fun rule => rule.stats.failed).sum :=
    (columns .failed).2
  have missed : e.counters.errors = (((probe .default).reports busy).map fun r => r.errors.length).sum :=
    errors
  rw [counters] at failed missed
  exact ⟨keeps, revised, counters, failed.symm, missed.symm⟩

end Engine
end DecisionRules
