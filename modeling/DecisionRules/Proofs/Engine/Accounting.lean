import DecisionRules.Proofs.Engine.Run

/-! The account of an evaluation. Every candidate has one entry, in order: its finding, or that it was left
out because its group was done, or that it came after the end. Which of these it is depends on nothing but
the entries before it. -/
namespace DecisionRules

inductive Fate where
  | processed (finding : Finding)
  | skipped
  | cut

namespace Fate

def finding? : Fate → Option Finding
  | processed finding => some finding
  | _ => none

def match? (fate : Fate) : Option RuleMatch := fate.finding?.bind Finding.match?

def error? (fate : Fate) : Option RuleError := fate.finding?.bind Finding.error?

def matched (fate : Fate) : Bool := fate.match?.isSome

def failed (fate : Fate) : Bool := fate.error?.isSome

def unmatched : Fate → Bool
  | processed .unmatched => true
  | _ => false

end Fate

abbrev Entry := Rule × Fate

namespace Entry

def processed (entry : Entry) : Bool := entry.2.finding?.isSome

def matched (entry : Entry) : Bool := entry.2.matched

def failed (entry : Entry) : Bool := entry.2.failed

def unmatched (entry : Entry) : Bool := entry.2.unmatched

def matchedIn (group : String) (entry : Entry) : Bool := entry.matched && entry.1.group == some group

end Entry

namespace Account

def Enough (o : EvaluationOptions) (past : List Entry) : Prop :=
  (∃ most, o.maxMatches = some most ∧ 0 < most ∧ most ≤ past.countP Entry.matched) ∨
  (o.stopOnFirstMatch = true ∧ 0 < past.countP Entry.matched)

def Done (firsts : List String) (past : List Entry) (rule : Rule) : Prop :=
  ∃ group ∈ firsts, rule.group = some group ∧ ∃ entry ∈ past, entry.matchedIn group = true

/-- Is this what has to become of a rule after these entries? -/
def Due (o : EvaluationOptions) (firsts : List String) (past : List Entry) (rule : Rule) : Fate → Prop
  | .cut => Enough o past
  | .skipped => ¬ Enough o past ∧ Done firsts past rule
  | .processed _ => ¬ Enough o past ∧ ¬ Done firsts past rule

/-- Every entry is due after those before it. -/
inductive Follows (o : EvaluationOptions) (firsts : List String) : List Entry → List Entry → Prop where
  | nil (past : List Entry) : Follows o firsts past []
  | cons {past rest : List Entry} {entry : Entry} (due : Due o firsts past entry.1 entry.2)
      (next : Follows o firsts (past ++ [entry]) rest) : Follows o firsts past (entry :: rest)

namespace Follows
variable {o : EvaluationOptions} {firsts : List String} {past entries : List Entry}

theorem enoughStill (enough : Enough o past) (rule : Rule) : Enough o (past ++ [(rule, .cut)]) := by
  have counted : (past ++ [(rule, Fate.cut)]).countP Entry.matched = past.countP Entry.matched := by
    simp [Entry.matched, Fate.matched, Fate.match?, Fate.finding?]
  unfold Enough
  rw [counted]
  exact enough

theorem ofEnough (enough : Enough o past) (rules : List Rule) :
    Follows o firsts past (rules.map fun rule => (rule, .cut)) := by
  induction rules generalizing past with
  | nil => exact .nil past
  | cons rule rest ih => exact .cons enough (ih (enoughStill enough rule))

theorem cuts (follows : Follows o firsts past entries) (enough : Enough o past) :
    ∀ entry ∈ entries, entry.2 = .cut := by
  induction follows with
  | nil => simp
  | @cons past rest entry due next ih =>
    obtain ⟨rule, fate⟩ := entry
    cases fate with
    | cut => exact List.forall_mem_cons.mpr ⟨rfl, ih (enoughStill enough rule)⟩
    | skipped => exact absurd enough due.1
    | processed finding => exact absurd enough due.1

theorem suffix (follows : Follows o firsts past entries) :
    ∃ walked rest, entries = walked ++ rest ∧ (∀ entry ∈ walked, entry.2 ≠ .cut) ∧
      ∀ entry ∈ rest, entry.2 = .cut := by
  induction follows with
  | nil => exact ⟨[], [], rfl, by simp, by simp⟩
  | @cons past rest entry due next ih =>
    by_cases ends : entry.2 = .cut
    · have enough : Enough o past := by
        rw [ends] at due
        exact due
      exact ⟨[], entry :: rest, rfl, by simp, (Follows.cons due next).cuts enough⟩
    · obtain ⟨walked, tail, rfl, going, cut⟩ := ih
      exact ⟨entry :: walked, tail, rfl, List.forall_mem_cons.mpr ⟨ends, going⟩, cut⟩

/-- What is never due after as many as the bound allows stays within the bound. -/
theorem bounded (follows : Follows o firsts past entries) {p : Entry → Bool} {most : Nat}
    (room : ∀ past entry, Due o firsts past entry.1 entry.2 → p entry = true → past.countP p < most)
    (within : past.countP p ≤ most) : (past ++ entries).countP p ≤ most := by
  induction follows with
  | nil => simpa using within
  | @cons past rest entry due next ih =>
    have grown : (past ++ [entry]).countP p ≤ most := by
      cases counts : p entry with
      | true =>
        have below := room past entry due counts
        simp only [List.countP_append, List.countP_singleton, counts, if_true]
        omega
      | false => simpa [counts] using within
    simpa using ih grown

theorem withinMost (follows : Follows o firsts [] entries) {most : Nat}
    (limited : o.maxMatches = some most) (positive : 0 < most) :
    entries.countP Entry.matched ≤ most := by
  refine follows.bounded (fun past entry due matched => ?_) (Nat.zero_le most)
  obtain ⟨rule, fate⟩ := entry
  cases fate with
  | processed finding =>
    exact Nat.lt_of_not_le fun full => due.1 (.inl ⟨most, limited, positive, full⟩)
  | skipped => contradiction
  | cut => contradiction

theorem oncePerGroup (follows : Follows o firsts [] entries) {group : String} (first : group ∈ firsts) :
    entries.countP (Entry.matchedIn group) ≤ 1 := by
  refine follows.bounded (fun past entry due matched => ?_) (Nat.zero_le 1)
  obtain ⟨rule, fate⟩ := entry
  simp only [Entry.matchedIn, Bool.and_eq_true, beq_iff_eq] at matched
  cases fate with
  | processed finding =>
    exact Nat.lt_of_not_le fun more =>
      due.2 ⟨group, first, matched.2, List.countP_pos_iff.mp more⟩
  | skipped => simp [Entry.matched, Fate.matched, Fate.match?, Fate.finding?] at matched
  | cut => simp [Entry.matched, Fate.matched, Fate.match?, Fate.finding?] at matched

end Follows
end Account

open Account (Enough Done Due Follows)

/-! A limiter knows of the entries so far what the next decision needs. -/

structure MatchLimiter.Tracks (l : MatchLimiter) (o : EvaluationOptions) (firsts : List String)
    (past : List Entry) : Prop where
  stop : l.stopOnFirstMatch = o.stopOnFirstMatch
  most : l.maxMatches = o.maxMatches.filter (· != 0)
  groups : l.firstMatchGroups = firsts
  count : l.matched = past.countP Entry.matched
  done : ∀ group, group ∈ l.matchedGroups ↔
    group ∈ firsts ∧ ∃ entry ∈ past, entry.matchedIn group = true

namespace MatchLimiter.Tracks
variable {l : MatchLimiter} {o : EvaluationOptions} {firsts : List String} {past : List Entry}

theorem start (o : EvaluationOptions) (firsts : List String) :
    (MatchLimiter.start o firsts).Tracks o firsts [] :=
  ⟨rfl, rfl, rfl, rfl, by simp [MatchLimiter.start]⟩

theorem exhausted (tracks : l.Tracks o firsts past) : l.exhausted = true ↔ Enough o past := by
  unfold MatchLimiter.exhausted Enough
  rw [tracks.stop, tracks.most, tracks.count]
  cases o.maxMatches with
  | none => simp
  | some most =>
    by_cases zero : most = 0
    · simp [zero]
    · have positive : 0 < most := Nat.pos_of_ne_zero zero
      simp [zero, positive]

theorem skips (tracks : l.Tracks o firsts past) (rule : Rule) :
    l.skips rule = true ↔ Done firsts past rule := by
  unfold MatchLimiter.skips Done
  cases rule.group with
  | none => simp
  | some group =>
    rw [Option.any_some, List.contains_iff_mem, tracks.done]
    constructor
    · rintro ⟨listed, earlier⟩
      exact ⟨group, listed, rfl, earlier⟩
    · rintro ⟨_, listed, same, earlier⟩
      cases same
      exact ⟨listed, earlier⟩

theorem idle (tracks : l.Tracks o firsts past) {entry : Entry} (quiet : entry.matched = false) :
    l.Tracks o firsts (past ++ [entry]) where
  stop := tracks.stop
  most := tracks.most
  groups := tracks.groups
  count := by simp [tracks.count, quiet]
  done := by
    intro group
    rw [tracks.done]
    simp [Entry.matchedIn, quiet]

theorem record (tracks : l.Tracks o firsts past) {entry : Entry} (matched : entry.matched = true) :
    (l.recordMatch entry.1).Tracks o firsts (past ++ [entry]) where
  stop := tracks.stop
  most := tracks.most
  groups := tracks.groups
  count := by simp [MatchLimiter.recordMatch, tracks.count, matched]
  done := by
    intro group
    have before := tracks.done group
    have here : entry.matchedIn group = true ↔ entry.1.group = some group := by
      simp [Entry.matchedIn, matched]
    have either : (∃ e ∈ past ++ [entry], e.matchedIn group = true) ↔
        (∃ e ∈ past, e.matchedIn group = true) ∨ entry.1.group = some group := by
      simp only [List.mem_append, List.mem_singleton, or_and_right, exists_or, exists_eq_left, here]
    rw [either]
    unfold MatchLimiter.recordMatch
    cases belongs : entry.1.group with
    | none => simpa using before
    | some g =>
      simp only [tracks.groups, List.contains_iff_mem, Option.some.injEq]
      by_cases first : g ∈ firsts
      · rw [if_pos first, List.mem_cons, before]
        constructor
        · rintro (rfl | ⟨listed, earlier⟩)
          · exact ⟨first, .inr rfl⟩
          · exact ⟨listed, .inl earlier⟩
        · rintro ⟨listed, earlier | rfl⟩
          · exact .inr ⟨listed, earlier⟩
          · exact .inl rfl
      · rw [if_neg first, before]
        constructor
        · rintro ⟨listed, earlier⟩
          exact ⟨listed, .inl earlier⟩
        · rintro ⟨listed, earlier | rfl⟩
          · exact ⟨listed, earlier⟩
          · contradiction

theorem after (tracks : l.Tracks o firsts past) (rule : Rule) (finding : Finding) :
    (l.after rule finding).Tracks o firsts (past ++ [(rule, .processed finding)]) := by
  have told : Entry.matched (rule, .processed finding) = finding.match?.isSome := rfl
  unfold MatchLimiter.after
  split
  · rename_i matched
    exact tracks.record (told.trans matched)
  · rename_i quiet
    exact tracks.idle (told.trans (by simpa using quiet))

end MatchLimiter.Tracks

/-! Findings and entries -/

def Finding.Of (rule : Rule) : Finding → Prop
  | unmatched => True
  | failed e => e.rule = rule.id
  | matched m => m.rule = rule.id

def Account.findings (entries : List Entry) : List Finding := entries.filterMap fun entry => entry.2.finding?

theorem Account.findingsCons (rule : Rule) (fate : Fate) (rest : List Entry) :
    findings ((rule, fate) :: rest) = fate.finding?.toList ++ findings rest := by
  cases fate <;> rfl

theorem Account.count (entries : List Entry) :
    (findings entries).countP Finding.isEvaluated + ((findings entries).filterMap Finding.error?).length =
      entries.countP Entry.processed ∧
    (findings entries).countP Finding.isEvaluated =
      ((findings entries).filterMap Finding.match?).length + entries.countP Entry.unmatched ∧
    ((findings entries).filterMap Finding.match?).length = entries.countP Entry.matched := by
  induction entries with
  | nil => exact ⟨rfl, rfl, rfl⟩
  | cons entry rest ih =>
    obtain ⟨rule, fate⟩ := entry
    obtain ⟨all, evaluated, matched⟩ := ih
    simp only [findingsCons, List.countP_append, List.filterMap_append, List.length_append,
      List.countP_cons, Entry.processed, Entry.matched, Entry.unmatched]
    rcases fate with (_ | _ | _) | _ | _ <;>
      simp [List.filterMap_cons, Fate.finding?, Fate.matched, Fate.match?, Fate.unmatched,
        Finding.isEvaluated, Finding.match?, Finding.error?] <;> omega

theorem Account.names {entries : List Entry}
    (own : ∀ entry ∈ entries, ∀ finding, entry.2.finding? = some finding → finding.Of entry.1) :
    ((findings entries).filterMap Finding.match?).map RuleMatch.rule =
      (entries.filter Entry.matched).map (fun entry => entry.1.id) ∧
    ((findings entries).filterMap Finding.error?).map RuleError.rule =
      (entries.filter Entry.failed).map (fun entry => entry.1.id) := by
  induction entries with
  | nil => exact ⟨rfl, rfl⟩
  | cons entry rest ih =>
    obtain ⟨rule, fate⟩ := entry
    obtain ⟨here, later⟩ := List.forall_mem_cons.mp own
    obtain ⟨matched, failed⟩ := ih later
    simp only [findingsCons, List.filterMap_append, List.map_append, matched, failed, List.filter_cons,
      Entry.matched, Entry.failed]
    rcases fate with (_ | e | m) | _ | _
    · exact ⟨rfl, rfl⟩
    · have name : e.rule = rule.id := here _ rfl
      exact ⟨rfl, congrArg (· :: _) name⟩
    · have name : m.rule = rule.id := here _ rfl
      exact ⟨congrArg (· :: _) name, rfl⟩
    · exact ⟨rfl, rfl⟩
    · exact ⟨rfl, rfl⟩

/-- What entries of all candidates, in order, have to do with the report of an evaluation. -/
structure Accounts (o : EvaluationOptions) (firsts : List String) (candidates : List Rule)
    (entries : List Entry) (report : Report) : Prop where
  whole : entries.map Prod.fst = candidates
  due : Follows o firsts [] entries
  suffix : ∃ walked rest, entries = walked ++ rest ∧ (∀ entry ∈ walked, entry.2 ≠ .cut) ∧
    ∀ entry ∈ rest, entry.2 = .cut
  findings : report.findings = Account.findings entries
  matched : report.matchList.map RuleMatch.rule =
    (entries.filter Entry.matched).map fun entry => entry.1.id
  failed : report.errors.map RuleError.rule = (entries.filter Entry.failed).map fun entry => entry.1.id
  processed : report.evaluated + report.errors.length = entries.countP Entry.processed
  unmatched : report.evaluated = report.matched + entries.countP Entry.unmatched
  most : ∀ most, o.maxMatches = some most → 0 < most → report.matched ≤ most
  groups : ∀ group ∈ firsts, entries.countP (Entry.matchedIn group) ≤ 1

theorem Accounts.ofEntries {o : EvaluationOptions} {firsts : List String} {candidates : List Rule}
    {entries : List Entry} {report : Report} (whole : entries.map Prod.fst = candidates)
    (follows : Follows o firsts [] entries) (findings : report.findings = Account.findings entries)
    (own : ∀ entry ∈ entries, ∀ finding, entry.2.finding? = some finding → finding.Of entry.1) :
    Accounts o firsts candidates entries report := by
  obtain ⟨all, evaluated, matched⟩ := Account.count entries
  obtain ⟨matchNames, errorNames⟩ := Account.names own
  rw [← findings] at all evaluated matched matchNames errorNames
  refine ⟨whole, follows, follows.suffix, findings, matchNames, errorNames, all, evaluated,
    fun most limited positive => ?_, fun group first => follows.oncePerGroup first⟩
  exact Nat.le_trans (Nat.le_of_eq matched) (follows.withinMost limited positive)

namespace Engine

def ledger (v : Evaluation) (l : MatchLimiter) : List Rule → Context → Engine → List Entry
  | [], _, _ => []
  | rule :: rest, context, e =>
    if l.exhausted then (rule :: rest).map fun rule => (rule, .cut)
    else if l.skips rule then (rule, .skipped) :: ledger v l rest context e
    else
      let (finding, context, e) := e.visit v rule context
      (rule, .processed finding) :: ledger v (l.after rule finding) rest context e

theorem visitOf (e : Engine) (v : Evaluation) (rule : Rule) (context : Context) :
    (e.visit v rule context).1.Of rule := by
  unfold visit
  dsimp only
  rcases (e.judge (v.logOf rule) rule (e.limit v rule) ⟨context, rule.bindings, e.globals⟩).1
    with f | ⟨⟨_ | _, trace⟩, hit⟩
  · exact rfl
  · exact trivial
  · exact rfl

def Visit.finding (x : Visit) : Finding := (x.engine.visit x.evaluation x.rule x.context).1

/-- The ledger goes with the walk: it has all rules, the walk's findings, and the visits that made them. -/
theorem ledgerWalk (v : Evaluation) (l : MatchLimiter) (rules : List Rule) (context : Context)
    (e : Engine) :
    (ledger v l rules context e).map Prod.fst = rules ∧
    (walk v l rules context e).1 = Account.findings (ledger v l rules context e) ∧
    (walkVisits v l rules context e).map (fun x => (x.rule, Fate.processed x.finding)) =
      (ledger v l rules context e).filter Entry.processed := by
  induction rules generalizing l context e with
  | nil => exact ⟨rfl, rfl, rfl⟩
  | cons rule rest ih =>
    unfold ledger walk walkVisits
    by_cases done : l.exhausted
    · rw [if_pos done, if_pos done, if_pos done]
      refine ⟨by simp [Function.comp_def], ?_, ?_⟩
      · simp [Account.findings, Fate.finding?]
      · simp [Entry.processed, Fate.finding?]
    rw [if_neg done, if_neg done, if_neg done]
    by_cases skipped : l.skips rule
    · rw [if_pos skipped, if_pos skipped, if_pos skipped]
      obtain ⟨rules, findings, visits⟩ := ih l context e
      exact ⟨congrArg (rule :: ·) rules, findings, visits⟩
    · rw [if_neg skipped, if_neg skipped, if_neg skipped]
      obtain ⟨rules, findings, visits⟩ := ih (l.after rule (e.visit v rule context).1)
        (e.visit v rule context).2.1 (e.visit v rule context).2.2
      exact ⟨congrArg (rule :: ·) rules, congrArg ((e.visit v rule context).1 :: ·) findings,
        congrArg ((rule, Fate.processed (e.visit v rule context).1) :: ·) visits⟩

theorem walkFindings (v : Evaluation) (l : MatchLimiter) (rules : List Rule) (context : Context)
    (e : Engine) : (walk v l rules context e).1 = (walkVisits v l rules context e).map Visit.finding := by
  obtain ⟨_, findings, visits⟩ := ledgerWalk v l rules context e
  have shown (entry : Entry) : (if entry.processed then entry.2.finding? else none) = entry.2.finding? := by
    cases found : entry.2.finding? <;> simp [Entry.processed, found]
  have told (entries : List Entry) : Account.findings (entries.filter Entry.processed) =
      Account.findings entries := by
    simp only [Account.findings, List.filterMap_filter, shown]
  rw [findings, ← told, ← visits]
  rw [Account.findings, List.filterMap_map]
  exact congrFun List.filterMap_eq_map _

theorem ledgerOwn (v : Evaluation) (l : MatchLimiter) (rules : List Rule) (context : Context)
    (e : Engine) : ∀ entry ∈ ledger v l rules context e, ∀ finding,
      entry.2.finding? = some finding → finding.Of entry.1 := by
  intro entry member finding told
  have processed : entry ∈ (ledger v l rules context e).filter Entry.processed :=
    List.mem_filter.mpr ⟨member, by simp [Entry.processed, told]⟩
  rw [← (ledgerWalk v l rules context e).2.2] at processed
  obtain ⟨x, _, rfl⟩ := List.mem_map.mp processed
  cases told
  exact visitOf x.engine x.evaluation x.rule x.context

theorem ledgerFollows {l : MatchLimiter} {o : EvaluationOptions} {firsts : List String}
    {past : List Entry} (tracks : l.Tracks o firsts past) (v : Evaluation) (rules : List Rule)
    (context : Context) (e : Engine) : Follows o firsts past (ledger v l rules context e) := by
  induction rules generalizing l past context e with
  | nil => exact .nil past
  | cons rule rest ih =>
    unfold ledger
    by_cases done : l.exhausted
    · rw [if_pos done]
      exact .ofEnough (tracks.exhausted.mp done) _
    · rw [if_neg done]
      have going : ¬ Enough o past := fun enough => done (tracks.exhausted.mpr enough)
      by_cases skipped : l.skips rule
      · rw [if_pos skipped]
        exact .cons ⟨going, (tracks.skips rule).mp skipped⟩ (ih (tracks.idle rfl) context e)
      · rw [if_neg skipped]
        have open' : ¬ Done firsts past rule := fun closed => skipped ((tracks.skips rule).mpr closed)
        exact .cons ⟨going, open'⟩ (ih (tracks.after rule _) _ _)

def Visit.entry (x : Visit) : Entry := (x.rule, .processed x.finding)

theorem respondRefused {e : Engine} {context : Context} {options : Value} {f : Failure}
    (refused : (e.respond context options).1 = .error f) :
    (e.respond context options).2 = (context, e) := by
  unfold respond at refused ⊢
  dsimp only at refused ⊢
  split at refused
  · rfl
  · contradiction

theorem respondAccepts {e : Engine} {context : Context} {options : Value} {report : Report}
    (ok : (e.respond context options).1 = .ok report) :
    ∃ o, EvaluationOptions.ofValue options = .ok o ∧ report = (e.evaluate context o).1 ∧
      (e.respond context options).2 = (e.evaluate context o).2 := by
  unfold respond at ok ⊢
  dsimp only at ok ⊢
  split at ok
  · contradiction
  · rename_i o asked
    obtain ⟨read, ofOptions, asked⟩ := bindAccepts.mp asked
    have same : read = o := by
      split at asked
      · obtain ⟨_, _, answer⟩ := bindAccepts.mp asked
        exact pureAccepts.mp answer
      · exact pureAccepts.mp asked
    exact ⟨o, same ▸ ofOptions, (Except.ok.inj ok).symm, rfl⟩

theorem respondEvaluates {e : Engine} {context : Context} {options : Value} {o : EvaluationOptions}
    {name : Option String} (read : EvaluationOptions.ofValue options = .ok o)
    (named : context.correlation? = .ok name) :
    (e.respond context options).1 = .ok (e.evaluate context o).1 := by
  unfold respond
  cases e.enabled <;>
    simp [read, named, liftM, monadLift, MonadLift.monadLift, Outcome.ofBreach, bind, Except.bind, pure,
      Except.pure]

/-- An enabled engine reports on every well-formed request. -/
theorem everyCandidateAccounted (e : Engine) (context : Context) (options : Value)
    (o : EvaluationOptions) (name : Option String) (on : e.enabled = true)
    (read : EvaluationOptions.ofValue options = .ok o) (named : context.correlation? = .ok name) :
    ∃ report entries, (e.respond context options).1 = .ok report ∧
      Accounts o e.registry.firstMatchGroups (selectRules e.registry.list o) entries report ∧
      (e.applyVisits (.evaluate context o)).map Visit.entry = entries.filter Entry.processed := by
  obtain ⟨v, e₁, walked, _, left, reported, _, visited⟩ := evaluateWalks on context o
  let l : MatchLimiter := .start o e.registry.firstMatchGroups
  obtain ⟨whole, found, visits⟩ := ledgerWalk v l (e.candidates o) context e₁
  have follows := ledgerFollows (.start o e.registry.firstMatchGroups) v (e.candidates o) context e₁
  have own := ledgerOwn v l (e.candidates o) context e₁
  rw [left, ← reported] at found
  refine ⟨_, _, respondEvaluates read named, .ofEntries whole follows found own, ?_⟩
  rw [visited]
  exact visits

/-- Two rules of a group of which one may match, one that fails, and one more than may match. -/
def crowded : Engine :=
  let member (id : String) : Operation := .change (.create [("id", .text id),
    ("conditions", .bool true), ("config", .object [("group", .text "g")])])
  ((probe .default).run [.change (.createGroup (.text "g") (.text "first-match") .null),
    member "a", member "b",
    .change (.create [("id", .text "c"), ("conditions", .object [("operator", .text "in"),
      ("left", .int 1), ("right", .text "$\x7bmissing\x7d")])]),
    .change (.create [("id", .text "d"), ("conditions", .bool true)]),
    .change (.create [("id", .text "e"), ("conditions", .bool true)])]).2

theorem everyCandidateAccountedCrowded :
    ∃ report entries, (crowded.respond ⟨[], [], []⟩ (.object [("max_matches", .int 2)])).1 = .ok report ∧
      entries.map (fun entry : Entry => entry.1.id) = ["a", "b", "c", "d", "e"] ∧
      report.findings = Account.findings entries ∧ report.matched ≤ 2 ∧
      entries.countP (Entry.matchedIn "g") ≤ 1 := by
  obtain ⟨report, entries, answered, accounts, _⟩ := everyCandidateAccounted crowded ⟨[], [], []⟩
    (.object [("max_matches", .int 2)]) ⟨.all, false, some 2⟩ none (by decide +kernel) rfl rfl
  have names : (selectRules crowded.registry.list ⟨.all, false, some 2⟩).map Rule.id =
      ["a", "b", "c", "d", "e"] := by decide +kernel
  refine ⟨report, entries, answered, ?_, accounts.findings, accounts.most 2 rfl (by decide),
    accounts.groups "g" (by decide +kernel)⟩
  rw [← names, ← accounts.whole, List.map_map]
  rfl

example : (crowded.respond ⟨[], [], []⟩ (.object [("max_matches", .int 2)])).1.toOption.map (fun report =>
    (report.matchList.map RuleMatch.rule, report.errors.map RuleError.rule, report.evaluated)) =
    some (["a", "d"], ["c"], 2) := by decide +kernel

end Engine
end DecisionRules
