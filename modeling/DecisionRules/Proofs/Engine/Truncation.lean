import DecisionRules.Proofs.Engine.Accounting

/-! Limits on matches. A limited evaluation is in lock step with the unlimited one up to its end, and so
reports a first part of what that one reports. -/
namespace DecisionRules

def EvaluationOptions.Unbounded (o : EvaluationOptions) : Prop :=
  o.stopOnFirstMatch = false ∧ ∀ most, o.maxMatches = some most → most = 0

namespace MatchLimiter

def capped (l : MatchLimiter) (most : Nat) : MatchLimiter := { l with maxMatches := some most }

structure Open (l : MatchLimiter) : Prop where
  stop : l.stopOnFirstMatch = false
  most : l.maxMatches = none

/-- They have seen the same matches and end after the same number of them. -/
structure Alike (a b : MatchLimiter) : Prop where
  firsts : b.firstMatchGroups = a.firstMatchGroups
  done : b.matchedGroups = a.matchedGroups
  count : b.matched = a.matched
  ends : ∀ n, { b with matched := n }.exhausted = { a with matched := n }.exhausted

theorem Open.going {l : MatchLimiter} (isOpen : l.Open) : l.exhausted = false := by
  simp [exhausted, isOpen.stop, isOpen.most]

theorem Open.capped {l : MatchLimiter} (isOpen : l.Open) (most : Nat) :
    (l.capped most).exhausted = decide (most ≤ l.matched) := by
  simp [exhausted, MatchLimiter.capped, isOpen.stop]

theorem Open.after {l : MatchLimiter} (isOpen : l.Open) (rule : Rule) (finding : Finding) :
    (l.after rule finding).Open := by
  unfold MatchLimiter.after
  split
  · exact ⟨isOpen.stop, isOpen.most⟩
  · exact isOpen

theorem cappedAfter (l : MatchLimiter) (most : Nat) (rule : Rule) (finding : Finding) :
    (l.capped most).after rule finding = (l.after rule finding).capped most := by
  unfold MatchLimiter.after
  split <;> rfl

theorem Alike.exhausted {a b : MatchLimiter} (alike : a.Alike b) : b.exhausted = a.exhausted := by
  have same := alike.ends a.matched
  have there : { b with matched := a.matched } = b := by rw [← alike.count]
  rwa [there] at same

theorem Alike.skips {a b : MatchLimiter} (alike : a.Alike b) (rule : Rule) :
    b.skips rule = a.skips rule := by
  rw [MatchLimiter.skips, MatchLimiter.skips, alike.done]

theorem Alike.after {a b : MatchLimiter} (alike : a.Alike b) (rule : Rule) (finding : Finding) :
    (a.after rule finding).Alike (b.after rule finding) := by
  unfold MatchLimiter.after
  split
  · refine ⟨alike.firsts, ?_, ?_, alike.ends⟩
    · simp only [recordMatch, alike.firsts, alike.done]
    · simp only [recordMatch, alike.count]
  · exact alike

theorem startOpen {o : EvaluationOptions} (unbounded : o.Unbounded) (firsts : List String) :
    (start o firsts).Open := by
  refine ⟨unbounded.1, Option.filter_eq_none_iff.mpr fun most limited => ?_⟩
  simp [unbounded.2 most limited]

/-- To stop on the first match is to allow one match. -/
theorem stopAlike (o : EvaluationOptions) (firsts : List String) :
    (start { o with maxMatches := some 1 } firsts).Alike
      (start { o with stopOnFirstMatch := true } firsts) where
  firsts := rfl
  done := rfl
  count := rfl
  ends := by
    intro n
    have capped : { start { o with maxMatches := some 1 } firsts with matched := n }.exhausted =
        decide (0 < n) := by
      refine Bool.eq_iff_iff.mpr ?_
      simp [start, exhausted, Nat.succ_le_iff]
    rw [capped]
    -- the other limit is never met before the first match
    refine Bool.eq_iff_iff.mpr ?_
    simp only [start, exhausted, Bool.true_and, Bool.or_eq_true, decide_eq_true_eq, or_iff_right_iff_imp,
      Option.any_eq_true, Option.filter_eq_some_iff]
    rintro ⟨most, ⟨_, positive⟩, reached⟩
    exact Nat.lt_of_lt_of_le (Nat.pos_of_ne_zero (by simpa using positive)) reached

end MatchLimiter

namespace Engine
open MatchLimiter

/-- Where the capped walk is still going, both visit the rule and go on alike. -/
theorem walkCapped {l : MatchLimiter} (isOpen : l.Open) (most : Nat) (v : Evaluation) (rules : List Rule)
    (context : Context) (e : Engine) :
    (walk v (l.capped most) rules context e).1 <+: (walk v l rules context e).1 ∧
    (walk v (l.capped most) rules context e).1.filterMap Finding.match? =
      ((walk v l rules context e).1.filterMap Finding.match?).take (most - l.matched) := by
  induction rules generalizing l context e with
  | nil => simp [walk]
  | cons rule rest ih =>
    by_cases full : most ≤ l.matched
    · have done : (l.capped most).exhausted = true := by simpa [isOpen.capped] using full
      have none : most - l.matched = 0 := by omega
      rw [(walkDone done).1, none]
      exact ⟨List.nil_prefix, rfl⟩
    have going : (l.capped most).exhausted = false := by simpa [isOpen.capped] using full
    cases skipped : l.skips rule with
    | true =>
      rw [(walkSkipped going skipped).1, (walkSkipped isOpen.going skipped).1]
      exact ih isOpen context e
    | false =>
      obtain ⟨finding, after, e', visited⟩ : ∃ finding after e', e.visit v rule context =
        (finding, after, e') := ⟨_, _, _, rfl⟩
      obtain ⟨front, taken⟩ := ih (isOpen.after rule finding) after e'
      rw [(walkVisited going skipped visited).1, (walkVisited isOpen.going skipped visited).1, cappedAfter]
      refine ⟨List.prefix_cons_inj finding |>.mpr front, ?_⟩
      cases matched : finding.match? with
      | none =>
        have count : (l.after rule finding).matched = l.matched := by simp [MatchLimiter.after, matched]
        rw [List.filterMap_cons_none matched, List.filterMap_cons_none matched, taken, count]
      | some m =>
        have count : (l.after rule finding).matched = l.matched + 1 := by
          simp [MatchLimiter.after, matched, recordMatch]
        have room : most - l.matched = (most - (l.matched + 1)) + 1 := by omega
        rw [List.filterMap_cons_some matched, List.filterMap_cons_some matched, taken, count, room,
          List.take_succ_cons]

theorem walkAlike {a b : MatchLimiter} (alike : a.Alike b) (v : Evaluation) (rules : List Rule)
    (context : Context) (e : Engine) : walk v b rules context e = walk v a rules context e := by
  induction rules generalizing a b context e with
  | nil => rfl
  | cons rule rest ih =>
    unfold walk
    rw [alike.exhausted, alike.skips]
    split
    · rfl
    split
    · exact ih alike context e
    · dsimp only
      rw [ih (alike.after rule _)]

theorem stopsLikeOne (e : Engine) (context : Context) (o : EvaluationOptions) :
    e.evaluate context { o with stopOnFirstMatch := true } =
      e.evaluate context { o with maxMatches := some 1 } := by
  unfold evaluate
  split
  · rfl
  · dsimp only [candidates, selectRules]
    rw [walkAlike (stopAlike o _)]

/-- Whatever the options are, the walk is the same evaluation's on the same engine. -/
theorem evaluateFindings (e : Engine) (context : Context) : ∃ v e₁, ∀ o : EvaluationOptions,
    (e.evaluate context o).1.findings =
      if e.enabled then
        (walk v (.start o e.registry.firstMatchGroups) (e.candidates o) context e₁).1
      else [] := by
  refine ⟨(e.opened context).1, (e.opened context).2, fun o => ?_⟩
  unfold evaluate
  cases e.enabled <;> rfl

/-- A limit cuts the report of an unlimited evaluation short and changes nothing before the cut. -/
theorem limitsTruncate (e : Engine) (context : Context) (o : EvaluationOptions) (most : Nat)
    (unbounded : o.Unbounded) (positive : 0 < most) :
    (e.evaluate context { o with maxMatches := some most }).1.matchList =
      (e.evaluate context o).1.matchList.take most ∧
    (e.evaluate context { o with maxMatches := some most }).1.errors <+:
      (e.evaluate context o).1.errors ∧
    e.evaluate context { o with stopOnFirstMatch := true } =
      e.evaluate context { o with maxMatches := some 1 } := by
  have capped (firsts : List String) : MatchLimiter.start { o with maxMatches := some most } firsts =
      (MatchLimiter.start o firsts).capped most := by
    simp [MatchLimiter.start, MatchLimiter.capped, Nat.ne_of_gt positive]
  obtain ⟨v, e₁, findings⟩ := evaluateFindings e context
  obtain ⟨front, taken⟩ := walkCapped (startOpen unbounded e.registry.firstMatchGroups) most v
    (e.candidates o) context e₁
  rw [Report.matchList, Report.matchList, Report.errors, Report.errors, findings, findings, capped]
  refine ⟨?_, ?_, stopsLikeOne e context o⟩
  · split
    · exact taken
    · exact List.take_nil.symm
  · split
    · exact front.filterMap Finding.error?
    · exact List.prefix_rfl

/-- Three of five rules of the crowded engine match, and one fails between the first two of them. -/
theorem limitsTruncateCrowded :
    (EvaluationOptions.unlimited.Unbounded ∧ 0 < 2) ∧
    (crowded.evaluate ⟨[], [], []⟩ ⟨.all, false, some 2⟩).1.matchList =
      (crowded.evaluate ⟨[], [], []⟩ .unlimited).1.matchList.take 2 ∧
    (crowded.evaluate ⟨[], [], []⟩ .unlimited).1.matchList.map RuleMatch.rule = ["a", "d", "e"] := by
  have unbounded : EvaluationOptions.unlimited.Unbounded := ⟨rfl, nofun⟩
  refine ⟨⟨unbounded, by decide⟩, ?_, by decide +kernel⟩
  exact (limitsTruncate crowded ⟨[], [], []⟩ .unlimited 2 unbounded (by decide)).1

end Engine
end DecisionRules
