import DecisionRules.Rule
import DecisionRules.Sort

/-!
Which rules an evaluation looks at, in which order, and when it stops: criteria, the order by
priority, and the limits on matches.
-/
namespace DecisionRules
open Schema (Checked)

structure RuleFilter where
  ruleIds : Option (List String)
  groups : Option (List String)
  priority : Option Priority
  tags : Option (List String)
  enabled : Option Bool
  deriving DecidableEq, Repr

namespace RuleFilter

def textList : Schema.Coercion (Option (List String)) := Schema.optional (Schema.listOf Schema.text)

def ofFields (fields : Fields) : Checked RuleFilter :=
  RuleFilter.mk
    <$> Schema.withDefault fields "rule_ids" none textList
    <*> Schema.withDefault fields "groups" none textList
    <*> Schema.withDefault fields "priority" none (Schema.optional Priority.coerce)
    <*> Schema.withDefault fields "tags" none textList
    <*> Schema.withDefault fields "enabled" none (Schema.optional Schema.bool)

def all : RuleFilter := ⟨none, none, none, none, none⟩

def holds {α : Type} (criterion : Option α) (test : α → Bool) : Bool :=
  match criterion with
  | none => true
  | some a => test a

def accepts (f : RuleFilter) (r : Rule) : Bool :=
  holds f.ruleIds (fun ids => ids.contains r.id) &&
  holds f.groups (fun groups => r.group.any groups.contains) &&
  holds f.priority (fun p => p == r.priority) &&
  holds f.tags (fun tags => tags.any r.config.tags.contains) &&
  holds f.enabled (fun b => b == r.enabled)

end RuleFilter

/-- Criteria of one evaluation, and the limits on its matches; zero is no limit. -/
structure EvaluationOptions where
  criteria : RuleFilter
  stopOnFirstMatch : Bool
  maxMatches : Option Nat
  deriving DecidableEq, Repr

namespace EvaluationOptions

def limit : Schema.Coercion (Option Nat) :=
  Schema.optional fun v => ((Schema.int v).require (0 ≤ ·) .greaterThanEqual).map Int.toNat

def ofFields (fields : Fields) : Checked EvaluationOptions :=
  (fun ids groups priority tags stop most => ⟨⟨ids, groups, priority, tags, none⟩, stop, most⟩)
    <$> Schema.withDefault fields "rule_ids" none RuleFilter.textList
    <*> Schema.withDefault fields "groups" none RuleFilter.textList
    <*> Schema.withDefault fields "priority" none (Schema.optional Priority.coerce)
    <*> Schema.withDefault fields "tags" none RuleFilter.textList
    <*> Schema.withDefault fields "stop_on_first_match" false Schema.bool
    <*> Schema.withDefault fields "max_matches" none limit

def unlimited : EvaluationOptions := ⟨.all, false, none⟩

end EvaluationOptions

def orderByPriority (rules : List Rule) : List Rule :=
  sortBy (fun a b => decide (a.priority.rank ≤ b.priority.rank)) rules

def selectRules (rules : List Rule) (options : EvaluationOptions) : List Rule :=
  orderByPriority (rules.filter fun r => r.enabled && options.criteria.accepts r)

structure MatchLimiter where
  stopOnFirstMatch : Bool
  maxMatches : Option Nat
  firstMatchGroups : List String
  matchedGroups : List String
  matched : Nat
  deriving DecidableEq, Repr

namespace MatchLimiter

def start (options : EvaluationOptions) (firstMatchGroups : List String) : MatchLimiter :=
  { stopOnFirstMatch := options.stopOnFirstMatch
    maxMatches := options.maxMatches.filter (· != 0)
    firstMatchGroups := firstMatchGroups
    matchedGroups := []
    matched := 0 }

def exhausted (l : MatchLimiter) : Bool :=
  l.maxMatches.any (· ≤ l.matched) || (l.stopOnFirstMatch && 0 < l.matched)

def skips (l : MatchLimiter) (r : Rule) : Bool := r.group.any l.matchedGroups.contains

def recordMatch (l : MatchLimiter) (r : Rule) : MatchLimiter :=
  { l with
    matched := l.matched + 1
    matchedGroups :=
      match r.group with
      | some g => if l.firstMatchGroups.contains g then g :: l.matchedGroups else l.matchedGroups
      | none => l.matchedGroups }

inductive Passage where
  | exhausted
  | skipped
  | visited (matched : Bool)
  deriving DecidableEq, Repr

def walk (l : MatchLimiter) (isMatch : Rule → Bool) : List Rule → List (Rule × Passage)
  | [] => []
  | r :: rest =>
    if l.exhausted then [(r, .exhausted)]
    else if l.skips r then (r, .skipped) :: l.walk isMatch rest
    else
      let matched := isMatch r
      (r, .visited matched) :: (if matched then l.recordMatch r else l).walk isMatch rest

end MatchLimiter
end DecisionRules
