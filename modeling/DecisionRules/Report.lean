import DecisionRules.Action.Result
import DecisionRules.Condition.Trace
import DecisionRules.Event
import DecisionRules.Rule

/-!
Reports of evaluations. A report lists what was found for each rule that was looked at, in order; its
matches, errors and counts are read off that list.
-/
namespace DecisionRules

structure RuleMatch where
  rule : String
  name : String
  priority : Priority
  trace : Option Trace
  results : List ActionResult
  cacheHit : Bool

structure RuleError where
  rule : String
  name : String
  failure : Failure

inductive Finding where
  | unmatched
  | failed (e : RuleError)
  | matched (m : RuleMatch)

namespace RuleMatch

def executed (m : RuleMatch) : Nat := ActionResult.executed m.results

def failed (m : RuleMatch) : Nat := ActionResult.failed m.results

def toValue (m : RuleMatch) : Value :=
  .object [("rule_id", .text m.rule), ("rule_name", .text m.name),
    ("priority", .text m.priority.name), ("condition_trace", .ofOption (m.trace.map Trace.toValue)),
    ("action_results", .list (m.results.map ActionResult.toValue)), ("cache_hit", .bool m.cacheHit)]

end RuleMatch

def RuleError.toValue (e : RuleError) : Value :=
  .object [("rule_id", .text e.rule), ("rule_name", .text e.name),
    ("error", .ofText? e.failure.text?), ("error_type", .text e.failure.kind)]

namespace Finding

def match? : Finding → Option RuleMatch
  | matched m => some m
  | _ => none

def error? : Finding → Option RuleError
  | failed e => some e
  | _ => none

def isEvaluated : Finding → Bool
  | failed _ => false
  | _ => true

end Finding

structure Report where
  evaluation : String
  findings : List Finding
  bindings : Fields

namespace Report

def matchList (r : Report) : List RuleMatch := r.findings.filterMap Finding.match?

def errors (r : Report) : List RuleError := r.findings.filterMap Finding.error?

def evaluated (r : Report) : Nat := r.findings.countP Finding.isEvaluated

def matched (r : Report) : Nat := r.matchList.length

def executed (r : Report) : Nat := r.matchList.foldr (fun m n => m.executed + n) 0

def failed (r : Report) : Nat := r.matchList.foldr (fun m n => m.failed + n) 0

def tally (r : Report) : Tally :=
  ⟨r.evaluated, r.matched, r.executed, r.failed, r.errors.length⟩

def toFields (r : Report) : Fields :=
  [("evaluated_count", .ofNat r.evaluated), ("matched_count", .ofNat r.matched),
    ("executed_actions", .ofNat r.executed), ("failed_actions", .ofNat r.failed),
    ("matches", .list (r.matchList.map RuleMatch.toValue)),
    ("errors", .list (r.errors.map RuleError.toValue)), ("variables", .object r.bindings)]

end Report
end DecisionRules
