import DecisionRules.Proofs.Engine.Run
import DecisionRules.Proofs.Registry.Consistency

/-! The registry of an engine. Whatever an engine does, its registry goes through calls of its own: those
that change rules and groups, and one for each rule that is counted. -/
namespace DecisionRules

/-- Do some calls lead from the one registry to the other? -/
def Registry.Leads (s : Settings) (r after : Registry) : Prop := ∃ calls, after = r.run s calls

namespace Registry.Leads
variable {s : Settings} {a b c : Registry}

theorem same (held : b = a) : Leads s a b := ⟨[], held⟩

theorem one (call : Call) : Leads s a (a.after s call) := ⟨[call], rfl⟩

theorem trans (first : Leads s a b) (next : Leads s b c) : Leads s a c := by
  obtain ⟨calls, rfl⟩ := first
  obtain ⟨more, rfl⟩ := next
  exact ⟨calls ++ more, List.foldl_append.symm⟩

end Registry.Leads

namespace Engine
open Registry (Leads)

theorem settleLeads (e : Engine) (v : Evaluation) (rule : Rule) (scope : Scope)
    (r : Outcome (Verdict × Bool)) (s : Settings) :
    Leads s e.registry (e.settle v rule scope r).2.2.registry := by
  rcases r with f | ⟨⟨_ | _, trace⟩, hit⟩
  · exact .same rfl
  · exact .one (.record rule.id e.host.now _ false 0 0)
  · exact .one (.record rule.id e.host.now _ true _ _)

theorem visitLeads (e : Engine) (v : Evaluation) (rule : Rule) (context : Context) (s : Settings) :
    Leads s e.registry (e.visit v rule context).2.2.registry := by
  obtain ⟨r, scope, _, _, _, _, visited⟩ := e.visitSettlesJudged v rule context
  rw [visited]
  exact settleLeads _ v rule scope r s

theorem walkLeads (v : Evaluation) (l : MatchLimiter) (rules : List Rule) (context : Context)
    (e : Engine) (s : Settings) : Leads s e.registry (walk v l rules context e).2.2.registry := by
  induction rules generalizing l context e with
  | nil => exact .same rfl
  | cons rule rest ih =>
    unfold walk
    split
    · exact .same rfl
    split
    · exact ih l context e
    · exact (visitLeads e v rule context s).trans (ih _ _ _)

theorem evaluateLeads (e : Engine) (context : Context) (options : EvaluationOptions) (s : Settings) :
    Leads s e.registry (e.evaluate context options).2.2.registry := by
  unfold evaluate
  split
  · exact .same rfl
  · exact walkLeads (e.opened context).1 _ _ _ _ s

/-! A change of rules is a call of the registry. -/

theorem createRuleRegistry (e : Engine) (definition : Fields) :
    (e.createRule definition).2.registry = (e.registry.create e.drafting definition).2 := by
  unfold createRule
  split <;> rename_i created <;> rw [created]
  rfl

theorem updateRuleRegistry (e : Engine) (id : String) (given : Fields) :
    (e.updateRule id given).2.registry = (e.registry.update e.drafting id given).2 := by
  unfold updateRule
  split <;> rename_i updated <;> rw [updated]
  rfl

theorem deleteRuleRegistry (e : Engine) (id : String) :
    (e.deleteRule id).2.registry = (e.registry.delete id).2 := by
  unfold deleteRule
  split <;> rename_i deleted <;> rw [deleted]
  rfl

theorem createRuleLeads (e : Engine) (definition : Fields) :
    Leads e.settings e.registry (e.createRule definition).2.registry :=
  createRuleRegistry e definition ▸ .one (.create e.operators e.host.now e.next definition)

theorem changeLeads (e : Engine) (c : Change) :
    Leads e.settings e.registry (e.change c).2.registry := by
  cases c with
  | create definition => exact createRuleLeads e definition
  | copy id fields =>
    change Leads _ _ (e.copyRule id fields).2.registry
    unfold copyRule
    split
    · exact .same rfl
    · exact createRuleLeads e _
  | update id given =>
    exact updateRuleRegistry e id given ▸ .one (.update e.operators e.host.now e.next id given)
  | delete id => exact deleteRuleRegistry e id ▸ .one (.delete id)
  | createGroup name mode maxRules => exact .one (.createGroup name mode maxRules)

theorem applyLeads (e : Engine) (op : Operation) :
    Leads e.settings e.registry (e.apply op).2.registry := by
  cases rests : op.rests with
  | true => exact .same (applyRests e rests).2.1
  | false =>
    cases op with
    | change c => exact changeLeads e c
    | evaluate context options => exact evaluateLeads e context options e.settings
    | clearCache => exact .same rfl
    | sweep => exact .same e.sweepRests.2
    | _ => contradiction

theorem runLeads (e : Engine) (ops : List Operation) :
    Leads e.settings e.registry (e.run ops).2.registry := by
  induction ops generalizing e with
  | nil => exact .same rfl
  | cons op rest ih =>
    have later := ih (e.apply op).2
    rw [applySettings] at later
    exact (applyLeads e op).trans later

theorem runSettings (e : Engine) (ops : List Operation) : (e.run ops).2.settings = e.settings := by
  induction ops generalizing e with
  | nil => rfl
  | cons op rest ih => exact (ih (e.apply op).2).trans (applySettings e op)

end Engine
end DecisionRules
