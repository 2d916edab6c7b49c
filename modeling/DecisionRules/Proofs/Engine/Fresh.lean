import DecisionRules.Proofs.Condition.Native
import DecisionRules.Proofs.Engine.Twin

/-! Visits of an engine that keeps no results. Each judges its conditions afresh; native conditions leave
the engine and the scope as they were. -/
namespace DecisionRules.Engine

section
variable {e : Engine} {v : Evaluation} {rule : Rule} {context : Context}

theorem visitFresh (uncached : e.settings.evaluation.cacheResults = false) {r : Outcome Verdict}
    {frame : Frame}
    (ran : (e.evaluator.evaluate rule.tree (e.limit v rule)).run
      (e.frame ⟨context, rule.bindings, e.globals⟩) = (r, frame)) :
    e.visit v rule context = settle { e with clock := frame.clock, ticks := frame.ticks } v rule
      frame.scope (r.map fun verdict => (verdict, false)) := by
  refine visitSettles ?_
  unfold judge judgeAfresh
  rw [uncached, ran]
  rfl

theorem visitNative (uncached : e.settings.evaluation.cacheResults = false)
    (native : rule.tree.native e.operators = true) :
    e.visit v rule context = e.settle v rule ⟨context, rule.bindings, e.globals⟩
      ((Visit.fresh ⟨e, v, rule, context⟩).map fun verdict => (verdict, false)) := by
  let f := e.frame ⟨context, rule.bindings, e.globals⟩
  have scope : f.scope = f.scope := rfl
  have check : (e.limit v rule).check f.clock = (e.limit v rule).check f.clock := rfl
  obtain ⟨r, ran, _⟩ := e.evaluator.evaluateNative scope check native
  have answer : Visit.fresh ⟨e, v, rule, context⟩ = r := congrArg Prod.fst ran
  rw [visitFresh uncached ran, answer]
  rfl

end
end DecisionRules.Engine
