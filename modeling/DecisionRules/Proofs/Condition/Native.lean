import DecisionRules.Proofs.Condition.Plain
import DecisionRules.Proofs.Condition.Soundness

/-! Native conditions call no function and no operator that the host has registered. What they answer is
decided by the evaluator, the scope, and whether there is time for them; and they change nothing. -/
namespace DecisionRules

/-- A built-in function hides one that is registered under its name. -/
def Operators.nativeFunction (o : Operators) : Value → Bool
  | .text name => o.hasBuiltin name || (o.function? name).isNone
  | _ => true

def Operators.nativeOperator (o : Operators) (op : String) : Bool := (o.operator? op).isNone

def Condition.native (o : Operators) (c : Condition) : Bool :=
  c.callsOnly o.nativeFunction o.nativeOperator

namespace Evaluator
open Run (Alike)
variable {f f' : Frame}

theorem nativeFunctionAlike (e : Evaluator) (token token' : Token Float) (same : f.scope = f'.scope)
    (name : Value) (args : Option Value) (native : e.operators.nativeFunction name = true) :
    Alike (Fixed f f') (e.evaluateFunction name args token) (e.evaluateFunction name args token') := by
  refine Alike.bind (Alike.basic _) fun items => readFixed ?_
  rw [same]
  refine Alike.bind (Alike.basic _) fun values => ?_
  cases name with
  | text s =>
    dsimp only
    split
    · exact Alike.bind (Alike.basic _) fun r => Alike.pure _
    · rename_i silent
      have unregistered : e.operators.function? s = none := by
        simp only [Operators.nativeFunction, Operators.hasBuiltin, Bool.or_eq_true, Bool.and_eq_true,
          Option.isNone_iff_eq_none] at native
        refine native.resolve_left fun builtin => ?_
        obtain ⟨on, known⟩ := builtin
        rw [if_pos on] at silent
        rw [builtinAnswers silent] at known
        contradiction
      rw [unregistered]
      exact Alike.throw _
  | _ => exact Alike.throw _

theorem nativeOperatorAlike {R : Frame → Frame → Prop} (e : Evaluator) (token token' : Token Float)
    (op : String) (node : Fields) (native : e.operators.nativeOperator op = true) :
    Alike R (e.evaluateCustom op node token) (e.evaluateCustom op node token') := by
  unfold evaluateCustom
  rw [Option.isNone_iff_eq_none.mp native]
  exact Alike.throw _

theorem evaluateNative (e : Evaluator) {token token' : Token Float} (scope : f.scope = f'.scope)
    (check : token.check f.clock = token'.check f'.clock) {tree : Condition}
    (native : tree.native e.operators = true) :
    ∃ r, (e.evaluate tree token).run f = (r, f) ∧ (e.evaluate tree token').run f' = (r, f') :=
  evaluateAlike ⟨rfl, rfl, scope, check, e.nativeFunctionAlike token token' scope,
    e.nativeOperatorAlike token token'⟩ native

end Evaluator
end DecisionRules
