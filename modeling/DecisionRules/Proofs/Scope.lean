import DecisionRules.Proofs.Assoc
import DecisionRules.Scope.Resolve

/-! What a scope shows. Its layers of variables are seen only through what they bind in common, which is what
the snapshot holds: scopes over the same facts whose snapshots bind alike show the same. -/
namespace DecisionRules

theorem pathPartsFilled (cs : List Char) : pathParts cs ≠ [] := by
  unfold pathParts
  split
  · simp
  · simp
  · split <;> simp

/-- The first step of a path looks a name up; what is walked afterwards is the value that was found. -/
theorem walkBound {fields fields' : Fields} (same : ∀ name, Assoc.get? fields name = Assoc.get? fields' name)
    {parts : List (List Char)} (filled : parts ≠ []) :
    walk (.object fields) parts = walk (.object fields') parts := by
  obtain ⟨part, rest, rfl⟩ := List.exists_cons_of_ne_nil filled
  simp only [walk, stepInto, same]

namespace Scope

/-- No layer of variables binds a name twice. -/
structure Keyed (s : Scope) : Prop where
  caller : (Assoc.keys s.caller).Nodup
  rule : (Assoc.keys s.rule).Nodup
  globals : (Assoc.keys s.globals).Nodup

/-- Do the scopes have the same facts, and do their variables bind names to the same values? -/
structure Agrees (s t : Scope) : Prop where
  facts : s.data = t.data
  bound : ∀ name, s.binding? name = t.binding? name

/-- Has the flat scope the facts of the other one, and its snapshot for the only layer of variables? -/
structure Flattens (flat s : Scope) : Prop where
  facts : flat.data = s.data
  caller : flat.caller = s.snapshot
  rule : flat.rule = []
  globals : flat.globals = []

variable {s t : Scope}

theorem snapshotBinds (keyed : s.Keyed) (name : String) : Assoc.get? s.snapshot name = s.binding? name := by
  unfold snapshot binding?
  rw [Assoc.getMerge _ keyed.caller, Assoc.getMerge _ keyed.rule]
  cases Assoc.get? s.caller name with
  | some v => rfl
  | none => cases Assoc.get? s.rule name <;> rfl

namespace Agrees

theorem has (same : s.Agrees t) (name : String) : s.has name = t.has name := by
  unfold Scope.has
  rw [same.bound, same.facts]

theorem lookup (same : s.Agrees t) (keyed : s.Keyed) (keyed' : t.Keyed) : s.lookup = t.lookup := by
  funext name
  have snapshots (name : String) : Assoc.get? s.snapshot name = Assoc.get? t.snapshot name := by
    rw [snapshotBinds keyed, snapshotBinds keyed', same.bound]
  unfold Scope.lookup lookupPath
  simp only [same.bound, same.facts, walkBound snapshots (pathPartsFilled _)]

end Agrees

theorem resolveSame (same : s.lookup = t.lookup) (v : Value) : s.resolve v = t.resolve v := by
  unfold Scope.resolve
  rw [same]

theorem literalsSame (same : s.lookup = t.lookup) (source : String) :
    s.substituteLiterals source = t.substituteLiterals source := by
  unfold substituteLiterals
  rw [same]

namespace Flattens

theorem keyed (flat : Flattens t s) (keyed : s.Keyed) : t.Keyed := by
  constructor
  · rw [flat.caller]
    exact Assoc.uniqueMerge (Assoc.uniqueMerge keyed.globals s.rule) s.caller
  · rw [flat.rule]
    exact List.nodup_nil
  · rw [flat.globals]
    exact List.nodup_nil

theorem agrees (flat : Flattens t s) (keyed : s.Keyed) : t.Agrees s := by
  refine ⟨flat.facts, fun name => ?_⟩
  rw [← snapshotBinds keyed]
  unfold binding?
  rw [flat.caller, flat.rule, flat.globals]
  cases Assoc.get? s.snapshot name <;> rfl

end Flattens

end Scope
end DecisionRules
