import DecisionRules.Proofs.Sort
import DecisionRules.Selection

/-! Selected rules are some of those given, in order; whatever they are, leaving out some of them before
they are put in order or after it is the same. -/
namespace DecisionRules

def Rule.urgent (a b : Rule) : Bool := decide (a.priority.rank ≤ b.priority.rank)

theorem Rule.urgentTotal (a b : Rule) : a.urgent b = true ∨ b.urgent a = true := by
  simpa [urgent] using Nat.le_total a.priority.rank b.priority.rank

theorem Rule.urgentTrans (a b c : Rule) (first : a.urgent b = true) (next : b.urgent c = true) :
    a.urgent c = true := by
  simpa [urgent] using Nat.le_trans (of_decide_eq_true first) (of_decide_eq_true next)

theorem orderFilter (p : Rule → Bool) (rules : List Rule) :
    orderByPriority (rules.filter p) = (orderByPriority rules).filter p :=
  sortByFilter Rule.urgentTotal Rule.urgentTrans p rules

theorem selectPerm (rules : List Rule) (o : EvaluationOptions) :
    (selectRules rules o).Perm (rules.filter fun r => r.enabled && o.criteria.accepts r) :=
  sortByPerm _ _

theorem selectListed {rules : List Rule} {o : EvaluationOptions} {rule : Rule}
    (selected : rule ∈ selectRules rules o) : rule ∈ rules :=
  (List.mem_filter.mp ((selectPerm rules o).mem_iff.mp selected)).1

/-- Every criterion that is supplied is satisfied. -/
structure RuleFilter.Meets (f : RuleFilter) (rule : Rule) : Prop where
  ids : ∀ ids, f.ruleIds = some ids → rule.id ∈ ids
  groups : ∀ names, f.groups = some names → ∃ name ∈ names, rule.group = some name
  priority : ∀ p, f.priority = some p → rule.priority = p
  tags : ∀ tags, f.tags = some tags → ∃ tag ∈ tags, tag ∈ rule.config.tags
  enabled : ∀ b, f.enabled = some b → rule.enabled = b

theorem holdsIff {α : Type} {criterion : Option α} {test : α → Bool} :
    RuleFilter.holds criterion test = true ↔ ∀ a, criterion = some a → test a = true := by
  cases criterion <;> simp [RuleFilter.holds]

theorem acceptsMeets {f : RuleFilter} {rule : Rule} : f.accepts rule = true ↔ f.Meets rule := by
  have grouped (names : List String) :
      rule.group.any names.contains = true ↔ ∃ name ∈ names, rule.group = some name := by
    cases rule.group <;> simp
  have tagged (tags : List String) :
      tags.any rule.config.tags.contains = true ↔ ∃ tag ∈ tags, tag ∈ rule.config.tags := by
    simp
  simp only [RuleFilter.accepts, Bool.and_eq_true, holdsIff, grouped, tagged, List.contains_iff_mem,
    beq_iff_eq, eq_comm (b := rule.priority), eq_comm (b := rule.enabled)]
  exact ⟨fun ⟨⟨⟨⟨ids, groups⟩, priority⟩, tags⟩, enabled⟩ => ⟨ids, groups, priority, tags, enabled⟩,
    fun ⟨ids, groups, priority, tags, enabled⟩ => ⟨⟨⟨⟨ids, groups⟩, priority⟩, tags⟩, enabled⟩⟩

theorem selectIff {rules : List Rule} {o : EvaluationOptions} {rule : Rule} :
    rule ∈ selectRules rules o ↔ rule ∈ rules ∧ rule.enabled = true ∧ o.criteria.Meets rule := by
  rw [(selectPerm rules o).mem_iff, List.mem_filter, Bool.and_eq_true, acceptsMeets]

theorem rankSame {p q : Priority} (same : p.rank = q.rank) : p = q := by
  cases p <;> cases q <;> simp [Priority.rank] at same ⊢

/-- Rules are selected by priority, and those of one priority in the order in which they are given. -/
theorem selectOrdered {rules : List Rule} (o : EvaluationOptions) {before : Rule → Rule → Prop}
    (ordered : rules.Pairwise before) :
    (selectRules rules o).Pairwise fun a b =>
      a.priority.rank < b.priority.rank ∨ a.priority = b.priority ∧ before a b := by
  have kept := ordered.filter fun r => r.enabled && o.criteria.accepts r
  refine (sortByStable Rule.urgentTotal Rule.urgentTrans kept).imp fun {a b} ⟨front, tie⟩ => ?_
  simp only [Rule.urgent, decide_eq_true_eq] at front tie
  rcases Nat.lt_or_eq_of_le front with less | same
  · exact .inl less
  · exact .inr ⟨rankSame same, tie (Nat.le_of_eq same.symm)⟩

end DecisionRules
