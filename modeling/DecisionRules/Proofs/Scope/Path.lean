import DecisionRules.Proofs.Cache.Canonical
import DecisionRules.Proofs.Scope.Interpolation
import DecisionRules.Proofs.Text.Digit

/-! Paths into values. A path leads from field to field and from list to item, and a part of it that is no index
leads nowhere from a list; but a part of digits that cannot be read as an index makes the walk fail there. -/
namespace DecisionRules

namespace Path
open Number (maxTextDigits decimalValue)
variable {part : List Char} {v w : Value}

/-- A part that is an index. -/
structure Readable (part : List Char) : Prop where
  filled : part ≠ []
  decimal : ∀ c ∈ part, Text.isDecimal c = true
  short : part.length ≤ maxTextDigits

/-- A part of digits that is no index: not all of them are decimal, or there are too many. -/
structure Unreadable (part : List Char) : Prop where
  filled : part ≠ []
  digits : ∀ c ∈ part, Text.isDigit c = true
  strange : ¬ ((∀ c ∈ part, Text.isDecimal c = true) ∧ part.length ≤ maxTextDigits)

theorem indexCases (part : List Char) :
    Readable part ∧ listIndex? part = .ok (some (decimalValue part)) ∨
    Unreadable part ∧ listIndex? part = .error .badValue ∨
    ¬ Readable part ∧ ¬ Unreadable part ∧ listIndex? part = .ok none := by
  unfold listIndex?
  by_cases digits : part ≠ [] ∧ ∀ c ∈ part, Text.isDigit c = true
  · obtain ⟨reads, fails⟩ := Number.readIntDigits digits.1 digits.2
    have asked : ¬ (part.isEmpty || !part.all Text.isDigit) = true := by
      simp [digits.1, List.all_eq_true.mpr digits.2]
    rw [if_neg asked]
    by_cases plain : (∀ c ∈ part, Text.isDecimal c = true) ∧ part.length ≤ maxTextDigits
    · rw [reads plain]
      exact .inl ⟨⟨digits.1, plain.1, plain.2⟩, rfl⟩
    · rw [fails plain]
      exact .inr (.inl ⟨⟨digits.1, digits.2, plain⟩, rfl⟩)
  · have passed : (part.isEmpty || !part.all Text.isDigit) = true := by
      by_contra asked
      exact digits (by simpa using asked)
    rw [if_pos passed]
    refine .inr (.inr ⟨fun readable => digits ⟨readable.filled, fun c member => ?_⟩,
      fun unreadable => digits ⟨unreadable.filled, unreadable.digits⟩, rfl⟩)
    simp [Text.isDigit, readable.decimal c member]

theorem Unreadable.other (unreadable : Unreadable part) : ¬ Readable part :=
  fun readable => unreadable.strange ⟨readable.decimal, readable.short⟩

inductive Steps (part : List Char) : Value → Value → Prop where
  | field {fields : Fields} {v : Value} (found : Assoc.get? fields (String.ofList part) = some v) :
      Steps part (.object fields) v
  | item {items : List Value} {v : Value} (readable : Readable part)
      (found : items[decimalValue part]? = some v) : Steps part (.list items) v

theorem Steps.into (steps : Steps part v w) : stepInto part v = .ok (some w) := by
  cases steps with
  | field found => exact congrArg Except.ok found
  | @item items w readable found =>
    rcases indexCases part with ⟨_, index⟩ | ⟨unreadable, _⟩ | ⟨unread, _⟩
    · simp only [stepInto, index, bind, Except.bind, pure, Except.pure, found]
    · exact absurd readable unreadable.other
    · exact absurd readable unread

/-- One step ends at what the part stands for, or fails at a list for a part that cannot be read. -/
theorem stepCases (part : List Char) (v : Value) :
    (∃ w, Steps part v w) ∨
    (∃ items, v = .list items ∧ Unreadable part) ∧ stepInto part v = .error .badValue ∨
    stepInto part v = .ok none ∧ ∀ items, v = .list items → ¬ Unreadable part := by
  cases v with
  | object fields =>
    cases found : Assoc.get? fields (String.ofList part) with
    | some w => exact .inl ⟨w, .field found⟩
    | none => exact .inr (.inr ⟨congrArg Except.ok found, nofun⟩)
  | list items =>
    rcases indexCases part with ⟨readable, index⟩ | ⟨unreadable, index⟩ | ⟨unread, other, index⟩
    · cases found : items[decimalValue part]? with
      | some w => exact .inl ⟨w, .item readable found⟩
      | none =>
        refine .inr (.inr ⟨?_, fun _ _ unreadable => unreadable.other readable⟩)
        simp only [stepInto, index, bind, Except.bind, pure, Except.pure, found]
    · refine .inr (.inl ⟨⟨items, rfl, unreadable⟩, ?_⟩)
      simp only [stepInto, index, bind, Except.bind]
    · refine .inr (.inr ⟨?_, fun _ _ => other⟩)
      simp only [stepInto, index, bind, Except.bind, pure, Except.pure]
  | _ => exact .inr (.inr ⟨rfl, nofun⟩)

inductive Leads : Value → List (List Char) → Value → Prop where
  | here (v : Value) : Leads v [] v
  | step {part : List Char} {rest : List (List Char)} {u v w : Value} (first : Steps part u v)
      (next : Leads v rest w) : Leads u (part :: rest) w

/-- The path comes to a list at a part that cannot be read. -/
inductive Stumbles : Value → List (List Char) → Prop where
  | here {items : List Value} {part : List Char} {rest : List (List Char)} (unreadable : Unreadable part) :
      Stumbles (.list items) (part :: rest)
  | step {part : List Char} {rest : List (List Char)} {u v : Value} (first : Steps part u v)
      (next : Stumbles v rest) : Stumbles u (part :: rest)

theorem Leads.walks {parts : List (List Char)} (leads : Leads v parts w) : walk v parts = .ok (some w) := by
  induction leads with
  | here => rfl
  | step first next ih =>
    rw [walk, first.into]
    exact ih

theorem Stumbles.walks {parts : List (List Char)} (stumbles : Stumbles v parts) :
    walk v parts = .error .badValue := by
  induction stumbles with
  | @here items part rest unreadable =>
    rcases stepCases part (.list items) with ⟨w, steps⟩ | ⟨_, failed⟩ | ⟨_, other⟩
    · cases steps with
      | item readable _ => exact absurd readable unreadable.other
    · rw [walk, failed]
      rfl
    · exact absurd unreadable (other items rfl)
  | step first next ih =>
    rw [walk, first.into]
    exact ih

/-- A walk ends where its path leads, or fails where it stumbles; otherwise there is nothing. -/
theorem walkCases (v : Value) (parts : List (List Char)) :
    (∃ w, Leads v parts w) ∨ Stumbles v parts ∨ walk v parts = .ok none := by
  induction parts generalizing v with
  | nil => exact .inl ⟨v, .here v⟩
  | cons part rest ih =>
    rcases stepCases part v with ⟨w, steps⟩ | ⟨⟨items, rfl, unreadable⟩, _⟩ | ⟨nothing, _⟩
    · rcases ih w with ⟨u, leads⟩ | stumbles | nothing
      · exact .inl ⟨u, .step steps leads⟩
      · exact .inr (.inl (.step steps stumbles))
      · refine .inr (.inr ?_)
        rw [walk, steps.into]
        exact nothing
    · exact .inr (.inl (.here unreadable))
    · refine .inr (.inr ?_)
      rw [walk, nothing]
      rfl

/-- Neither leads the path to a value nor does it stumble. -/
structure Lost (v : Value) (parts : List (List Char)) : Prop where
  nowhere : ∀ w, ¬ Leads v parts w
  smooth : ¬ Stumbles v parts

theorem lostIff {parts : List (List Char)} : walk v parts = .ok none ↔ Lost v parts := by
  constructor
  · intro nothing
    constructor
    · intro w leads
      cases nothing.symm.trans leads.walks
    · intro stumbles
      cases nothing.symm.trans stumbles.walks
  · intro lost
    rcases walkCases v parts with ⟨w, leads⟩ | stumbles | nothing
    · exact absurd leads (lost.nowhere w)
    · exact absurd stumbles lost.smooth
    · exact nothing

theorem Leads.within {parts : List (List Char)} {u : Value} (leads : Leads v parts w) (inside : Value.Within u w) :
    Value.Within u v := by
  induction leads with
  | here => exact inside
  | step first _ ih => cases first with
    | field found => exact .field (Assoc.memOfGet found) (ih inside)
    | item _ found => exact .item (List.mem_of_getElem? found) (ih inside)

theorem Stumbles.somewhere {parts : List (List Char)} (stumbles : Stumbles v parts) :
    ∃ part ∈ parts, Unreadable part := by
  induction stumbles with
  | here unreadable => exact ⟨_, List.mem_cons_self, unreadable⟩
  | step _ _ ih =>
    obtain ⟨part, member, unreadable⟩ := ih
    exact ⟨part, List.mem_cons_of_mem _ member, unreadable⟩

end Path
end DecisionRules
