import DecisionRules.Condition.Validate
import DecisionRules.Expression.Eval
import DecisionRules.Proofs.Assoc
import DecisionRules.Proofs.Expression.Filling
import DecisionRules.Scope.Resolve

/-! Texts put into expressions. A reference outside quoted texts is always one literal, whatever text it is
bound to. Inside quoted texts it is not: JSON writes double quotes around a text and leaves apostrophes alone,
so a bound text can end the quoted one and go on with operators of its own. -/
namespace DecisionRules
open Expression

def Expression.placesOf (source : String) : List (Place × List Char) :=
  references .outside (Segment.cut source.toList)

namespace Scope

def BindsTexts (s : Scope) (source : String) : Prop :=
  ∀ name, .reference name ∈ Segment.cut source.toList →
    ∃ t, s.lookup (referenceName name) = .ok (some (.text t))

def textOf (s : Scope) (name : List Char) : String :=
  match s.lookup (referenceName name) with
  | .ok (some (.text t)) => t
  | _ => ""

/-- With its references replaced, the text either does not parse or has the outline of the tree. -/
def KeepsOutline (s : Scope) (source : String) (tree : Expr) : Prop :=
  ∃ text, s.substituteLiterals source = .ok text ∧
    ∀ e, parse text = .ok e → e.outline = tree.outline

/-- Does the reference stand outside quoted texts, or between apostrophes without naming a text that has
one? -/
def Harmless (s : Scope) (r : Place × List Char) : Prop :=
  r.1 = .outside ∨ (r.1 = .inside '\'' ∨ r.1 = .escaped '\'') ∧
    ∀ t, s.lookup (referenceName r.2) = .ok (some (.text t)) → '\'' ∉ t.toList

end Scope

theorem withoutReferencesBlank (source : String) :
    withoutReferences source = String.ofList (blank (Segment.cut source.toList)) := by
  unfold withoutReferences
  congr 1
  induction Segment.cut source.toList with
  | nil => rfl
  | cons s rest ih =>
    cases s with
    | plain c => simp only [List.flatMap_cons, ih]; rfl
    | reference name => simp only [List.flatMap_cons, ih]; rfl

theorem replaceAllFills {f : List Char → Except Breach (List Char)} (put : List Char → List Char)
    (segments : List Segment) (gives : ∀ name, .reference name ∈ segments → f name = .ok (put name)) :
    Segment.replaceAll f segments = .ok (fill put segments) := by
  induction segments with
  | nil => rfl
  | cons s rest ih =>
    have more := ih fun name member => gives name (List.mem_cons_of_mem s member)
    cases s with
    | plain c => simp only [Segment.replaceAll, more]; rfl
    | reference name => simp only [Segment.replaceAll, more, gives name List.mem_cons_self]; rfl

theorem Scope.substituteFills {s : Scope} {source : String} (text : List Char → String)
    (bound : ∀ name, .reference name ∈ Segment.cut source.toList →
      s.lookup (referenceName name) = .ok (some (.text (text name)))) :
    s.substituteLiterals source = .ok (String.ofList (filled text (Segment.cut source.toList))) := by
  unfold Scope.substituteLiterals
  rw [replaceAllFills fun name => Text.Json.quotedText (text name)]
  · rfl
  · intro name member
    unfold inserted
    rw [bound name member]
    rfl

theorem joinsQuietly {text : List Char → String} {weight : Place → Nat} {r : Place × List Char}
    (weightless : weight r.1 = 0)
    (harmless : r.1 = .outside ∨ (r.1 = .inside '\'' ∨ r.1 = .escaped '\'') ∧ '\'' ∉ (text r.2).toList) :
    Joins text weight r := by
  obtain ⟨place, name⟩ := r
  dsimp only at weightless harmless
  rcases harmless with rfl | ⟨rfl | rfl, absent⟩
  · exact weightless
  · intro last cs n closes
    rw [weightless, Nat.zero_add]
    have inner := closesEscapedText rfl (.inr absent)
      (closesPlain (c := '"') (by decide) (by decide) closes)
    simpa [Text.Json.quotedText] using closesPlain (c := '"') (by decide) (by decide) inner
  · intro last cs n closes
    rw [weightless, Nat.zero_add]
    have inner := closesEscapedText rfl (.inr absent)
      (closesPlain (c := '"') (by decide) (by decide) closes)
    simpa [Text.Json.quotedText] using closesEscape (c := '"') (by decide) inner

theorem Scope.harmlessKeeps {s : Scope} {source : String} {tree : Expr}
    (parsed : parse (withoutReferences source) = .ok tree) (bound : s.BindsTexts source)
    (harmless : ∀ r ∈ placesOf source, s.Harmless r) : s.KeepsOutline source tree := by
  have names : ∀ name, .reference name ∈ Segment.cut source.toList →
      s.lookup (referenceName name) = .ok (some (.text (s.textOf name))) := by
    intro name member
    obtain ⟨t, found⟩ := bound name member
    simp only [Scope.textOf, found]
  have joins : ∀ r ∈ placesOf source, Joins s.textOf (fun _ => 0) r := by
    intro r member
    refine joinsQuietly rfl ?_
    rcases harmless r member with outside | ⟨between, absent⟩
    · exact .inl outside
    · exact .inr ⟨between, absent _ (names r.2 (referencesNames member))⟩
  rw [withoutReferencesBlank] at parsed
  refine ⟨_, Scope.substituteFills _ names, fun e parsed' => ?_⟩
  have filled := parseFilled parsed joins
  split at filled
  · rw [parsed'] at filled
    contradiction
  · obtain ⟨grown, parsed'', grows⟩ := filled
    cases parsed'.symm.trans parsed''
    exact grows.outline (by simp [total])

def Scope.binding (source : String) (t : String) : Scope :=
  let bindings := (Segment.cut source.toList).filterMap fun
    | .reference name => some (referenceName name, Value.text t)
    | .plain _ => none
  ⟨⟨[], Assoc.ofPairs bindings, []⟩, [], []⟩

theorem Scope.bindingLookup {source : String} {name : List Char} (t : String)
    (member : .reference name ∈ Segment.cut source.toList) :
    (Scope.binding source t).lookup (referenceName name) = .ok (some (.text t)) := by
  have found : Assoc.get? (Scope.binding source t).caller (referenceName name) = some (.text t) := by
    refine Assoc.getMergeAlike (fun e there => ?_) (.inr ?_)
    · obtain ⟨s, _, same⟩ := List.mem_filterMap.mp there
      cases s with
      | plain c => contradiction
      | reference name =>
        cases same
        rfl
    · exact List.mem_map.mpr ⟨(referenceName name, .text t), List.mem_filterMap.mpr ⟨_, member, rfl⟩, rfl⟩
  simp only [Scope.lookup, Scope.binding?, found]

theorem Scope.heavyBreaks {source : String} {tree : Expr} {t : String} (weight : Place → Nat)
    (parsed : parse (withoutReferences source) = .ok tree)
    (joins : ∀ r ∈ placesOf source, Joins (fun _ => t) weight r)
    (heavy : ∃ r ∈ placesOf source, 0 < weight r.1)
    (room : (filled (fun _ => t) (Segment.cut source.toList)).length ≤ maxLength) :
    (Scope.binding source t).BindsTexts source ∧ ¬ (Scope.binding source t).KeepsOutline source tree := by
  refine ⟨fun name member => ⟨t, bindingLookup t member⟩, ?_⟩
  rintro ⟨text, substituted, keeps⟩
  cases substituted.symm.trans (Scope.substituteFills (fun _ => t) fun _ => bindingLookup t)
  rw [withoutReferencesBlank] at parsed
  have filled := parseFilled parsed joins
  rw [if_neg (by omega)] at filled
  obtain ⟨grown, parsed', grows⟩ := filled
  have more : 0 < total weight (placesOf source) := by
    obtain ⟨r, member, positive⟩ := heavy
    exact List.sum_pos_iff_exists_pos_nat.mpr ⟨_, List.mem_map_of_mem member, positive⟩
  have same := congrArg Expr.operators (keeps grown parsed')
  rw [Expr.operatorsOutline, Expr.operatorsOutline, grows.operators] at same
  unfold placesOf at more
  omega

theorem properFacts {place : Place} (proper : place.Proper) : place = .outside ∨
    (place = .inside '"' ∨ place = .escaped '"') ∨ place = .inside '\'' ∨ place = .escaped '\'' := by
  cases place with
  | outside => exact .inl rfl
  | inside q => rcases quoteFacts proper with rfl | rfl <;> simp
  | escaped q => rcases quoteFacts proper with rfl | rfl <;> simp

theorem placesProper {source : String} {r : Place × List Char} (member : r ∈ placesOf source) :
    r.1.Proper := by
  have outside : Place.outside.Proper := trivial
  exact referencesProper outside member

theorem Scope.starsBreak {source : String} {tree : Expr}
    (parsed : parse (withoutReferences source) = .ok tree)
    (unmasked : ∀ r ∈ placesOf source, r.1 ≠ .escaped '"')
    (within : ∃ r ∈ placesOf source, r.1 = .inside '"') :
    ∃ s : Scope, s.BindsTexts source ∧ ¬ s.KeepsOutline source tree := by
  let weight : Place → Nat := fun place => if place = .inside '"' then 1 else 0
  have quotedText : Text.Json.quotedText "**" = ['"', '*', '*', '"'] := by decide
  refine ⟨_, Scope.heavyBreaks (t := "**") weight parsed ?_ ?_ ?_⟩
  · intro r member
    rcases properFacts (placesProper member) with outside | (double | masked) | between
    · exact joinsQuietly (by simp [weight, outside]) (.inl outside)
    · obtain ⟨place, name⟩ := r
      cases double
      intro last cs n closes
      rw [quotedText, Nat.add_comm]
      exact closesAgain rfl closes
    · exact absurd masked (unmasked r member)
    · exact joinsQuietly (by rcases between with same | same <;> simp [weight, same])
        (.inr ⟨between, by decide⟩)
  · obtain ⟨r, member, double⟩ := within
    exact ⟨r, member, by simp [weight, double]⟩
  · have room := (parseFacts (withoutReferencesBlank source ▸ parsed)).1
    unfold filled
    rw [fillLength (n := 0) (fun _ => by rw [quotedText]; rfl) .outside]
    omega

theorem Scope.apostrophesBreak {source : String} {tree : Expr}
    (parsed : parse (withoutReferences source) = .ok tree)
    (unmasked : ∀ r ∈ placesOf source, r.1 ≠ .inside '"' ∧ r.1 ≠ .escaped '"')
    (within : ∃ r ∈ placesOf source, r.1 ≠ .outside)
    (room : (withoutReferences source).length + 2 * (placesOf source).length ≤ maxLength) :
    ∃ s : Scope, s.BindsTexts source ∧ ¬ s.KeepsOutline source tree := by
  let weight : Place → Nat := fun place => if place = .outside then 0 else 1
  have quotedText : Text.Json.quotedText "'**'" = ['"', '\'', '*', '*', '\'', '"'] := by decide
  refine ⟨_, Scope.heavyBreaks (t := "'**'") weight parsed ?_ ?_ ?_⟩
  · intro r member
    rcases properFacts (placesProper member) with outside | (double | masked) | between
    · exact joinsQuietly (by simp [weight, outside]) (.inl outside)
    · exact absurd double (unmasked r member).1
    · exact absurd masked (unmasked r member).2
    · obtain ⟨place, name⟩ := r
      dsimp only at between
      rcases between with rfl | rfl
      · intro last cs n closes
        rw [quotedText, Nat.add_comm]
        exact closesPlain (by decide) (by decide)
          (closesAgain rfl (closesPlain (c := '"') (by decide) (by decide) closes))
      · intro last cs n closes
        rw [quotedText, Nat.add_comm]
        exact closesEscape (by decide)
          (closesAgain rfl (closesPlain (c := '"') (by decide) (by decide) closes))
  · obtain ⟨r, member, quoted⟩ := within
    exact ⟨r, member, by simp [weight, quoted]⟩
  · rw [withoutReferencesBlank, String.length_ofList] at room
    unfold filled
    rw [fillLength (n := 2) (fun _ => by rw [quotedText]; rfl) .outside]
    exact room

/-- Texts bring no structure into an accepted expression whose references stand outside quoted texts, or
between apostrophes and are bound to texts without one. Where no backslash stands before a reference in
double quotes, and the limit on the length leaves room, that is all: as soon as one reference stands inside
a quoted text, some texts change the outline. -/
theorem substitutionKeepsOutline (ops : Operators) (source : String)
    (accepted : Condition.validate ops true (.expression source) = .ok ()) :
    ∃ tree, parse (withoutReferences source) = .ok tree ∧
      (∀ s : Scope, s.BindsTexts source → (∀ r ∈ placesOf source, s.Harmless r) →
        s.KeepsOutline source tree) ∧
      ((∀ r ∈ placesOf source, r.1 ≠ .escaped '"') →
        (∃ r ∈ placesOf source, r.1 = .inside '"') ∨
          (withoutReferences source).length + 2 * (placesOf source).length ≤ maxLength →
        ((∀ s : Scope, s.BindsTexts source → s.KeepsOutline source tree) ↔
          ∀ r ∈ placesOf source, r.1 = .outside)) := by
  simp only [Condition.validate, Condition.validateExpression, Bool.not_true, Bool.false_eq_true,
    if_false] at accepted
  cases parsed : parse (withoutReferences source) with
  | error fault =>
    rw [parsed] at accepted
    contradiction
  | ok tree =>
    refine ⟨tree, rfl, fun s bound harmless => Scope.harmlessKeeps parsed bound harmless, ?_⟩
    intro unmasked room
    constructor
    · intro keeps r member
      by_cases outside : r.1 = .outside
      · exact outside
      · exfalso
        have breaks : ∃ s : Scope, s.BindsTexts source ∧ ¬ s.KeepsOutline source tree := by
          by_cases within : ∃ r ∈ placesOf source, r.1 = .inside '"'
          · exact Scope.starsBreak parsed unmasked within
          · refine Scope.apostrophesBreak parsed (fun r there => ⟨fun same => ?_, unmasked r there⟩)
              ⟨r, member, outside⟩ (room.resolve_left within)
            exact within ⟨r, there, same⟩
        obtain ⟨s, bound, changed⟩ := breaks
        exact changed (keeps s bound)
    · intro outside s bound
      exact Scope.harmlessKeeps parsed bound fun r member => .inl (outside r member)

theorem substitutionKeepsOutlineOutside :
    Condition.validate (.ofBuiltins true) true (.expression "${x} == 'a'") = .ok () ∧
    ∃ tree, parse (withoutReferences "${x} == 'a'") = .ok tree ∧
      (Scope.binding "${x} == 'a'" "' || 1 == 1 || '").KeepsOutline "${x} == 'a'" tree := by
  have accepted : Condition.validate (.ofBuiltins true) true (.expression "${x} == 'a'") = .ok () := by
    decide +kernel
  obtain ⟨tree, parsed, keeps, _⟩ :=
    substitutionKeepsOutline (.ofBuiltins true) "${x} == 'a'" accepted
  refine ⟨accepted, tree, parsed, keeps _ (fun name member => ⟨_, Scope.bindingLookup _ member⟩) ?_⟩
  have outside : ∀ r ∈ placesOf "${x} == 'a'", r.1 = .outside := by decide +kernel
  exact fun r member => .inl (outside r member)

/-- Between apostrophes the same attack makes a comparison of two texts into a disjunction that holds. -/
theorem apostrophesLetStructureIn :
    let attacked := Scope.binding "'${x}' == 'a'" "' || 1 == 1 || '"
    Condition.validate (.ofBuiltins true) true (.expression "'${x}' == 'a'") = .ok () ∧
    attacked.BindsTexts "'${x}' == 'a'" ∧
    ∃ tree text, parse (withoutReferences "'${x}' == 'a'") = .ok tree ∧
      attacked.substituteLiterals "'${x}' == 'a'" = .ok text ∧ holds text = .ok true ∧
      ¬ attacked.KeepsOutline "'${x}' == 'a'" tree := by
  intro attacked
  have one : (parse (withoutReferences "'${x}' == 'a'")).map Expr.operators = .ok 1 := by decide +kernel
  have four : (parse "'\"' || 1 == 1 || '\"' == 'a'").map Expr.operators = .ok 4 := by decide +kernel
  have substituted : attacked.substituteLiterals "'${x}' == 'a'" =
      .ok "'\"' || 1 == 1 || '\"' == 'a'" := by decide +kernel
  obtain ⟨tree, parsed, operators⟩ := mapAccepts.mp one
  obtain ⟨grown, parsed', operators'⟩ := mapAccepts.mp four
  refine ⟨by decide +kernel, fun name member => ⟨_, Scope.bindingLookup _ member⟩, tree, _, parsed,
    substituted, by decide +kernel, ?_⟩
  rintro ⟨text, same, keeps⟩
  cases substituted.symm.trans same
  have outline := congrArg Expr.operators (keeps grown parsed')
  rw [Expr.operatorsOutline, Expr.operatorsOutline, operators, operators'] at outline
  contradiction

end DecisionRules
