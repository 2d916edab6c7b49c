import DecisionRules.Proofs.Cache.Canonical
import DecisionRules.Proofs.Number.Value
import DecisionRules.Value.Compare

/-! Equality of values as a relation. Numbers are alike by what they stand for, lists by their places and
objects by their keys. Equality counts booleans as numbers, and strict equality looks at the outermost kind
alone: below it, a boolean still equals the number that it counts as. -/
namespace DecisionRules.Value

/-- JSON without infinities and what is no number. -/
structure Finite (v : Value) : Prop where
  json : v.IsJson
  finite : ∀ x, Within (.float x) v → Number.isFinite x = true

/-- The rational that a value stands for; a boolean may count as one or zero, or may be no number. -/
def rational? (counting : Bool) : Value → Option ℚ
  | bool b => if counting then some (if b then 1 else 0) else none
  | int n => some n
  | float x => Number.value? x
  | _ => none

inductive Like (counting : Bool) : Value → Value → Prop where
  | null : Like counting .null .null
  | bool (b : Bool) : Like counting (.bool b) (.bool b)
  | number {v w : Value} {q : ℚ} (left : v.rational? counting = some q) (right : w.rational? counting = some q) :
      Like counting v w
  | text (s : String) : Like counting (.text s) (.text s)
  | list {items others : List Value} (length : items.length = others.length)
      (each : ∀ (i : Nat) (v w : Value), items[i]? = some v → others[i]? = some w → Like counting v w) :
      Like counting (.list items) (.list others)
  | object {fields others : Fields} (keys : ∀ k, k ∈ Assoc.keys fields ↔ k ∈ Assoc.keys others)
      (each : ∀ k v w, Assoc.get? fields k = some v → Assoc.get? others k = some w → Like counting v w) :
      Like counting (.object fields) (.object others)

/-- The same value: integers and floats by the number, objects whatever the order of their fields, and a
boolean only as itself, at every depth. -/
abbrev Same : Value → Value → Prop := Like false

/-- Somewhere in one value a boolean stands at the place where the other value has a number. -/
inductive Mixed : Value → Value → Prop where
  | left {b : Bool} {v : Value} (number : v.isNumber = true) : Mixed (.bool b) v
  | right {b : Bool} {v : Value} (number : v.isNumber = true) : Mixed v (.bool b)
  | item {items others : List Value} {i : Nat} {v w : Value} (here : items[i]? = some v)
      (there : others[i]? = some w) (mixed : Mixed v w) : Mixed (.list items) (.list others)
  | field {fields others : Fields} {k : String} {v w : Value} (here : Assoc.get? fields k = some v)
      (there : Assoc.get? others k = some w) (mixed : Mixed v w) : Mixed (.object fields) (.object others)

/-- Alike but for booleans below the top, which count as the numbers that they stand against. -/
structure Confused (v w : Value) : Prop where
  top : v.isBool = w.isBool
  like : Like true v w
  mixed : Mixed v w

/-! Parts -/

namespace Finite

theorem item {items : List Value} (plain : Finite (.list items)) {v : Value} (member : v ∈ items) : v.Finite := by
  refine ⟨?_, fun x within => plain.finite x (.item member within)⟩
  cases plain.json with
  | list each => exact each v member

theorem field {fields : Fields} (plain : Finite (.object fields)) {e : String × Value} (member : e ∈ fields) :
    e.2.Finite := by
  refine ⟨?_, fun x within => plain.finite x (.field member within)⟩
  cases plain.json with
  | object once each => exact each e member

theorem once {fields : Fields} (plain : Finite (.object fields)) : (Assoc.keys fields).Nodup := by
  cases plain.json with
  | object once each => exact once

theorem bool (b : Bool) : Finite (.bool b) := ⟨.bool b, fun _ within => by cases within⟩

theorem int (n : Int) : Finite (.int n) := ⟨.int n, fun _ within => by cases within⟩

theorem float {x : Float} (finite : Number.isFinite x = true) : Finite (.float x) :=
  ⟨.float x, fun _ within => by cases within; exact finite⟩

theorem list {items : List Value} (each : ∀ v ∈ items, v.Finite) : Finite (.list items) := by
  refine ⟨.list fun v member => (each v member).json, fun x within => ?_⟩
  cases within with
  | item member within => exact (each _ member).finite x within

theorem object {fields : Fields} (once : (Assoc.keys fields).Nodup) (each : ∀ e ∈ fields, e.2.Finite) :
    Finite (.object fields) := by
  refine ⟨.object once fun e member => (each e member).json, fun x within => ?_⟩
  cases within with
  | field member within => exact (each _ member).finite x within

/-- What is a numeral stands for a rational, and nothing else does. -/
theorem numeral {v : Value} (plain : v.Finite) :
    v.numeral? = none ∧ v.rational? true = none ∨
      ∃ a q, v.numeral? = some a ∧ a.value? = some q ∧ v.rational? true = some q := by
  cases v with
  | null | text | list | object => exact .inl ⟨rfl, rfl⟩
  | bool b =>
    refine .inr ⟨_, _, rfl, rfl, ?_⟩
    cases b <;> simp [rational?]
  | int n => exact .inr ⟨_, _, rfl, rfl, rfl⟩
  | float x =>
    obtain ⟨q, is⟩ := Number.valueFinite (plain.finite x (.self _))
    exact .inr ⟨_, q, rfl, is, is⟩
  | complex | pattern | callable => cases plain.json

end Finite

section
variable {v w : Value} {counting : Bool}

theorem equalNumbersRational (plain : v.Finite) (plain' : w.Finite) :
    equalNumbers v w = true ↔ ∃ q, v.rational? true = some q ∧ w.rational? true = some q := by
  unfold equalNumbers
  rcases plain.numeral with ⟨none, none'⟩ | ⟨a, q, is, value, rational⟩
  · simp [none, none']
  · rcases plain'.numeral with ⟨none, none'⟩ | ⟨b, r, is', value', rational'⟩
    · simp [none, none']
    · simp [is, is', rational, rational', Numeral.equalValue value value', eq_comm]

theorem equalFieldsGet {fields others : Fields} : equalFields fields others = true ↔
    ∀ e ∈ fields, ∃ w, Assoc.get? others e.1 = some w ∧ e.2.equal w = true := by
  induction fields with
  | nil => simp [equalFields]
  | cons e rest ih =>
    obtain ⟨k, v⟩ := e
    simp only [equalFields, Bool.and_eq_true, ih, List.forall_mem_cons]
    refine and_congr_left fun _ => ?_
    cases Assoc.get? others k <;> simp

theorem equalListsGet {items others : List Value} : equalLists items others = true ↔
    items.length = others.length ∧ ∀ (i : Nat) (v w : Value),
      items[i]? = some v → others[i]? = some w → v.equal w = true := by
  induction items generalizing others with
  | nil => cases others <;> simp [equalLists]
  | cons x rest ih =>
    cases others with
    | nil => simp [equalLists]
    | cons y more =>
      simp only [equalLists, Bool.and_eq_true, ih, List.length_cons, Nat.add_right_cancel_iff]
      constructor
      · rintro ⟨first, length, each⟩
        refine ⟨length, fun i v w here there => ?_⟩
        cases i with
        | zero =>
          cases here
          cases there
          exact first
        | succ i => exact each i v w here there
      · rintro ⟨length, each⟩
        exact ⟨each 0 x y rfl rfl, length, fun i => each (i + 1)⟩

/-! Equality -/

/-- Keys that are in both of two objects with as many fields are all their keys. -/
theorem keysSame {fields others : Fields} (once : (Assoc.keys fields).Nodup) (once' : (Assoc.keys others).Nodup) :
    (fields.length = others.length ∧ ∀ k ∈ Assoc.keys fields, k ∈ Assoc.keys others) ↔
      ∀ k, k ∈ Assoc.keys fields ↔ k ∈ Assoc.keys others := by
  have lengths (m : Fields) : (Assoc.keys m).length = m.length := List.length_map _
  constructor
  · rintro ⟨length, within⟩ k
    have few : (Assoc.keys others).length ≤ (Assoc.keys fields).length := by rw [lengths, lengths, length]
    exact ((once.subperm within).perm_of_length_le few).mem_iff
  · intro same
    have perm := (List.perm_ext_iff_of_nodup once once').mpr same
    exact ⟨by rw [← lengths, ← lengths, perm.length_eq], fun k => (same k).mp⟩

theorem equalNumeral {a : Numeral} (number : v.numeral? = some a) (w : Value) : v.equal w = equalNumbers v w := by
  cases v <;> first | contradiction | cases w <;> rfl

theorem likeNumber {q : ℚ} (number : v.rational? counting = some q) :
    Like counting v w ↔ ∃ q, v.rational? counting = some q ∧ w.rational? counting = some q := by
  constructor
  · intro like
    cases like with
    | bool b => exact ⟨q, number, number⟩
    | number left right => exact ⟨_, left, right⟩
    | null | text | list | object => cases number
  · rintro ⟨q, left, right⟩
    exact .number left right

theorem equalLikeNumeral {a : Numeral} (plain : v.Finite) (plain' : w.Finite) (number : v.numeral? = some a) :
    v.equal w = true ↔ Like true v w := by
  rcases plain.numeral with ⟨none, _⟩ | ⟨_, _, _, _, rational⟩
  · cases none.symm.trans number
  · rw [equalNumeral number, equalNumbersRational plain plain', likeNumber rational]

/-- Equality counts booleans as numbers, at every depth. -/
theorem equalLike (plain : v.Finite) (plain' : w.Finite) : v.equal w = true ↔ Like true v w := by
  obtain ⟨json, finite⟩ := plain
  induction json generalizing w with
  | null =>
    cases w with
    | null => exact iff_of_true rfl .null
    | _ => exact iff_of_false nofun fun like => by cases like; contradiction
  | bool b => exact equalLikeNumeral ⟨.bool b, finite⟩ plain' rfl
  | int n => exact equalLikeNumeral ⟨.int n, finite⟩ plain' rfl
  | float x => exact equalLikeNumeral ⟨.float x, finite⟩ plain' rfl
  | text s =>
    cases w with
    | text t =>
      simp only [equal, beq_iff_eq]
      constructor
      · rintro rfl
        exact .text s
      · intro like
        cases like with
        | number left => cases left
        | text => rfl
    | _ => exact iff_of_false nofun fun like => by cases like; contradiction
  | @list items each ih =>
    cases w with
    | list others =>
      have inner (i : Nat) (v w : Value) (here : items[i]? = some v) (there : others[i]? = some w) :
          v.equal w = true ↔ Like true v w :=
        have member := List.mem_of_getElem? here
        ih v member (plain'.item (List.mem_of_getElem? there)) fun x within => finite x (.item member within)
      rw [equal, equalListsGet]
      constructor
      · rintro ⟨length, same⟩
        exact .list length fun i v w here there => (inner i v w here there).mp (same i v w here there)
      · intro like
        cases like with
        | number left => cases left
        | list length like => exact ⟨length, fun i v w here there => (inner i v w here there).mpr (like i v w here there)⟩
    | _ => exact iff_of_false nofun fun like => by cases like; contradiction
  | @object fields once each ih =>
    cases w with
    | object others =>
      have inner {k : String} {v w : Value} (here : (k, v) ∈ fields) (there : Assoc.get? others k = some w) :
          v.equal w = true ↔ Like true v w :=
        ih (k, v) here (plain'.field (Assoc.memOfGet there)) fun x within => finite x (.field here within)
      have keys := keysSame once plain'.once
      simp only [equal, Bool.and_eq_true, beq_iff_eq, equalFieldsGet]
      constructor
      · rintro ⟨length, same⟩
        refine .object (keys.mp ⟨length, fun k member => ?_⟩) fun k v w here there => ?_
        · obtain ⟨e, found, rfl⟩ := List.mem_map.mp member
          obtain ⟨w, there, _⟩ := same e found
          exact Assoc.containsIff.mp (Option.isSome_iff_exists.mpr ⟨w, there⟩)
        · have member := Assoc.memOfGet here
          obtain ⟨u, found, equal⟩ := same (k, v) member
          cases found.symm.trans there
          exact (inner member there).mp equal
      · intro like
        cases like with
        | number left => cases left
        | object same like =>
          obtain ⟨length, within⟩ := keys.mpr same
          refine ⟨length, fun e member => ?_⟩
          have key : e.1 ∈ Assoc.keys fields := List.mem_map_of_mem member
          obtain ⟨w, there⟩ := Option.isSome_iff_exists.mp (Assoc.containsIff.mpr (within e.1 key))
          exact ⟨w, there, (inner member there).mpr (like e.1 e.2 w (Assoc.getOfMem once member) there)⟩
    | _ => exact iff_of_false nofun fun like => by cases like; contradiction

/-! Likeness is an equivalence. -/

namespace Like

theorem refl (plain : v.Finite) : Like counting v v := by
  obtain ⟨json, finite⟩ := plain
  induction json with
  | null => exact .null
  | bool b => exact .bool b
  | int n => exact .number rfl rfl
  | float x =>
    obtain ⟨q, is⟩ := Number.valueFinite (finite x (.self _))
    exact .number is is
  | text s => exact .text s
  | list each ih =>
    refine .list rfl fun i v w here there => ?_
    cases here.symm.trans there
    have member := List.mem_of_getElem? here
    exact ih v member fun x within => finite x (.item member within)
  | object once each ih =>
    refine .object (fun _ => Iff.rfl) fun k v w here there => ?_
    cases here.symm.trans there
    have member := Assoc.memOfGet here
    exact ih (k, v) member fun x within => finite x (.field member within)

theorem symm (like : Like counting v w) : Like counting w v := by
  induction like with
  | null => exact .null
  | bool b => exact .bool b
  | number left right => exact .number right left
  | text s => exact .text s
  | list length each ih => exact .list length.symm fun i v w here there => ih i w v there here
  | object keys each ih => exact .object (fun k => (keys k).symm) fun k v w here there => ih k w v there here

theorem trans {u : Value} (first : Like counting u v) (second : Like counting v w) : Like counting u w := by
  induction first generalizing w with
  | null | bool | text => exact second
  | number left right =>
    obtain ⟨q, middle, last⟩ := (likeNumber right).mp second
    cases right.symm.trans middle
    exact .number left last
  | @list items others length each ih =>
    cases second with
    | number left => cases left
    | @list _ further length' each' =>
      refine .list (length.trans length') fun i v w here there => ?_
      have within : i < others.length := by
        rw [← length]
        exact (List.getElem?_eq_some_iff.mp here).1
      exact ih i v others[i] here (List.getElem?_eq_getElem within)
        (each' i others[i] w (List.getElem?_eq_getElem within) there)
  | @object fields others keys each ih =>
    cases second with
    | number left => cases left
    | @object _ further keys' each' =>
      refine .object (fun k => (keys k).trans (keys' k)) fun k v w here there => ?_
      have key := Assoc.containsIff.mp (Option.isSome_iff_exists.mpr ⟨v, here⟩)
      obtain ⟨u, found⟩ := Option.isSome_iff_exists.mp (Assoc.containsIff.mpr ((keys k).mp key))
      exact ih k v u here found (each' k u w found there)

end Like

/-! Booleans against numbers -/

theorem rationalCounts {q : ℚ} (is : v.rational? false = some q) : v.rational? true = some q ∧ v.isNumber = true := by
  cases v <;> first | exact ⟨is, rfl⟩ | cases is

theorem Like.counts (same : Same v w) : Like true v w := by
  induction same with
  | null => exact .null
  | bool b => exact .bool b
  | number left right => exact .number (rationalCounts left).1 (rationalCounts right).1
  | text s => exact .text s
  | list length each ih => exact .list length ih
  | object keys each ih => exact .object keys ih

theorem Like.unmixed (same : Same v w) : ¬ Mixed v w := by
  intro mixed
  induction same with
  | null | text => cases mixed
  | bool b => cases mixed <;> contradiction
  | number left right => cases mixed with
    | left | item | field => cases left
    | right => cases right
  | list length each ih => cases mixed with
    | item here there mixed => exact ih _ _ _ here there mixed
  | object keys each ih => cases mixed with
    | field here there mixed => exact ih _ _ _ here there mixed

theorem Like.same (like : Like true v w) (unmixed : ¬ Mixed v w) : Same v w := by
  induction like with
  | null => exact .null
  | bool b => exact .bool b
  | @number v w q left right =>
    cases v with
    | bool b => cases w with
      | bool c =>
        have equal : b = c := by
          have both := left.trans right.symm
          cases b <;> cases c <;> simp [rational?] at both ⊢
        exact equal ▸ .bool b
      | int | float => exact absurd (.left rfl) unmixed
      | _ => cases right
    | int | float => cases w with
      | bool c => exact absurd (.right rfl) unmixed
      | int | float => exact .number left right
      | _ => cases right
    | _ => cases left
  | text s => exact .text s
  | list length each ih =>
    exact .list length fun i v w here there => ih i v w here there fun mixed => unmixed (.item here there mixed)
  | object keys each ih =>
    exact .object keys fun k v w here there => ih k v w here there fun mixed => unmixed (.field here there mixed)

theorem Like.kind (same : Same v w) : v.isBool = w.isBool := by
  cases same with
  | null | bool | text | list | object => rfl
  | number left right =>
    have plain {v : Value} {q : ℚ} (is : v.rational? false = some q) : v.isBool = false := by
      cases v <;> first | rfl | cases is
    rw [plain left, plain right]

theorem strictEqualsLike (plain : v.Finite) (plain' : w.Finite) :
    v.strictEquals w = true ↔ v.isBool = w.isBool ∧ Like true v w := by
  rw [← equalLike plain plain', strictEquals]
  by_cases kind : v.isBool = w.isBool <;> simp [kind]

/-- Strict equality holds of the same values, and of no others but those that it confuses. -/
theorem strictEqualsIff (plain : v.Finite) (plain' : w.Finite) :
    v.strictEquals w = true ↔ Same v w ∨ Confused v w := by
  rw [strictEqualsLike plain plain']
  constructor
  · rintro ⟨kind, like⟩
    by_cases mixed : Mixed v w
    · exact .inr ⟨kind, like, mixed⟩
    · exact .inl (like.same mixed)
  · rintro (same | confused)
    · exact ⟨same.kind, same.counts⟩
    · exact ⟨confused.top, confused.like⟩

theorem sameEquivalence : Equivalence fun v w : {v : Value // v.Finite} => Same v.1 w.1 :=
  ⟨fun v => .refl v.2, .symm, .trans⟩

theorem strictEquivalence : Equivalence fun v w : {v : Value // v.Finite} => v.1.strictEquals w.1 = true := by
  have whole (v w : {v : Value // v.Finite}) := strictEqualsLike v.2 w.2
  simp only [whole]
  constructor
  · exact fun v => ⟨rfl, .refl v.2⟩
  · rintro v w ⟨kind, like⟩
    exact ⟨kind.symm, like.symm⟩
  · rintro u v w ⟨kind, like⟩ ⟨kind', like'⟩
    exact ⟨kind.trans kind', like.trans like'⟩

end
end DecisionRules.Value
