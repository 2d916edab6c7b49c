import DecisionRules.Cache.Fingerprint
import DecisionRules.Proofs.Assoc
import DecisionRules.Proofs.Number.Layout
import DecisionRules.Proofs.Outcome
import DecisionRules.Proofs.Sort
import DecisionRules.Proofs.Text.Json

/-! Canonical text tells values apart, but for the order of the fields of an object. A value has one unless
it has an integer that is too long to be written. -/
namespace DecisionRules

namespace Value

/-- What JSON can hold. -/
inductive IsJson : Value → Prop where
  | null : IsJson .null
  | bool (b : Bool) : IsJson (.bool b)
  | int (n : Int) : IsJson (.int n)
  | float (x : Float) : IsJson (.float x)
  | text (s : String) : IsJson (.text s)
  | list {items : List Value} (each : ∀ v ∈ items, IsJson v) : IsJson (.list items)
  | object {fields : Fields} (once : (Assoc.keys fields).Nodup) (each : ∀ e ∈ fields, IsJson e.2) :
      IsJson (.object fields)

/-- Are the values the same up to the order of fields, at every depth? Zero keeps its sign. -/
inductive Agrees : Value → Value → Prop where
  | null : Agrees .null .null
  | bool (b : Bool) : Agrees (.bool b) (.bool b)
  | int (n : Int) : Agrees (.int n) (.int n)
  | float (x : Float) : Agrees (.float x) (.float x)
  | text (s : String) : Agrees (.text s) (.text s)
  | list {items others : List Value} (each : List.Forall₂ Agrees items others) :
      Agrees (.list items) (.list others)
  | object {fields others : Fields} (keys : ∀ k, k ∈ Assoc.keys fields ↔ k ∈ Assoc.keys others)
      (each : ∀ k v w, Assoc.get? fields k = some v → Assoc.get? others k = some w → Agrees v w) :
      Agrees (.object fields) (.object others)

/-- Is the first value somewhere within the second? -/
inductive Within : Value → Value → Prop where
  | self (v : Value) : Within v v
  | item {u v : Value} {items : List Value} (member : v ∈ items) (within : Within u v) :
      Within u (.list items)
  | field {u : Value} {e : String × Value} {fields : Fields} (member : e ∈ fields) (within : Within u e.2) :
      Within u (.object fields)

end Value

open Text.Json Value

/-! What is written -/

def Written (v : Value) : Prop := ∃ cs, chars canonical v = .ok cs

/-- The canonical text of a value that has one. -/
def spelled (v : Value) : List Char := (chars canonical v).toOption.getD []

theorem spelledOk {v : Value} {cs : List Char} (ok : chars canonical v = .ok cs) : spelled v = cs := by
  rw [spelled, ok]
  rfl

theorem writtenOk {v : Value} {cs : List Char} :
    chars canonical v = .ok cs ↔ Written v ∧ cs = spelled v := by
  constructor
  · exact fun ok => ⟨⟨cs, ok⟩, (spelledOk ok).symm⟩
  · rintro ⟨⟨ds, ok⟩, rfl⟩
    rw [spelledOk ok, ok]

theorem itemsOk {items : List Value} {css : List (List Char)} :
    itemChars canonical items = .ok css ↔ (∀ v ∈ items, Written v) ∧ css = items.map spelled := by
  induction items generalizing css with
  | nil => simp [itemChars, eq_comm]
  | cons v rest ih =>
    simp only [itemChars, bindAccepts, pureAccepts, writtenOk, ih, List.mem_cons, forall_eq_or_imp,
      List.map_cons]
    constructor
    · rintro ⟨_, ⟨first, rfl⟩, _, ⟨others, rfl⟩, rfl⟩
      exact ⟨⟨first, others⟩, rfl⟩
    · rintro ⟨⟨first, others⟩, rfl⟩
      exact ⟨_, ⟨first, rfl⟩, _, ⟨others, rfl⟩, rfl⟩

def spelledField (e : String × Value) : String × List Char := (e.1, spelled e.2)

theorem fieldsOk {fields : Fields} {parts : List (String × List Char)} :
    fieldChars canonical fields = .ok parts ↔
      (∀ e ∈ fields, Written e.2) ∧ parts = fields.map spelledField := by
  induction fields generalizing parts with
  | nil => simp [fieldChars, eq_comm]
  | cons e rest ih =>
    obtain ⟨k, v⟩ := e
    simp only [fieldChars, bindAccepts, pureAccepts, writtenOk, ih, List.mem_cons, forall_eq_or_imp,
      List.map_cons]
    constructor
    · rintro ⟨_, ⟨first, rfl⟩, _, ⟨others, rfl⟩, rfl⟩
      exact ⟨⟨first, others⟩, rfl⟩
    · rintro ⟨⟨first, others⟩, rfl⟩
      exact ⟨_, ⟨first, rfl⟩, _, ⟨others, rfl⟩, rfl⟩

theorem listOk {items : List Value} {cs : List Char} :
    chars canonical (.list items) = .ok cs ↔ (∀ v ∈ items, Written v) ∧
      cs = '[' :: (separate [','] (items.map spelled) ++ [']']) := by
  simp only [chars, bindAccepts, pureAccepts, itemsOk]
  constructor
  · rintro ⟨_, ⟨each, rfl⟩, rfl⟩
    exact ⟨each, rfl⟩
  · rintro ⟨each, rfl⟩
    exact ⟨_, ⟨each, rfl⟩, rfl⟩

def sortedFields (fields : Fields) : List (String × List Char) :=
  inOrder canonical (fields.map spelledField)

theorem objectOk {fields : Fields} {cs : List Char} :
    chars canonical (.object fields) = .ok cs ↔ (∀ e ∈ fields, Written e.2) ∧
      cs = '\x7b' :: (separate [','] ((sortedFields fields).map (field canonical)) ++ ['\x7d']) := by
  simp only [chars, bindAccepts, pureAccepts, fieldsOk]
  constructor
  · rintro ⟨_, ⟨each, rfl⟩, rfl⟩
    exact ⟨each, rfl⟩
  · rintro ⟨each, rfl⟩
    exact ⟨_, ⟨each, rfl⟩, rfl⟩

theorem integerFree {v : Value} (written : Written v) (free : ∀ n, ¬ Within (.int n) v) :
    Written v ↔ ∀ n, Within (.int n) v → Number.writable n = true :=
  ⟨fun _ n within => (free n within).elim, fun _ => written⟩

theorem writtenIff {v : Value} (json : v.IsJson) :
    Written v ↔ ∀ n, Within (.int n) v → Number.writable n = true := by
  induction json with
  | null => exact integerFree ⟨_, rfl⟩ fun _ within => by cases within
  | bool b =>
    cases b
    · exact integerFree ⟨_, rfl⟩ fun _ within => by cases within
    · exact integerFree ⟨_, rfl⟩ fun _ within => by cases within
  | int n =>
    constructor
    · rintro ⟨cs, ok⟩ _ (_ | _)
      rw [chars] at ok
      split at ok
      · assumption
      · contradiction
    · intro writable
      exact ⟨_, if_pos (writable n (.self _))⟩
  | float x => exact integerFree ⟨_, rfl⟩ fun _ within => by cases within
  | text s => exact integerFree ⟨_, rfl⟩ fun _ within => by cases within
  | list each ih =>
    constructor
    · rintro ⟨cs, ok⟩ n (_ | ⟨member, within⟩)
      exact (ih _ member).mp ((listOk.mp ok).1 _ member) n within
    · intro writable
      exact ⟨_, listOk.mpr ⟨fun v member => (ih v member).mpr fun n within =>
        writable n (.item member within), rfl⟩⟩
  | object once each ih =>
    constructor
    · rintro ⟨cs, ok⟩ n (_ | _ | ⟨member, within⟩)
      exact (ih _ member).mp ((objectOk.mp ok).1 _ member) n within
    · intro writable
      exact ⟨_, objectOk.mpr ⟨fun e member => (ih e member).mpr fun n within =>
        writable n (.field member within), rfl⟩⟩

/-! What reads back -/

/-- The values that are written as a word. -/
inductive Word : Value → List Char → Prop where
  | null : Word .null ['n', 'u', 'l', 'l']
  | yes : Word (.bool true) ['t', 'r', 'u', 'e']
  | no : Word (.bool false) ['f', 'a', 'l', 's', 'e']
  | int (n : Int) : Word (.int n) (Number.intChars n)
  | float (x : Float) : Word (.float x) (Number.floatChars x)

section
variable {v w : Value} {cs ds x y : List Char}

theorem Word.chars (word : Word v cs) {c : Char} (member : c ∈ cs) : wordChar c = true := by
  unfold wordChar
  cases word with
  | null => simp at member; rcases member with rfl | rfl | rfl <;> decide
  | yes => simp at member; rcases member with rfl | rfl | rfl | rfl <;> decide
  | no => simp at member; rcases member with rfl | rfl | rfl | rfl | rfl <;> decide
  | int n =>
    rcases Number.intCharsPlain member with digit | rfl
    · simp [Char.isAlphanum, digit]
    · decide
  | float x => rcases Number.floatMember member with letter | rfl | rfl | rfl <;> simp [*]

theorem Word.some (word : Word v cs) : cs ≠ [] := by
  cases word with
  | int n => exact Number.intCharsSome n
  | float x =>
    obtain ⟨c, rest, shape, _⟩ := Number.floatHead x
    simp [shape]
  | _ => simp

theorem intHead {n : Int} {c : Char} (same : Number.intChars n = c :: x) : c.isDigit = true ∨ c = '-' :=
  Number.intCharsPlain (same ▸ List.mem_cons_self)

theorem floatFirst {z : Float} {c : Char} (same : Number.floatChars z = c :: x) :
    c.isDigit = true ∨ c = 'N' ∨ c = 'I' ∨ c = '-' := by
  obtain ⟨_, _, shape, head⟩ := Number.floatHead z
  obtain ⟨rfl, _⟩ := List.cons.inj (shape.symm.trans same)
  exact head

theorem intFloat {n : Int} {z : Float} (same : Number.intChars n = Number.floatChars z) : False := by
  obtain ⟨c, member, other, sign⟩ := Number.floatMarked z
  rcases Number.intCharsPlain (same ▸ member) with digit | minus
  · simp [digit] at other
  · exact sign minus

theorem Word.unique (word : Word v cs) (word' : Word w ds) (same : cs = ds) : v = w := by
  cases word with
  | int n => cases word' with
    | int m => exact congrArg _ (Number.intCharsSame same)
    | float z => exact (intFloat same).elim
    | null | yes | no => exact absurd (intHead same) (by decide)
  | float z => cases word' with
    | int n => exact (intFloat same.symm).elim
    | float z' => exact congrArg _ (Number.floatSame same)
    | null | yes | no => exact absurd (floatFirst same) (by decide)
  | null | yes | no => cases word' with
    | int n => exact absurd (intHead same.symm) (by decide)
    | float z => exact absurd (floatFirst same.symm) (by decide)
    | null | yes | no => simp_all

theorem Word.agrees (word : Word v cs) : v.Agrees v := by
  cases word with
  | null => exact .null
  | yes => exact .bool true
  | no => exact .bool false
  | int n => exact .int n
  | float z => exact .float z

def opening : Value → Option Char
  | .text _ => some '"'
  | .list _ => some '['
  | .object _ => some '\x7b'
  | _ => none

theorem writtenCases (json : v.IsJson) (ok : chars canonical v = .ok cs) :
    opening v = none ∧ Word v cs ∨
      ∃ c rest, opening v = some c ∧ cs = c :: rest ∧ wordChar c = false := by
  cases json with
  | null => cases ok; exact .inl ⟨rfl, .null⟩
  | bool b =>
    cases b <;> cases ok
    · exact .inl ⟨rfl, .no⟩
    · exact .inl ⟨rfl, .yes⟩
  | int n =>
    rw [chars] at ok
    split at ok
    · cases ok
      exact .inl ⟨rfl, .int n⟩
    · contradiction
  | float z => cases ok; exact .inl ⟨rfl, .float z⟩
  | text s =>
    cases ok
    exact .inr ⟨'"', _, rfl, rfl, by decide⟩
  | list each => exact .inr ⟨'[', _, rfl, (listOk.mp ok).2, by decide⟩
  | object once each => exact .inr ⟨'\x7b', _, rfl, (objectOk.mp ok).2, by decide⟩

theorem Word.apart (word : Word v cs) {c : Char} {rest : List Char} (shape : ds = c :: rest)
    (other : wordChar c = false) : cs ++ x ≠ ds ++ y := by
  intro same
  obtain ⟨d, more, rfl⟩ := List.exists_cons_of_ne_nil word.some
  subst shape
  obtain ⟨rfl, _⟩ := List.cons.inj same
  simp [word.chars List.mem_cons_self] at other

theorem openingSame (json : v.IsJson) (json' : w.IsJson) (ok : chars canonical v = .ok cs)
    (ok' : chars canonical w = .ok ds) (same : cs ++ x = ds ++ y) : opening v = opening w := by
  rcases writtenCases json ok with ⟨none, word⟩ | ⟨c, rest, is, shape, other⟩ <;>
    rcases writtenCases json' ok' with ⟨none', word'⟩ | ⟨c', rest', is', shape', other'⟩
  · rw [none, none']
  · exact (word.apart shape' other' same).elim
  · exact (word'.apart shape other same.symm).elim
  · subst shape shape'
    rw [is, is', (List.cons.inj same).1]

theorem wordAgrees (json : v.IsJson) (json' : w.IsJson) (plain : opening v = none)
    (ok : chars canonical v = .ok cs) (ok' : chars canonical w = .ok ds) (ends : Ends x) (ends' : Ends y)
    (same : cs ++ x = ds ++ y) : v.Agrees w ∧ x = y := by
  have kind := openingSame json json' ok ok' same
  rcases writtenCases json ok with ⟨_, word⟩ | ⟨c, _, is, _⟩
  · rcases writtenCases json' ok' with ⟨_, word'⟩ | ⟨c, _, is, _⟩
    · obtain ⟨equal, left⟩ := wordReads (fun _ => word.chars) (fun _ => word'.chars) ends ends' same
      exact ⟨word.unique word' equal ▸ word.agrees, left⟩
    · simp [plain, is] at kind
  · simp [plain] at is

theorem closingApart (json : v.IsJson) (ok : chars canonical v = .ok cs) {close : Char}
    (closing : close = ']' ∨ close = '\x7d') : cs ++ x ≠ close :: y := by
  intro same
  rcases writtenCases json ok with ⟨_, word⟩ | ⟨c, rest, is, shape, _⟩
  · have other : wordChar close = false := by rcases closing with rfl | rfl <;> decide
    exact word.apart (rfl : [close] = close :: []) other same
  · subst shape
    obtain ⟨rfl, _⟩ := List.cons.inj same
    cases v <;> simp [opening] at is <;> rcases closing with rfl | rfl <;> simp at is

theorem bracketReads {first close : Char} {as bs : List (List Char)}
    (same : (first :: (separate [','] as ++ [close])) ++ x = (first :: (separate [','] bs ++ [close])) ++ y) :
    separate [','] as ++ close :: x = separate [','] bs ++ close :: y := by
  simpa using same

theorem sortedPerm (fields : Fields) : (sortedFields fields).Perm (fields.map spelledField) :=
  sortByPerm _ _

theorem sortedMember {fields : Fields} {p : String × List Char} (member : p ∈ sortedFields fields) :
    ∃ e ∈ fields, spelledField e = p :=
  List.mem_map.mp ((sortedPerm fields).mem_iff.mp member)

theorem fieldReads {p q : String × List Char} (same : field canonical p ++ x = field canonical q ++ y) :
    p.1 = q.1 ∧ p.2 ++ x = q.2 ++ y := by
  simp only [field, canonical, List.append_assoc] at same
  obtain ⟨key, rest⟩ := quotedReads same
  exact ⟨key, (List.cons.inj rest).2⟩

/-- Objects with the same fields in order have the same fields. -/
theorem fieldsAgree {fields others : Fields} (once : (Assoc.keys others).Nodup)
    (same : sortedFields fields = sortedFields others)
    (each : ∀ e ∈ fields, ∀ e' ∈ others, spelled e.2 = spelled e'.2 → e.2.Agrees e'.2) :
    (Value.object fields).Agrees (.object others) := by
  have perm : (fields.map spelledField).Perm (others.map spelledField) :=
    (sortedPerm fields).symm.trans (same ▸ sortedPerm others)
  have keys (m : Fields) : (m.map spelledField).map Prod.fst = Assoc.keys m := by
    rw [List.map_map]
    rfl
  refine .object (fun k => ?_) fun k v w found found' => ?_
  · rw [← keys fields, ← keys others]
    exact (perm.map Prod.fst).mem_iff
  · have member := Assoc.memOfGet found
    have there := perm.mem_iff.mp (List.mem_map_of_mem (f := spelledField) member)
    obtain ⟨⟨k', w'⟩, member', shape⟩ := List.mem_map.mp there
    obtain ⟨rfl, equal⟩ := Prod.mk.inj shape
    cases (Assoc.getOfMem once member').symm.trans found'
    exact each _ member _ member' equal.symm

/-- Canonical text reads back, whatever follows it. -/
theorem writtenReads (json : v.IsJson) (json' : w.IsJson) (ok : chars canonical v = .ok cs)
    (ok' : chars canonical w = .ok ds) (ends : Ends x) (ends' : Ends y) (same : cs ++ x = ds ++ y) :
    v.Agrees w ∧ x = y := by
  -- what follows is part of the statement, as the parts of a list are followed by one another
  induction json generalizing w cs ds x y with
  | null => exact wordAgrees .null json' rfl ok ok' ends ends' same
  | bool b => exact wordAgrees (.bool b) json' rfl ok ok' ends ends' same
  | int n => exact wordAgrees (.int n) json' rfl ok ok' ends ends' same
  | float z => exact wordAgrees (.float z) json' rfl ok ok' ends ends' same
  | text s =>
    have kind := openingSame (.text s) json' ok ok' same
    cases json' with
    | text t =>
      cases ok
      cases ok'
      obtain ⟨rfl, left⟩ := quotedReads same
      exact ⟨.text s, left⟩
    | _ => simp [opening] at kind
  | list each ih =>
    have kind := openingSame (.list each) json' ok ok' same
    cases json' with
    | list each' =>
      obtain ⟨written, rfl⟩ := listOk.mp ok
      obtain ⟨written', rfl⟩ := listOk.mp ok'
      obtain ⟨items, left⟩ := separateReads (by decide) (by decide)
        (fun a member _ _ => closingApart (each a member) (writtenOk.mpr ⟨written a member, rfl⟩) (.inl rfl))
        (fun b member _ _ => closingApart (each' b member) (writtenOk.mpr ⟨written' b member, rfl⟩) (.inl rfl))
        (fun a member b member' _ _ => ih a member (each' b member')
          (writtenOk.mpr ⟨written a member, rfl⟩) (writtenOk.mpr ⟨written' b member', rfl⟩))
        (bracketReads same)
      exact ⟨.list items, left⟩
    | _ => simp [opening] at kind
  | object once each ih =>
    have kind := openingSame (.object once each) json' ok ok' same
    cases json' with
    | object once' each' =>
      obtain ⟨written, rfl⟩ := objectOk.mp ok
      obtain ⟨written', rfl⟩ := objectOk.mp ok'
      have opens (p : String × List Char) (x y : List Char) : field canonical p ++ x ≠ '\x7d' :: y := by
        simp [field, quotedText]
      obtain ⟨sorted, left⟩ := separateReads (by decide) (by decide) (fun p _ => opens p) (fun p _ => opens p)
        (fun p member q member' x y ends ends' same => by
          obtain ⟨e, there, rfl⟩ := sortedMember member
          obtain ⟨e', there', rfl⟩ := sortedMember member'
          obtain ⟨key, rest⟩ := fieldReads same
          obtain ⟨_, rfl⟩ := ih e there (each' e' there') (writtenOk.mpr ⟨written e there, rfl⟩)
            (writtenOk.mpr ⟨written' e' there', rfl⟩) ends ends' rest
          exact ⟨Prod.ext key (List.append_cancel_right rest), rfl⟩)
        (bracketReads same)
      refine ⟨fieldsAgree once' (List.forall₂_eq_eq_eq ▸ sorted) fun e there e' there' equal => ?_, left⟩
      exact (ih e there (x := []) (y := []) (each' e' there') (writtenOk.mpr ⟨written e there, rfl⟩)
        (writtenOk.mpr ⟨written' e' there', rfl⟩) (by simp [Ends]) (by simp [Ends]) (by rw [equal])).1
    | _ => simp [opening] at kind

/-! What agrees -/

theorem writtenSpelled (written : Written v) : chars canonical v = .ok (spelled v) :=
  writtenOk.mpr ⟨written, rfl⟩

theorem itemsSpelled {items others : List Value} (each : List.Forall₂ Agrees items others)
    (alike : ∀ v ∈ items, ∀ w ∈ others, v.Agrees w → Written w ∧ spelled v = spelled w) :
    (∀ w ∈ others, Written w) ∧ items.map spelled = others.map spelled := by
  induction each with
  | nil => exact ⟨by simp, rfl⟩
  | cons agrees rest ih =>
    simp only [List.mem_cons, forall_eq_or_imp] at alike
    obtain ⟨written, same⟩ := alike.1.1 agrees
    obtain ⟨others, more⟩ := ih fun v member => (alike.2 v member).2
    exact ⟨List.forall_mem_cons.mpr ⟨written, others⟩, by simp only [List.map_cons, same, more]⟩

theorem partner {fields others : Fields} {k : String} {v : Value} (member : (k, v) ∈ fields)
    (keys : ∀ k, k ∈ Assoc.keys fields ↔ k ∈ Assoc.keys others) : ∃ w, Assoc.get? others k = some w :=
  Option.isSome_iff_exists.mp
    (Assoc.containsIff.mpr ((keys k).mp (List.mem_map.mpr ⟨_, member, rfl⟩)))

theorem spelledNodup {fields : Fields} (once : (Assoc.keys fields).Nodup) :
    ((fields.map spelledField).map Prod.fst).Nodup := by
  rw [List.map_map]
  exact once

/-- The order of fields is settled by their names, of which there is one each. -/
theorem sortedSame {fields others : Fields} (once : (Assoc.keys fields).Nodup)
    (perm : (fields.map spelledField).Perm (others.map spelledField)) :
    sortedFields fields = sortedFields others := by
  have total (a b : String × List Char) : decide (a.1 ≤ b.1) = true ∨ decide (b.1 ≤ a.1) = true := by
    simpa using String.le_total a.1 b.1
  have trans (a b c : String × List Char) : decide (a.1 ≤ b.1) = true → decide (b.1 ≤ c.1) = true →
      decide (a.1 ≤ c.1) = true := by
    simpa using String.le_trans
  have merged := ((sortedPerm fields).trans perm).trans (sortedPerm others).symm
  refine merged.eq_of_pairwise ?_ (sortBySorted total trans _) (sortBySorted total trans _)
  intro p q member member' less more
  have name : p.1 = q.1 := String.le_antisymm (of_decide_eq_true less) (of_decide_eq_true more)
  have there := (sortedPerm fields).mem_iff.mp member
  have there' := (sortedPerm fields).mem_iff.mp (merged.mem_iff.mpr member')
  exact List.inj_on_of_nodup_map (spelledNodup once) there there' name

theorem fieldsSpelled {fields others : Fields} (once : (Assoc.keys fields).Nodup)
    (once' : (Assoc.keys others).Nodup) (keys : ∀ k, k ∈ Assoc.keys fields ↔ k ∈ Assoc.keys others)
    (alike : ∀ k v w, (k, v) ∈ fields → (k, w) ∈ others → Written w ∧ spelled v = spelled w) :
    (∀ e ∈ others, Written e.2) ∧ sortedFields fields = sortedFields others := by
  refine ⟨fun ⟨k, w⟩ member => ?_, sortedSame once ?_⟩
  · obtain ⟨v, found⟩ := partner member fun k => (keys k).symm
    exact (alike k v w (Assoc.memOfGet found) member).1
  · refine (List.perm_ext_iff_of_nodup (spelledNodup once).of_map (spelledNodup once').of_map).mpr fun p => ?_
    constructor
    · intro there
      obtain ⟨⟨k, v⟩, member, rfl⟩ := List.mem_map.mp there
      obtain ⟨w, found⟩ := partner member keys
      have member' := Assoc.memOfGet found
      exact List.mem_map.mpr ⟨_, member', Prod.ext rfl (alike k v w member member').2.symm⟩
    · intro there
      obtain ⟨⟨k, w⟩, member', rfl⟩ := List.mem_map.mp there
      obtain ⟨v, found⟩ := partner member' fun k => (keys k).symm
      have member := Assoc.memOfGet found
      exact List.mem_map.mpr ⟨_, member, Prod.ext rfl (alike k v w member member').2⟩

theorem agreesSpelled (json : v.IsJson) (json' : w.IsJson) (agrees : v.Agrees w) (written : Written v) :
    Written w ∧ spelled v = spelled w := by
  induction json generalizing w with
  | null | bool | int | float | text => cases agrees; exact ⟨written, rfl⟩
  | list each ih =>
    cases json' with
    | list each' =>
      cases agrees with
      | list items =>
        obtain ⟨written, shape⟩ := listOk.mp (writtenSpelled written)
        obtain ⟨written', same⟩ := itemsSpelled items fun v member w member' agrees =>
          ih v member (each' w member') agrees (written v member)
        have ok := listOk.mpr ⟨written', rfl⟩
        exact ⟨⟨_, ok⟩, by rw [shape, spelledOk ok, same]⟩
    | _ => cases agrees
  | object once each ih =>
    cases json' with
    | object once' each' =>
      cases agrees with
      | object keys alike =>
        obtain ⟨written, shape⟩ := objectOk.mp (writtenSpelled written)
        obtain ⟨written', same⟩ := fieldsSpelled once once' keys fun k v w member member' =>
          ih _ member (each' _ member') (alike k v w (Assoc.getOfMem once member)
            (Assoc.getOfMem once' member')) (written _ member)
        have ok := objectOk.mpr ⟨written', rfl⟩
        exact ⟨⟨_, ok⟩, by rw [shape, spelledOk ok, same]⟩
    | _ => cases agrees

/-! Where a reader stands after it -/

theorem plainRests (json : v.IsJson) (plain : opening v = none)
    (ok : chars canonical v = .ok cs) : Rests cs := by
  rcases writtenCases json ok with ⟨_, word⟩ | ⟨c, _, is, _⟩
  · exact wordRests fun _ => word.chars
  · simp [plain] at is

theorem writtenRests (json : v.IsJson) (ok : chars canonical v = .ok cs) :
    Rests cs := by
  induction json generalizing cs with
  | null => exact plainRests .null rfl ok
  | bool b => exact plainRests (.bool b) rfl ok
  | int n => exact plainRests (.int n) rfl ok
  | float x => exact plainRests (.float x) rfl ok
  | text s => cases ok; exact .inr (quotedScans s)
  | list each ih =>
    obtain ⟨written, rfl⟩ := listOk.mp ok
    refine .inl (separateScans (.inl rfl) fun part member => ?_)
    obtain ⟨v, there, rfl⟩ := List.mem_map.mp member
    exact ih v there (writtenSpelled (written v there))
  | object once each ih =>
    obtain ⟨written, rfl⟩ := objectOk.mp ok
    refine .inl (separateScans (.inr rfl) fun part member => ?_)
    obtain ⟨p, sorted, rfl⟩ := List.mem_map.mp member
    obtain ⟨e, there, rfl⟩ := sortedMember sorted
    exact fieldRests (ih e there (writtenSpelled (written e there)))

end
end DecisionRules
