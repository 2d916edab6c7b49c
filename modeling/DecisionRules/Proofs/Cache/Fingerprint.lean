import DecisionRules.Proofs.Cache.Canonical
import Mathlib.Data.Set.Function

/-! Keys tell contexts apart. What is hashed names the rule first, and a bar within the name of a rule is
never taken for one that parts, as no canonical text has a bar but within a text. -/
namespace DecisionRules
open Text.Json Value

/-! Bars -/

/-- Wherever a reader stands, it gets stuck: at the first bar, or past the quote that closes the text the bar
is in. -/
theorem barStuck (p : Place) {digits : List Char} (plain : ∀ c ∈ digits, c.isDigit = true) (rest : List Char) :
    p.scan ('|' :: (digits ++ '|' :: '\x7b' :: '"' :: 'd' :: rest)) = none := by
  have within : Place.inside.scan (digits ++ '|' :: '\x7b' :: '"' :: 'd' :: rest) = none := by
    refine (scanStays (fun c member => ?_) _).trans rfl
    have quote : c ≠ '"' := by rintro rfl; exact absurd (plain _ member) (by decide)
    have backslash : c ≠ '\\' := by rintro rfl; exact absurd (plain _ member) (by decide)
    simp [Place.step, quote, backslash]
  cases p with
  | outside | closed => rfl
  | inside | escaped => exact within

/-- The text of the facts and the variables. -/
structure Payload (cs : List Char) : Prop where
  starts : ∃ rest, cs = '\x7b' :: '"' :: 'd' :: rest
  scans : Place.outside.scan cs ≠ none

section
variable {digits digits' more cs ds : List Char}

theorem payloadBar (payload : Payload cs) (payload' : Payload ds) (plain : ∀ c ∈ digits, c.isDigit = true) :
    cs ≠ more ++ '|' :: (digits ++ '|' :: ds) := by
  obtain ⟨rest, rfl⟩ := payload'.starts
  rintro rfl
  refine payload.scans ?_
  rw [scanAppend]
  cases Place.outside.scan more with
  | none => rfl
  | some p => exact barStuck p plain rest

/-- The front of a key's text goes no further than to the last two bars that part. -/
theorem frontEnds (payload : Payload cs) (payload' : Payload ds) (plain : ∀ c ∈ digits, c.isDigit = true)
    (plain' : ∀ c ∈ digits', c.isDigit = true) (some' : digits' ≠ [])
    (same : '|' :: (digits ++ '|' :: cs) = more ++ '|' :: (digits' ++ '|' :: ds)) : more = [] := by
  have free := Number.notDigit plain (by decide : '|'.isDigit = false)
  cases more with
  | nil => rfl
  | cons bar name =>
    have rest : digits ++ '|' :: cs = name ++ '|' :: (digits' ++ '|' :: ds) := (List.cons.inj same).2
    -- with a bar within it, what is left of the name would reach into the payload
    by_cases there : '|' ∈ name
    · obtain ⟨before, after, rfl, first⟩ := List.eq_append_cons_of_mem there
      rw [List.append_assoc] at rest
      exact (payloadBar payload payload' plain' (Number.frontsSame free first rest).2).elim
    · have equal := (Number.frontsSame free there rest).2
      obtain ⟨_, rfl⟩ := payload.starts
      obtain ⟨d, _, rfl⟩ := List.exists_cons_of_ne_nil some'
      obtain ⟨rfl, _⟩ := List.cons.inj equal
      exact absurd (plain' _ List.mem_cons_self) (by decide)

theorem joinReads {front front' : List Char} {n n' : Nat} (payload : Payload cs) (payload' : Payload ds)
    (same : front ++ '|' :: (Number.digitChars n ++ '|' :: cs) =
      front' ++ '|' :: (Number.digitChars n' ++ '|' :: ds)) : front = front' ∧ n = n' ∧ cs = ds := by
  have plain (n : Nat) : ∀ c ∈ Number.digitChars n, c.isDigit = true := fun _ => Number.digitCharsDigit
  have fronts : front = front' := by
    rcases List.append_eq_append_iff.mp same with ⟨more, rfl, rest⟩ | ⟨more, rfl, rest⟩
    · rw [frontEnds payload payload' (plain _) (plain _) (Number.digitCharsSome _) rest, List.append_nil]
    · rw [frontEnds payload' payload (plain _) (plain _) (Number.digitCharsSome _) rest, List.append_nil]
  subst fronts
  have rest := (List.cons.inj (List.append_cancel_left same)).2
  have free (n : Nat) := Number.digitCharsFree n (by decide : '|'.isDigit = false)
  obtain ⟨digits, texts⟩ := Number.frontsSame (free n) (free n') rest
  exact ⟨rfl, Number.digitCharsSame digits, texts⟩

end

/-! Keys -/

/-- What a key is asked for. -/
structure Question where
  rule : String
  revision : Nat
  data : Fields
  bindings : Fields

namespace Question

def key (q : Question) : Except Breach String := fingerprint q.rule q.revision q.data q.bindings

def text (q : Question) : Except Breach String := fingerprintText q.rule q.revision q.data q.bindings

def IsJson (q : Question) : Prop := (Value.object q.data).IsJson ∧ (Value.object q.bindings).IsJson

/-- Are rule and revision the same, and facts and variables up to the order of fields? -/
def Agrees (q r : Question) : Prop :=
  q.rule = r.rule ∧ q.revision = r.revision ∧ (Value.object q.data).Agrees (.object r.data) ∧
    (Value.object q.bindings).Agrees (.object r.bindings)

/-- Is the integer somewhere within the facts or the variables? -/
def Mentions (q : Question) (n : Int) : Prop :=
  Within (.int n) (.object q.data) ∨ Within (.int n) (.object q.bindings)

/-- Are these the bytes that the key is a digest of? -/
def Hashes (q : Question) (message : List UInt8) : Prop :=
  ∃ text, q.text = .ok text ∧ message = text.toUTF8.data.toList

def payload (q : Question) : Value := .object [("data", .object q.data), ("variables", .object q.bindings)]

theorem payloadJson {q : Question} (json : q.IsJson) : q.payload.IsJson :=
  .object (by simp [Assoc.keys]) fun e member => by
    simp only [List.mem_cons, List.not_mem_nil, or_false] at member
    rcases member with rfl | rfl
    · exact json.1
    · exact json.2

theorem payloadAgrees {q r : Question} : q.payload.Agrees r.payload ↔
    (Value.object q.data).Agrees (.object r.data) ∧ (Value.object q.bindings).Agrees (.object r.bindings) := by
  constructor
  · rintro (_ | _ | _ | _ | _ | _ | ⟨_, each⟩)
    exact ⟨each "data" _ _ rfl rfl, each "variables" _ _ rfl rfl⟩
  · rintro ⟨data, bindings⟩
    refine .object (by simp [Assoc.keys]) fun k v w found found' => ?_
    simp only [Assoc.get?] at found found'
    by_cases facts : "data" = k
    · rw [if_pos facts] at found found'
      cases found
      cases found'
      exact data
    · by_cases names : "variables" = k
      · rw [if_neg facts, if_pos names] at found found'
        cases found
        cases found'
        exact bindings
      · rw [if_neg facts, if_neg names] at found
        contradiction

theorem payloadMentions {q : Question} {n : Int} : Within (.int n) q.payload ↔ q.Mentions n := by
  constructor
  · rintro (_ | _ | ⟨member, within⟩)
    simp only [List.mem_cons, List.not_mem_nil, or_false] at member
    rcases member with rfl | rfl
    · exact .inl within
    · exact .inr within
  · rintro (within | within)
    · exact .field List.mem_cons_self within
    · exact .field (List.mem_cons_of_mem _ List.mem_cons_self) within

theorem payloadReads {q : Question} {cs : List Char} (json : q.IsJson)
    (ok : chars canonical q.payload = .ok cs) : Payload cs := by
  refine ⟨?_, ?_⟩
  · have name : quotedText "data" = ['"', 'd', 'a', 't', 'a', '"'] := by decide
    obtain ⟨_, rfl⟩ := objectOk.mp ok
    simp [sortedFields, inOrder, canonical, sortBy, insertSorted, spelledField, separate, field, name]
  · rcases writtenRests (payloadJson json) ok with rests | rests <;> simp [rests]

theorem textReads {q : Question} {text : String} : q.text = .ok text ↔
    ∃ cs, chars canonical q.payload = .ok cs ∧ text.toList = "rule_eval|".toList ++
      (q.rule.toList ++ '|' :: (Number.digitChars q.revision ++ '|' :: cs)) := by
  have positive : ¬ (q.revision : Int) < 0 := by omega
  have shape (cs : List Char) : ("|".intercalate ["rule_eval", q.rule,
      String.ofList (Number.intChars q.revision), String.ofList cs]).toList = "rule_eval|".toList ++
        (q.rule.toList ++ '|' :: (Number.digitChars q.revision ++ '|' :: cs)) := by
    simp [Number.intChars, positive]
  simp only [Question.text, fingerprintText, canonicalText, render, bindAccepts, pureAccepts]
  constructor
  · rintro ⟨_, ⟨cs, ok, rfl⟩, rfl⟩
    exact ⟨cs, ok, shape cs⟩
  · rintro ⟨cs, ok, is⟩
    exact ⟨_, ⟨cs, ok, rfl⟩, String.toList_inj.mp ((shape cs).trans is.symm)⟩

theorem textAgrees {q r : Question} (json : q.IsJson) (json' : r.IsJson) {text : String}
    (ok : q.text = .ok text) : r.text = .ok text ↔ q.Agrees r := by
  obtain ⟨cs, written, shape⟩ := textReads.mp ok
  rw [textReads]
  constructor
  · rintro ⟨ds, written', shape'⟩
    obtain ⟨rule, revision, rfl⟩ := joinReads (payloadReads json written) (payloadReads json' written')
      (List.append_cancel_left (shape.symm.trans shape'))
    obtain ⟨same, _⟩ := writtenReads (x := []) (y := []) (payloadJson json) (payloadJson json') written
      written' (by simp [Ends]) (by simp [Ends]) rfl
    obtain ⟨facts, names⟩ := payloadAgrees.mp same
    exact ⟨String.toList_inj.mp rule, revision, facts, names⟩
  · rintro ⟨rule, revision, contents⟩
    obtain ⟨written', same⟩ := agreesSpelled (payloadJson json) (payloadJson json')
      (payloadAgrees.mpr contents) ⟨cs, written⟩
    refine ⟨cs, ?_, by rw [← rule, ← revision, shape]⟩
    rw [writtenSpelled written', ← same, spelledOk written]

theorem keyText {q : Question} {key : String} :
    q.key = .ok key ↔ ∃ text, q.text = .ok text ∧ Digest.sha256 text.toUTF8.data.toList = key := by
  simp only [Question.key, fingerprint, bindAccepts, pureAccepts]
  rfl

theorem Hashes.unique {q : Question} {m m' : List UInt8} (hashes : q.Hashes m) (hashes' : q.Hashes m') :
    m = m' := by
  obtain ⟨text, ok, rfl⟩ := hashes
  obtain ⟨text', ok', rfl⟩ := hashes'
  cases ok.symm.trans ok'
  rfl

theorem keyGiven {q : Question} : (∃ key, q.key = .ok key) ↔ Written q.payload := by
  constructor
  · rintro ⟨key, given⟩
    obtain ⟨text, ok, _⟩ := keyText.mp given
    obtain ⟨cs, written, _⟩ := textReads.mp ok
    exact ⟨cs, written⟩
  · rintro ⟨cs, written⟩
    exact ⟨_, keyText.mpr ⟨String.ofList _, textReads.mpr ⟨cs, written, String.toList_ofList⟩, rfl⟩⟩

theorem bytesSame {s t : String} (same : s.toUTF8.data.toList = t.toUTF8.data.toList) : s = t :=
  String.toByteArray_inj.mp (ByteArray.ext (Array.toList_inj.mp same))

/-- Questions have the same key only if they agree, as far as digests tell messages apart. -/
theorem keysSeparate {q r : Question} (json : q.IsJson) (json' : r.IsJson)
    (collisionFree : Set.InjOn Digest.sha256 {message | q.Hashes message ∨ r.Hashes message}) :
    ((∃ key, q.key = .ok key) ↔ ∀ n, q.Mentions n → Number.writable n = true) ∧
      ∀ key, q.key = .ok key → (r.key = .ok key ↔ q.Agrees r) := by
  constructor
  · rw [keyGiven, writtenIff (payloadJson json)]
    exact forall_congr' fun n => imp_congr_left payloadMentions
  · intro key given
    obtain ⟨text, ok, rfl⟩ := keyText.mp given
    rw [← textAgrees json json' ok, keyText]
    constructor
    · rintro ⟨text', ok', same⟩
      rw [← bytesSame (collisionFree (.inr ⟨_, ok', rfl⟩) (.inl ⟨_, ok, rfl⟩) same), ok']
    · exact fun ok' => ⟨text, ok', rfl⟩

def barred : Question :=
  ⟨"a|1", 2, [("b", .int 1), ("a", .list [.float (Float.ofBits 0x3ff8000000000000), .null, .text "\"|"])], []⟩

def shifted : Question := { barred with rule := "a", revision := 1 }

theorem keysSeparateBarred : ∃ key, barred.key = .ok key ∧ ¬ shifted.key = .ok key := by
  have json : barred.IsJson := by
    refine ⟨.object (by decide) fun e member => ?_, .object (by decide) fun _ member => by cases member⟩
    simp only [barred, List.mem_cons, List.not_mem_nil, or_false] at member
    rcases member with rfl | rfl
    · exact .int 1
    · refine .list fun v member => ?_
      simp only [List.mem_cons, List.not_mem_nil, or_false] at member
      rcases member with rfl | rfl | rfl
      · exact .float _
      · exact .null
      · exact .text _
  have alike : shifted.IsJson := json
  have differ : barred.key.toOption ≠ shifted.key.toOption := by decide +kernel
  have apart {m m' : List UInt8} (hashes : barred.Hashes m) (hashes' : shifted.Hashes m') :
      Digest.sha256 m ≠ Digest.sha256 m' := by
    obtain ⟨text, ok, rfl⟩ := hashes
    obtain ⟨text', ok', rfl⟩ := hashes'
    intro same
    exact differ (by rw [keyText.mpr ⟨text, ok, same⟩, keyText.mpr ⟨text', ok', rfl⟩])
  have collisionFree : Set.InjOn Digest.sha256 {m | barred.Hashes m ∨ shifted.Hashes m} := by
    rintro m (hashes | hashes) m' (hashes' | hashes') same
    · exact hashes.unique hashes'
    · exact absurd same (apart hashes hashes')
    · exact absurd same.symm (apart hashes' hashes)
    · exact hashes.unique hashes'
  obtain ⟨key, given⟩ : ∃ key, barred.key = .ok key := isOkAccepts.mp (by decide +kernel)
  refine ⟨key, given, fun same => ?_⟩
  have agrees := ((keysSeparate json alike collisionFree).2 key given).mp same
  exact absurd agrees.1 (by decide)

end Question
end DecisionRules
