import DecisionRules.Log.Record
import DecisionRules.Proofs.Assoc
import DecisionRules.Proofs.Text.Json

/-! Secrets among the fields of a log record. Its own fields are masked by their names; what is stored under a
secret's name further down is written as it is. -/
namespace DecisionRules.Log
open Text.Json (chars compact Frames)

/-! The record's own fields -/

/-- The same field, but for the value of one with a secret's name -/
def SameField (a b : String × Value) : Prop := b.1 = a.1 ∧ (isSecretField a.1 = false → b.2 = a.2)

theorem sameRedacted {fields fields' : Fields} (same : List.Forall₂ SameField fields fields') :
    redactFields fields' = redactFields fields := by
  unfold redactFields
  induction same with
  | nil => rfl
  | @cons a b _ _ first _ ih =>
    obtain ⟨name, v⟩ := a
    obtain ⟨rfl, value⟩ := first
    rw [List.map_cons, List.map_cons, ih]
    cases secret : isSecretField b.1 with
    | true => simp [secret]
    | false => simp [secret, value secret]

namespace Record

def carrying (r : Record) (extra : Value) : Record := { r with extra }

def raisedFields (r : Record) : Fields := (r.raised.map Raised.toFields).getD []

/-- A field of what was raised has the name. -/
def replaces (r : Record) (key : String) : Prop := key ∈ Assoc.keys r.raisedFields

theorem sameLine (r : Record) {fields fields' : Fields} (same : List.Forall₂ SameField fields fields') :
    (r.carrying (.object fields')).line = (r.carrying (.object fields)).line := by
  have shown : shownFields (.object fields') = shownFields (.object fields) := by
    simp only [shownFields, sameRedacted same]
  unfold line toFields carrying
  rw [shown]
  rfl

end Record

/-! Places further down -/

/-- A place in a value, with what stands around it -/
inductive Spot where
  | here
  | item (before : List Value) (inner : Spot) (after : List Value)
  | field (before : Fields) (key : String) (inner : Spot) (after : Fields)

namespace Spot

def fill : Spot → Value → Value
  | here, v => v
  | item before inner after, v => .list (before ++ inner.fill v :: after)
  | field before key inner after, v => .object (before ++ (key, inner.fill v) :: after)

/-- What is put there is stored under the name. -/
inductive Under (name : String) : Spot → Prop
  | here {before after : Fields} : Under name (.field before name .here after)
  | item {before after : List Value} {inner : Spot} (under : Under name inner) : Under name (.item before inner after)
  | field {before after : Fields} {key : String} {inner : Spot} (under : Under name inner) :
      Under name (.field before key inner after)

theorem fillFrames {spot : Spot} {v : Value} {cs : List Char} (written : chars compact (spot.fill v) = .ok cs) :
    Frames spot.fill := by
  induction spot generalizing cs with
  | here => exact .here
  | item before inner after ih =>
    have outer := Text.Json.listFrames written
    obtain ⟨part, inside⟩ := outer.written written
    exact outer.within (ih inside)
  | field before key inner after ih =>
    have outer := Text.Json.objectFrames written
    obtain ⟨part, inside⟩ := outer.written written
    exact outer.within (ih inside)

end Spot

/-- A field of a record as its line has it -/
def shownField (key : String) (v : Value) : Value :=
  match if isSecretField key then .text (String.ofList mask) else v with
  | .text s => .text (redact s)
  | v => v

theorem shownSplits (before after : Fields) (key : String) (v : Value) :
    shownFields (.object (before ++ (key, v) :: after)) =
      shownFields (.object before) ++ (key, shownField key v) :: shownFields (.object after) := by
  simp only [shownFields, redactFields, Assoc.mapValues, List.map_append, List.map_cons]
  rfl

theorem shownKeys (fields : Fields) : Assoc.keys (shownFields (.object fields)) = Assoc.keys fields := by
  simp [shownFields, redactFields, Assoc.mapValues, Assoc.keys, Function.comp_def]

theorem shownMasked {key : String} (secret : isSecretField key = true) (v w : Value) :
    shownField key v = shownField key w := by
  simp only [shownField, secret, if_true]

/-- A value below a field is no text, and only texts are scrubbed. -/
theorem shownWhole {key name : String} {spot : Spot} (under : spot.Under name) (plain : isSecretField key = false)
    (v : Value) : shownField key (spot.fill v) = spot.fill v := by
  cases under <;> simp [shownField, plain, Spot.fill]

namespace Record
variable {r : Record}

/-- What a record's line is made of, but for its own fields, does not depend on them. -/
theorem lineParts (r : Record) : ∃ base : Except Breach Fields, ∀ fields,
    (r.carrying (.object fields)).line = base.bind fun m =>
      (chars compact (.object (Assoc.merge (Assoc.merge m (shownFields (.object fields))) r.raisedFields))).map
        String.ofList := by
  refine ⟨do
    let base : Fields := [
      ("ts_iso_utc", .text (← Calendar.isoText (← Calendar.microseconds r.created))),
      ("level", .text r.level), ("logger", .text r.logger), ("msg", .text (redact (← r.message)))]
    return Assoc.merge base r.context.toFields, fun fields => ?_⟩
  have message : (r.carrying (.object fields)).message = r.message := rfl
  unfold line toFields
  rw [message]
  simp only [carrying, bind, Except.bind]
  cases Calendar.microseconds r.created with
  | error b => rfl
  | ok micros =>
    dsimp only
    cases Calendar.isoText micros with
    | error b => rfl
    | ok text =>
      dsimp only
      cases r.message with
      | error b => rfl
      | ok shown => rfl

section
variable {before after : Fields} {key : String}

theorem lineMasked (r : Record) (secret : isSecretField key = true) (v w : Value) :
    (r.carrying (.object (before ++ (key, w) :: after))).line =
      (r.carrying (.object (before ++ (key, v) :: after))).line := by
  obtain ⟨base, parts⟩ := lineParts r
  rw [parts, parts, shownSplits, shownSplits, shownMasked secret w v]

theorem lineReplaced (once : key ∉ Assoc.keys after) (there : r.replaces key) (v w : Value) :
    (r.carrying (.object (before ++ (key, w) :: after))).line =
      (r.carrying (.object (before ++ (key, v) :: after))).line := by
  obtain ⟨base, parts⟩ := lineParts r
  rw [parts, parts, shownSplits, shownSplits]
  cases base with
  | error b => rfl
  | ok m =>
    have free : key ∉ Assoc.keys (shownFields (.object after)) := by rwa [shownKeys]
    obtain ⟨front, back, fresh, splits⟩ := Assoc.mergeSplits m (shownFields (.object before)) free
    obtain ⟨all, covers⟩ := Assoc.mergeCovers there fresh back
    simp only [Except.bind, splits, covers]

/-- What lies below a field that is neither secret nor replaced is written as it is. -/
theorem lineShows {name : String} {inner : Spot} {v : Value} {s : String} (under : inner.Under name)
    (plain : isSecretField key = false) (once : key ∉ Assoc.keys after)
    (stays : ¬ r.replaces key)
    (written : (r.carrying (.object (before ++ (key, inner.fill v) :: after))).line = .ok s) (w : Value) :
    (r.carrying (.object (before ++ (key, inner.fill w) :: after))).line = .ok s ↔
      chars compact w = chars compact v := by
  obtain ⟨base, parts⟩ := lineParts r
  rw [parts] at written ⊢
  cases base with
  | error b => contradiction
  | ok m =>
    have free : key ∉ Assoc.keys (shownFields (.object after)) := by rwa [shownKeys]
    obtain ⟨front, back, fresh, splits⟩ := Assoc.mergeSplits m (shownFields (.object before)) free
    obtain ⟨front', back', -, splits'⟩ := Assoc.mergeBeside stays fresh back
    simp only [Except.bind, shownSplits, shownWhole under plain, splits, splits'] at written ⊢
    obtain ⟨cs, text, rfl⟩ := mapAccepts.mp written
    have outer := Text.Json.objectFrames text
    obtain ⟨part, inside⟩ := outer.written text
    rw [← (outer.within (Spot.fillFrames inside)).same, text]
    constructor
    · intro same
      obtain ⟨cs', text', equal⟩ := mapAccepts.mp same
      rw [text', String.ofList_injective equal]
    · intro same
      rw [same]
      rfl

end

end Record

end DecisionRules.Log

namespace DecisionRules
open Log
open Text.Json (chars compact)

/-- What a line shows of secrets. The values of the record's own secret fields have no part in it. A value that is
stored under a secret's name further down has none exactly if the field of the record that it is in is secret itself
or replaced; else the line changes with its text. -/
theorem secretsInLine (r : Record) :
    (∀ fields fields' : Fields, List.Forall₂ SameField fields fields' →
      (r.carrying (.object fields')).line = (r.carrying (.object fields)).line) ∧
    ∀ (before after : Fields) (key name : String) (inner : Spot) (v w : Value) (s : String),
      (Spot.field before key inner after).Under name → isSecretField name = true → key ∉ Assoc.keys after →
      (r.carrying ((Spot.field before key inner after).fill v)).line = .ok s →
      ((r.carrying ((Spot.field before key inner after).fill w)).line = .ok s ↔
        isSecretField key = true ∨ r.replaces key ∨ chars compact w = chars compact v) := by
  refine ⟨fun fields fields' same => r.sameLine same, ?_⟩
  intro before after key name inner v w s under secret once written
  by_cases masked : isSecretField key = true
  · exact iff_of_true ((r.lineMasked masked _ _).trans written) (.inl masked)
  by_cases there : r.replaces key
  · exact iff_of_true ((Record.lineReplaced once there _ _).trans written) (.inr (.inl there))
  have below : inner.Under name := by
    cases under with
    | here => exact absurd secret masked
    | field below => exact below
  rw [or_iff_right masked, or_iff_right there]
  exact Record.lineShows below (by simpa using masked) once there written w

def emptyRecord : Record := .of 0 "INFO" "rulecraft" "logged" .none []

/-- The fields of a log action, with a place for the password in its data -/
def loggedPassword : Spot := .field [("rule_action", .text "log")] "data" (.field [] "password" .here []) []

theorem secretsInLinePassword :
    (emptyRecord.carrying (.object [("api_key", .text "k-2")])).line =
      (emptyRecord.carrying (.object [("api_key", .text "k-1")])).line ∧
    (emptyRecord.carrying (loggedPassword.fill (.text "letmein"))).line ≠
      (emptyRecord.carrying (loggedPassword.fill (.text "hunter2"))).line := by
  refine ⟨(secretsInLine _).1 _ _ (.cons ⟨rfl, fun plain => absurd plain (by decide +kernel)⟩ .nil), fun same => ?_⟩
  obtain ⟨s, written⟩ : ∃ s, (emptyRecord.carrying (loggedPassword.fill (.text "hunter2"))).line = .ok s :=
    isOkAccepts.mp (by decide +kernel)
  have shows := (secretsInLine emptyRecord).2 _ _ _ "password" _ _ (.text "letmein") s (.field .here)
    (by decide +kernel) List.not_mem_nil written
  rcases shows.mp (same.trans written) with masked | there | text
  · exact absurd masked (by decide +kernel)
  · exact absurd there List.not_mem_nil
  · exact absurd text (by decide +kernel)

theorem secretsShow : ¬ ∀ (r : Record) (spot : Spot) (name : String) (v w : Value),
    spot.Under name → isSecretField name = true →
      (r.carrying (spot.fill w)).line = (r.carrying (spot.fill v)).line := by
  intro claim
  have same := claim emptyRecord loggedPassword "password" (.text "hunter2") (.text "letmein") (.field .here)
    (by decide +kernel)
  exact absurd (congrArg Except.toOption same) (by decide +kernel)

end DecisionRules
