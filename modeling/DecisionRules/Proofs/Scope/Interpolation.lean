import DecisionRules.Proofs.Outcome
import DecisionRules.Proofs.Run
import DecisionRules.Scope.Resolve

/-! Interpolation in a single pass. A text is cut into references and plain characters before anything is
looked up, and what is put in for a reference is never cut again. So a resolved value has the shape of the
one it comes from, and the names that are looked up can be read off that one. -/
namespace DecisionRules

namespace Segment

/-- A name that can stand between the braces of a reference -/
structure Proper (name : List Char) : Prop where
  filled : name ≠ []
  unclosed : closeBrace ∉ name

theorem referenceIff {cs name after : List Char} :
    reference? cs = some (name, after) ↔ Proper name ∧ cs = (reference name).chars ++ after := by
  constructor
  · intro found
    match cs with
    | [] | [_] => simp [reference?] at found
    | c :: d :: rest =>
      simp only [reference?] at found
      split at found
      · rename_i begins
        simp only [Bool.and_eq_true, beq_iff_eq] at begins
        obtain ⟨rfl, rfl⟩ := begins
        split at found
        · rename_i close later closing
          split at found
          · contradiction
          · rename_i filled
            cases found
            have closed : close = closeBrace := by
              have head := List.head?_dropWhile_not (fun x => x != closeBrace) rest
              rw [closing] at head
              simpa using head
            have whole := List.takeWhile_append_dropWhile (p := fun x => x != closeBrace) (l := rest)
            rw [closing, closed] at whole
            refine ⟨⟨by simpa using filled, fun member => ?_⟩, ?_⟩
            · simpa using List.all_eq_true.mp List.all_takeWhile _ member
            · simp only [chars, List.cons_append, List.append_assoc, List.nil_append, whole]
        · contradiction
      · contradiction
  · rintro ⟨proper, rfl⟩
    have inside : ∀ x ∈ name, (x != closeBrace) = true := fun x member =>
      bne_iff_ne.mpr fun same => proper.unclosed (same ▸ member)
    simp [reference?, chars, List.takeWhile_append_of_pos inside, List.dropWhile_append_of_pos inside,
      proper.filled]

/-- The segments of a text from the left: wherever a reference can begin, one does. -/
inductive Parts : List Char → List Segment → Prop where
  | nil : Parts [] []
  | reference {name after segments} (proper : Proper name) (next : Parts after segments) :
      Parts ((reference name).chars ++ after) (reference name :: segments)
  | plain {c rest segments}
      (other : ∀ name after, Proper name → c :: rest ≠ (Segment.reference name).chars ++ after)
      (next : Parts rest segments) : Parts (c :: rest) (plain c :: segments)

theorem cutReference {cs name after : List Char} (found : reference? cs = some (name, after)) :
    cut cs = reference name :: cut after := by
  cases cs with
  | nil => contradiction
  | cons c rest =>
    rw [cut]
    split
    · rename_i also
      cases also.symm.trans found
      rfl
    · rename_i none
      cases none.symm.trans found

theorem cutOther {c : Char} {rest : List Char} (none : reference? (c :: rest) = none) :
    cut (c :: rest) = plain c :: cut rest := by
  rw [cut]
  split
  · rename_i found
    cases found.symm.trans none
  · rfl

theorem cutParts (cs : List Char) : Parts cs (cut cs) := by
  induction cs using cut.induct with
  | case1 =>
    rw [cut]
    exact .nil
  | case2 c rest name after found _ next =>
    obtain ⟨proper, same⟩ := referenceIff.mp found
    rw [cutReference found, same]
    exact .reference proper next
  | case3 c rest none next =>
    rw [cutOther none]
    refine .plain (fun name after proper same => ?_) next
    cases none.symm.trans (referenceIff.mpr ⟨proper, same⟩)

theorem partsIff {cs : List Char} {segments : List Segment} : Parts cs segments ↔ cut cs = segments := by
  constructor
  · intro parts
    induction parts with
    | nil => rw [cut]
    | reference proper next ih => rw [cutReference (referenceIff.mpr ⟨proper, rfl⟩), ih]
    | @plain c rest segments other next ih =>
      have none : reference? (c :: rest) = none := Option.eq_none_iff_forall_ne_some.mpr fun found same =>
        other found.1 found.2 (referenceIff.mp same).1 (referenceIff.mp same).2
      rw [cutOther none, ih]
  · rintro rfl
    exact cutParts cs

/-- Are these characters a reference to the name, and nothing else? -/
def Spans (name cs : List Char) : Prop := Proper name ∧ cs = (reference name).chars

theorem spansIff {name cs : List Char} : Spans name cs ↔ cut cs = [reference name] := by
  constructor
  · rintro ⟨proper, rfl⟩
    have found : reference? (reference name).chars = some (name, []) :=
      referenceIff.mpr ⟨proper, (List.append_nil _).symm⟩
    rw [cutReference found, cut]
  · intro whole
    cases partsIff.mpr whole with
    | reference proper next =>
      cases next
      exact ⟨proper, List.append_nil _⟩

end Segment

section Relations
open Segment (Parts)

/-- What fills the segments: plain characters stay, a reference gives way to the text of what is found under
its name, and stays as it is written when nothing is found. -/
inductive Filled (look : Lookup) : List Segment → List Char → Prop where
  | nil : Filled look [] []
  | plain {c rest cs} (next : Filled look rest cs) : Filled look (.plain c :: rest) (c :: cs)
  | bound {name v s rest cs} (found : look (referenceName name) = .ok (some v)) (shown : v.stringify = .ok s)
      (next : Filled look rest cs) : Filled look (.reference name :: rest) (s.toList ++ cs)
  | unbound {name rest cs} (absent : look (referenceName name) = .ok none) (next : Filled look rest cs) :
      Filled look (.reference name :: rest) ((Segment.reference name).chars ++ cs)

/-- What a text becomes: one that is a reference and nothing else, the value itself. -/
inductive Becomes (look : Lookup) (s : String) : Value → Prop where
  | bound {name v} (whole : Segment.Spans name s.toList) (found : look (referenceName name) = .ok (some v)) :
      Becomes look s v
  | unbound {name} (whole : Segment.Spans name s.toList) (absent : look (referenceName name) = .ok none) :
      Becomes look s (.text s)
  | mixed {segments cs} (mixed : ∀ name, ¬ Segment.Spans name s.toList) (parts : Parts s.toList segments)
      (filled : Filled look segments cs) : Becomes look s (.text (String.ofList cs))

/-- The same shape and the same keys, with each text replaced by what it becomes by itself -/
inductive Interpolates (look : Lookup) : Value → Value → Prop where
  | text {s w} (becomes : Becomes look s w) : Interpolates look (.text s) w
  | noItems : Interpolates look (.list []) (.list [])
  | item {v w rest rest'} (head : Interpolates look v w) (tail : Interpolates look (.list rest) (.list rest')) :
      Interpolates look (.list (v :: rest)) (.list (w :: rest'))
  | noFields : Interpolates look (.object []) (.object [])
  | field {key v w rest rest'} (head : Interpolates look v w)
      (tail : Interpolates look (.object rest) (.object rest')) :
      Interpolates look (.object ((key, v) :: rest)) (.object ((key, w) :: rest'))
  | atom {v} (texts : v.text? = none) (items : v.list? = none) (fields : v.fields? = none) : Interpolates look v v

variable {look : Lookup}

theorem insertedIff {name here : List Char} : inserted look stringifyChars name = .ok here ↔
    (∃ v s, look (referenceName name) = .ok (some v) ∧ v.stringify = .ok s ∧ s.toList = here) ∨
    look (referenceName name) = .ok none ∧ (Segment.reference name).chars = here := by
  unfold inserted stringifyChars
  cases look (referenceName name) with
  | error b => simp [bind, Except.bind]
  | ok found => cases found <;> simp [bind, Except.bind, mapAccepts, pureAccepts]

theorem filledIff {segments : List Segment} {cs : List Char} :
    Segment.replaceAll (inserted look stringifyChars) segments = .ok cs ↔ Filled look segments cs := by
  constructor
  · intro ok
    induction segments generalizing cs with
    | nil =>
      cases ok
      exact .nil
    | cons segment rest ih =>
      cases segment with
      | plain c =>
        obtain ⟨more, next, same⟩ := bindAccepts.mp ok
        cases same
        exact .plain (ih next)
      | reference name =>
        obtain ⟨here, first, ok⟩ := bindAccepts.mp ok
        obtain ⟨more, next, same⟩ := bindAccepts.mp ok
        cases same
        rcases insertedIff.mp first with ⟨v, s, found, shown, rfl⟩ | ⟨absent, rfl⟩
        · exact .bound found shown (ih next)
        · exact .unbound absent (ih next)
  · intro filled
    induction filled with
    | nil => rfl
    | plain _ ih =>
      rw [Segment.replaceAll, ih]
      rfl
    | bound found shown _ ih =>
      rw [Segment.replaceAll, insertedIff.mpr (.inl ⟨_, _, found, shown, rfl⟩), ih]
      rfl
    | unbound absent _ ih =>
      rw [Segment.replaceAll, insertedIff.mpr (.inr ⟨absent, rfl⟩), ih]
      rfl

theorem resolveMixed {s : String} (mixed : ∀ name, ¬ Segment.Spans name s.toList) :
    resolveText look s = (Segment.replaceAll (inserted look stringifyChars) (Segment.cut s.toList)).map
      fun cs => .text (String.ofList cs) := by
  unfold resolveText
  dsimp only
  split
  · rename_i name whole
    exact absurd (Segment.spansIff.mpr whole) (mixed name)
  · cases Segment.replaceAll (inserted look stringifyChars) (Segment.cut s.toList) <;> rfl

theorem becomesIff {s : String} {w : Value} : resolveText look s = .ok w ↔ Becomes look s w := by
  constructor
  · intro ok
    by_cases whole : ∃ name, Segment.Spans name s.toList
    · obtain ⟨name, whole⟩ := whole
      simp only [resolveText, Segment.spansIff.mp whole] at ok
      obtain ⟨found, looked, ok⟩ := bindAccepts.mp ok
      cases found with
      | some v =>
        cases ok
        exact .bound whole looked
      | none =>
        cases ok
        exact .unbound whole looked
    · have mixed : ∀ name, ¬ Segment.Spans name s.toList := fun name same => whole ⟨name, same⟩
      rw [resolveMixed mixed] at ok
      obtain ⟨cs, replaced, rfl⟩ := mapAccepts.mp ok
      exact .mixed mixed (Segment.cutParts s.toList) (filledIff.mp replaced)
  · intro becomes
    cases becomes with
    | bound whole found =>
      simp only [resolveText, Segment.spansIff.mp whole, found]
      rfl
    | unbound whole absent =>
      simp only [resolveText, Segment.spansIff.mp whole, absent]
      rfl
    | mixed mixed parts filled =>
      cases Segment.partsIff.mp parts
      rw [resolveMixed mixed, filledIff.mpr filled]
      rfl

mutual
theorem resolveInterpolates {v w : Value} (ok : resolve look v = .ok w) : Interpolates look v w := by
  cases v with
  | text s => exact .text (becomesIff.mp ok)
  | list items =>
    obtain ⟨items', each, same⟩ := bindAccepts.mp ok
    cases same
    exact resolveItemsInterpolate each
  | object fields =>
    obtain ⟨fields', each, same⟩ := bindAccepts.mp ok
    cases same
    exact resolveFieldsInterpolate each
  | _ =>
    cases ok
    exact .atom rfl rfl rfl
theorem resolveItemsInterpolate {items items' : List Value} (ok : resolveItems look items = .ok items') :
    Interpolates look (.list items) (.list items') := by
  cases items with
  | nil =>
    cases ok
    exact .noItems
  | cons v rest =>
    obtain ⟨w, head, ok⟩ := bindAccepts.mp ok
    obtain ⟨rest', tail, same⟩ := bindAccepts.mp ok
    cases same
    exact .item (resolveInterpolates head) (resolveItemsInterpolate tail)
theorem resolveFieldsInterpolate {fields fields' : List (String × Value)}
    (ok : resolveFields look fields = .ok fields') : Interpolates look (.object fields) (.object fields') := by
  cases fields with
  | nil =>
    cases ok
    exact .noFields
  | cons field rest =>
    obtain ⟨w, head, ok⟩ := bindAccepts.mp ok
    obtain ⟨rest', tail, same⟩ := bindAccepts.mp ok
    cases same
    exact .field (resolveInterpolates head) (resolveFieldsInterpolate tail)
end

theorem Interpolates.resolves {v w : Value} (interpolates : Interpolates look v w) : resolve look v = .ok w := by
  induction interpolates with
  | text becomes => exact becomesIff.mpr becomes
  | noItems | noFields => rfl
  | item _ _ head tail =>
    obtain ⟨rest', each, same⟩ := bindAccepts.mp tail
    cases same
    simp only [resolve, resolveItems, head, each]
    rfl
  | field _ _ head tail =>
    obtain ⟨rest', each, same⟩ := bindAccepts.mp tail
    cases same
    simp only [resolve, resolveFields, head, each]
    rfl
  | @atom v texts items fields => cases v <;> first | rfl | contradiction

end Relations

/-! The same work in any monad -/

section Monadic
variable {m : Type → Type} [Monad m] (look : String → m (Option Value)) (render : Value → m (List Char))

def insertedWith (name : List Char) : m (List Char) := do
  match ← look (referenceName name) with
  | some v => render v
  | none => return (Segment.reference name).chars

def filledWith : List Segment → m (List Char)
  | [] => pure []
  | .plain c :: rest => do return c :: (← filledWith rest)
  | .reference name :: rest => do
    let here ← insertedWith look render name
    return here ++ (← filledWith rest)

def interpolateText (s : String) : m Value :=
  let segments := Segment.cut s.toList
  match segments with
  | [.reference name] => do
    match ← look (referenceName name) with
    | some v => return v
    | none => return .text s
  | _ => do return .text (String.ofList (← filledWith look render segments))

mutual
/-- Interpolation, with nothing to look names up and to show values but what is given -/
def interpolate : Value → m Value
  | .text s => interpolateText look render s
  | .list items => do return .list (← interpolateItems items)
  | .object fields => do return .object (← interpolateFields fields)
  | v => pure v
def interpolateItems : List Value → m (List Value)
  | [] => pure []
  | v :: rest => do
    let v ← interpolate v
    return v :: (← interpolateItems rest)
def interpolateFields : List (String × Value) → m (List (String × Value))
  | [] => pure []
  | (k, v) :: rest => do
    let v ← interpolate v
    return (k, v) :: (← interpolateFields rest)
end

end Monadic

theorem filledReplaces (look : Lookup) (segments : List Segment) :
    filledWith look stringifyChars segments = Segment.replaceAll (inserted look stringifyChars) segments := by
  induction segments with
  | nil => rfl
  | cons segment rest ih => cases segment <;> simp only [filledWith, Segment.replaceAll, ih] <;> rfl

theorem interpolateTextResolves (look : Lookup) (s : String) :
    interpolateText look stringifyChars s = resolveText look s := by
  have same : filledWith look stringifyChars = Segment.replaceAll (inserted look stringifyChars) :=
    funext (filledReplaces look)
  unfold interpolateText
  exact same ▸ rfl

mutual
theorem interpolateResolves (look : Lookup) : ∀ v, interpolate look stringifyChars v = resolve look v
  | .text s => interpolateTextResolves look s
  | .list items => by simp only [interpolate, resolve, interpolateItemsResolve look items]
  | .object fields => by simp only [interpolate, resolve, interpolateFieldsResolve look fields]
  | .null | .bool _ | .int _ | .float _ | .complex _ _ | .pattern _ _ | .callable _ => rfl
theorem interpolateItemsResolve (look : Lookup) :
    ∀ items, interpolateItems look stringifyChars items = resolveItems look items
  | [] => rfl
  | v :: rest => by
    simp only [interpolateItems, resolveItems, interpolateResolves look v, interpolateItemsResolve look rest]
theorem interpolateFieldsResolve (look : Lookup) :
    ∀ fields, interpolateFields look stringifyChars fields = resolveFields look fields
  | [] => rfl
  | (k, v) :: rest => by
    simp only [interpolateFields, resolveFields, interpolateResolves look v, interpolateFieldsResolve look rest]
end

/-! The names that are looked up -/

def Segment.asked : List Segment → List String
  | [] => []
  | .plain _ :: rest => asked rest
  | .reference name :: rest => referenceName name :: asked rest

namespace Value

mutual
/-- The names of the references in a value, in the order in which they stand there -/
def asked : Value → List String
  | text s => Segment.asked (Segment.cut s.toList)
  | list items => askedItems items
  | object fields => askedFields fields
  | _ => []
def askedItems : List Value → List String
  | [] => []
  | v :: rest => v.asked ++ askedItems rest
def askedFields : List (String × Value) → List String
  | [] => []
  | (_, v) :: rest => v.asked ++ askedFields rest
end

end Value

/-- Writes a name down, then looks it up. -/
def noting (look : Lookup) (name : String) : Run (List String) (Option Value) := do
  modify (· ++ [name])
  Evaluator.basic (look name)

def showing (v : Value) : Run (List String) (List Char) := Evaluator.basic (stringifyChars v)

/-- The work answers like the other, and writes down the names, or the first of them if it fails; then one of
them cannot be looked up, or what is found under it has no text. -/
structure Asks {α : Type} (look : Lookup) (names : List String) (m : Run (List String) α) (r : Except Breach α) :
    Prop where
  notes : ∀ log, ∃ noted, m.run log = (Outcome.ofBreach r, log ++ noted) ∧ noted <+: names ∧
    ∀ a, r = .ok a → noted = names
  blames : ∀ b, r = .error b → ∃ name ∈ names, look name = .error b ∨
    ∃ u, look name = .ok (some u) ∧ u.stringify = .error b

namespace Asks
open Run (runBind)
variable {α β : Type} {look : Lookup} {names more : List String}

theorem pure (a : α) : Asks look [] (Pure.pure a) (Pure.pure a) :=
  ⟨fun log => ⟨[], by rw [List.append_nil]; rfl, List.prefix_rfl, fun _ _ => rfl⟩,
    fun b failed => by cases failed⟩

theorem bind {m : Run (List String) α} {r : Except Breach α} {k : α → Run (List String) β}
    {k' : α → Except Breach β} (first : Asks look names m r) (next : ∀ a, Asks look more (k a) (k' a)) :
    Asks look (names ++ more) (m >>= k) (r >>= k') := by
  constructor
  · intro log
    obtain ⟨noted, ran, front, all⟩ := first.notes log
    rw [runBind, ran]
    cases r with
    | error b => exact ⟨noted, rfl, front.trans (List.prefix_append names more), fun a ok => by cases ok⟩
    | ok a =>
      cases all a rfl
      obtain ⟨later, ran, front, all⟩ := (next a).notes (log ++ names)
      refine ⟨names ++ later, ?_, (List.prefix_append_right_inj names).mpr front, fun b ok => ?_⟩
      · rw [← List.append_assoc]
        exact ran
      · rw [all b ok]
  · intro b failed
    cases r with
    | error b =>
      cases failed
      obtain ⟨name, member, why⟩ := first.blames b rfl
      exact ⟨name, List.mem_append_left _ member, why⟩
    | ok a =>
      obtain ⟨name, member, why⟩ := (next a).blames b failed
      exact ⟨name, List.mem_append_right _ member, why⟩

theorem last {m : Run (List String) α} {r : Except Breach α} (asks : Asks look names m r) (f : α → β) :
    Asks look names (do return f (← m)) (do return f (← r)) := by
  have bound := bind asks fun a => pure (f a)
  rwa [List.append_nil] at bound

theorem noting (look : Lookup) (name : String) : Asks look [name] (DecisionRules.noting look name) (look name) := by
  constructor
  · intro log
    refine ⟨[name], ?_, List.prefix_rfl, fun _ _ => rfl⟩
    unfold DecisionRules.noting
    rw [runBind]
    exact Run.runBasic (look name) (log ++ [name])
  · exact fun b failed => ⟨name, List.mem_singleton_self name, .inl failed⟩

theorem inserted (look : Lookup) (name : List Char) :
    Asks look [referenceName name] (insertedWith (DecisionRules.noting look) showing name)
      (insertedWith look stringifyChars name) := by
  have looked := noting look (referenceName name)
  unfold insertedWith
  constructor
  · intro log
    obtain ⟨noted, ran, front, all⟩ := looked.notes log
    rw [runBind, ran]
    cases found : look (referenceName name) with
    | error b => exact ⟨noted, rfl, front, fun a ok => by cases ok⟩
    | ok v? =>
      cases all v? found
      refine ⟨_, ?_, List.prefix_rfl, fun _ _ => rfl⟩
      cases v? with
      | none => rfl
      | some u => exact Run.runBasic (stringifyChars u) _
  · intro b failed
    cases found : look (referenceName name) with
    | error c =>
      rw [found] at failed
      cases failed
      exact looked.blames b found
    | ok v? =>
      rw [found] at failed
      cases v? with
      | none => cases failed
      | some u =>
        change u.stringify.map String.toList = .error b at failed
        refine ⟨referenceName name, List.mem_singleton_self _, .inr ⟨u, found, ?_⟩⟩
        cases shown : u.stringify with
        | ok s => simp [shown, Except.map] at failed
        | error c => simpa [shown, Except.map] using failed

theorem filled (look : Lookup) (segments : List Segment) :
    Asks look (Segment.asked segments) (filledWith (DecisionRules.noting look) showing segments)
      (filledWith look stringifyChars segments) := by
  induction segments with
  | nil => exact pure []
  | cons segment rest ih =>
    cases segment with
    | plain c => exact last ih (c :: ·)
    | reference name => exact bind (inserted look name) fun here => last ih (here ++ ·)

theorem text (look : Lookup) (s : String) :
    Asks look (Value.text s).asked (interpolateText (DecisionRules.noting look) showing s)
      (interpolateText look stringifyChars s) := by
  unfold interpolateText Value.asked
  dsimp only
  split
  · rename_i name whole
    rw [whole]
    refine bind (noting look (referenceName name)) fun v? => ?_
    cases v? with
    | some v => exact pure v
    | none => exact pure (Value.text s)
  · exact last (filled look (Segment.cut s.toList)) fun cs => Value.text (String.ofList cs)

mutual
theorem value (look : Lookup) : ∀ v, Asks look (Value.asked v) (interpolate (DecisionRules.noting look) showing v)
    (interpolate look stringifyChars v)
  | .text s => text look s
  | .list items => last (values look items) Value.list
  | .object entries => last (fields look entries) Value.object
  | .null | .bool _ | .int _ | .float _ | .complex _ _ | .pattern _ _ | .callable _ => pure _
theorem values (look : Lookup) : ∀ items, Asks look (Value.askedItems items)
    (interpolateItems (DecisionRules.noting look) showing items) (interpolateItems look stringifyChars items)
  | [] => pure []
  | v :: rest => bind (value look v) fun w => last (values look rest) (w :: ·)
theorem fields (look : Lookup) : ∀ entries, Asks look (Value.askedFields entries)
    (interpolateFields (DecisionRules.noting look) showing entries) (interpolateFields look stringifyChars entries)
  | [] => pure []
  | (k, v) :: rest => bind (value look v) fun w => last (fields look rest) ((k, w) :: ·)
end

end Asks

namespace Scope

/-- Resolving keeps shapes and keys and turns each text into what it becomes by itself. It fails only for a name
that cannot be looked up, or whose value has no text to put in. The names that it looks up are those in the
value, in their order; the scope can do no more than end the row by a failure. -/
theorem resolvedOnce (s : Scope) (v : Value) :
    (∀ w, s.resolve v = .ok w ↔ Interpolates s.lookup v w) ∧
    (∀ b, s.resolve v = .error b → ∃ name ∈ v.asked, s.lookup name = .error b ∨
      ∃ u, s.lookup name = .ok (some u) ∧ u.stringify = .error b) ∧
    interpolate s.lookup stringifyChars v = s.resolve v ∧
    ∃ noted, (interpolate (noting s.lookup) showing v).run [] = (Outcome.ofBreach (s.resolve v), noted) ∧
      noted <+: v.asked ∧ ((∃ w, s.resolve v = .ok w) → noted = v.asked) := by
  have same : interpolate s.lookup stringifyChars v = s.resolve v := interpolateResolves s.lookup v
  have asks := Asks.value s.lookup v
  rw [same] at asks
  obtain ⟨noted, ran, front, all⟩ := asks.notes []
  exact ⟨fun w => ⟨resolveInterpolates, Interpolates.resolves⟩, asks.blames, same, noted, ran, front,
    fun ⟨w, ok⟩ => all w ok⟩

end Scope
end DecisionRules
