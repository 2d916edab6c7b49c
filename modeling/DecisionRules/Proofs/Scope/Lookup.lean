import DecisionRules.Proofs.Condition.Operands
import DecisionRules.Proofs.Expression.Substitution
import DecisionRules.Proofs.Scope
import DecisionRules.Proofs.Scope.Path

/-! Names looked up. A name that is bound stands for its value, and any other for what its path leads to below the
variables or the facts. The lookup fails if, and only if, a path that is tried stumbles over digits that cannot be
read as an index; whoever looks a name up then fails with it. -/
namespace DecisionRules

theorem pathPartsAfter {cs rest : List Char} {c : Char} (dotted : cs.dropWhile (· != '.') = c :: rest) :
    pathParts cs = cs.takeWhile (· != '.') :: pathParts rest := by
  induction cs with
  | nil => cases dotted
  | cons d cs ih =>
    by_cases dot : d = '.'
    · subst dot
      cases dotted
      rfl
    · have tail := ih (by simpa [dot] using dotted)
      simp [pathParts, dot, tail]

theorem Assoc.memMerge {α : Type} {m extra : Assoc α} {e : String × α} (there : e ∈ merge m extra) :
    e ∈ m ∨ e ∈ extra := by
  induction extra generalizing m with
  | nil => exact .inl there
  | cons f rest ih =>
    rcases ih there with before | after
    · rcases memSet before with before | rfl
      · exact .inl before
      · exact .inr List.mem_cons_self
    · exact .inr (List.mem_cons_of_mem _ after)

namespace Scope
open DecisionRules.Path (Leads Lost Unreadable)
variable {s : Scope} {name : String} {v : Value}

/-- Where a dotted name is looked for, one place after the other, with the path that it is there. -/
def trails (s : Scope) (cs : List Char) : List (Fields × List (List Char)) :=
  let head := String.ofList (cs.takeWhile (· != '.'))
  match cs.dropWhile (· != '.') with
  | [] | [_] => []
  | _ :: rest =>
    if head == "data" then [(s.data, pathParts rest)]
    else if head == "variables" || head == "vars" then [(s.snapshot, pathParts rest)]
    else [(s.snapshot, pathParts cs), (s.data, pathParts cs)]

/-- The first place from which the path leads anywhere. -/
inductive Reaches : List (Fields × List (List Char)) → Value → Prop where
  | here {root parts rest v} (leads : Leads (.object root) parts v) : Reaches ((root, parts) :: rest) v
  | later {root parts rest v} (lost : Lost (.object root) parts) (reaches : Reaches rest v) :
      Reaches ((root, parts) :: rest) v

/-- At the first place from which the path is not lost, it stumbles. -/
inductive Trips : List (Fields × List (List Char)) → Prop where
  | here {root parts rest} (stumbles : Path.Stumbles (.object root) parts) : Trips ((root, parts) :: rest)
  | later {root parts rest} (lost : Lost (.object root) parts) (trips : Trips rest) :
      Trips ((root, parts) :: rest)

/-- The value that a name stands for: it is bound, or it is a fact, or its path leads there. -/
inductive Finds (s : Scope) (name : String) : Value → Prop where
  | bound {v : Value} (found : s.binding? name = some v) : Finds s name v
  | fact {v : Value} (unbound : s.binding? name = none) (found : Assoc.get? s.data name = some v) : Finds s name v
  | path {v : Value} (unbound : s.binding? name = none) (unknown : Assoc.get? s.data name = none)
      (reaches : Reaches (s.trails name.toList) v) : Finds s name v

/-- The name is neither bound nor a fact, and its path stumbles. -/
structure Stumbles (s : Scope) (name : String) : Prop where
  unbound : s.binding? name = none
  unknown : Assoc.get? s.data name = none
  trips : Trips (s.trails name.toList)

/-- The value is, or is inside of, a fact or a variable of some layer. -/
def Stores (s : Scope) (v : Value) : Prop :=
  ∃ layer ∈ [s.data, s.caller, s.rule, s.globals], ∃ e ∈ layer, Value.Within v e.2

/-! Lookups -/

def follow : List (Fields × List (List Char)) → Except Breach (Option Value)
  | [] => .ok none
  | (root, parts) :: rest => do
    match ← walk (.object root) parts with
    | some v => return some v
    | none => follow rest

theorem followOne (root : Fields) (parts : List (List Char)) : follow [(root, parts)] = walk (.object root) parts := by
  unfold follow
  cases walk (.object root) parts with
  | error b => rfl
  | ok found => cases found <;> rfl

theorem lookupPathFollows (s : Scope) (cs : List Char) : s.lookupPath cs = follow (s.trails cs) := by
  unfold lookupPath trails
  match cs.dropWhile (· != '.') with
  | [] | [_] => rfl
  | _ :: d :: rest =>
    dsimp only
    split
    · exact (followOne _ _).symm
    · split
      · exact (followOne _ _).symm
      · rewrite [follow, followOne]
        rfl

section
variable {trails : List (Fields × List (List Char))}

theorem Reaches.follows (reaches : Reaches trails v) : follow trails = .ok (some v) := by
  induction reaches with
  | here leads =>
    rw [follow, leads.walks]
    rfl
  | later lost _ ih =>
    rw [follow, Path.lostIff.mpr lost]
    exact ih

theorem Trips.follows (trips : Trips trails) : follow trails = .error .badValue := by
  induction trips with
  | here stumbles =>
    rw [follow, stumbles.walks]
    rfl
  | later lost _ ih =>
    rw [follow, Path.lostIff.mpr lost]
    exact ih

theorem followCases (trails : List (Fields × List (List Char))) :
    (∃ v, Reaches trails v) ∨ Trips trails ∨ follow trails = .ok none := by
  induction trails with
  | nil => exact .inr (.inr rfl)
  | cons trail rest ih =>
    obtain ⟨root, parts⟩ := trail
    rcases Path.walkCases (.object root) parts with ⟨v, leads⟩ | stumbles | nothing
    · exact .inl ⟨v, .here leads⟩
    · exact .inr (.inl (.here stumbles))
    · have lost := Path.lostIff.mp nothing
      rcases ih with ⟨v, reaches⟩ | trips | ends
      · exact .inl ⟨v, .later lost reaches⟩
      · exact .inr (.inl (.later lost trips))
      · refine .inr (.inr ?_)
        rw [follow, nothing]
        exact ends

theorem Reaches.somewhere (reaches : Reaches trails v) :
    ∃ root parts, (root, parts) ∈ trails ∧ Leads (.object root) parts v := by
  induction reaches with
  | here leads => exact ⟨_, _, List.mem_cons_self, leads⟩
  | later _ _ ih =>
    obtain ⟨root, parts, member, leads⟩ := ih
    exact ⟨root, parts, List.mem_cons_of_mem _ member, leads⟩

theorem Trips.somewhere (trips : Trips trails) :
    ∃ root parts, (root, parts) ∈ trails ∧ Path.Stumbles (.object root) parts := by
  induction trips with
  | here stumbles => exact ⟨_, _, List.mem_cons_self, stumbles⟩
  | later _ _ ih =>
    obtain ⟨root, parts, member, stumbles⟩ := ih
    exact ⟨root, parts, List.mem_cons_of_mem _ member, stumbles⟩

end

theorem Finds.looks (finds : s.Finds name v) : s.lookup name = .ok (some v) := by
  cases finds with
  | bound found => simp only [lookup, found]
  | fact unbound found => simp only [lookup, unbound, found]
  | path unbound unknown reaches =>
    simp only [lookup, unbound, unknown]
    rw [lookupPathFollows, reaches.follows]

theorem Stumbles.looks (stumbles : s.Stumbles name) : s.lookup name = .error .badValue := by
  simp only [lookup, stumbles.unbound, stumbles.unknown]
  rw [lookupPathFollows, stumbles.trips.follows]

theorem lookupCases (s : Scope) (name : String) :
    (∃ v, s.Finds name v) ∨ s.Stumbles name ∨ s.lookup name = .ok none := by
  cases bound : s.binding? name with
  | some v => exact .inl ⟨v, .bound bound⟩
  | none => cases known : Assoc.get? s.data name with
    | some v => exact .inl ⟨v, .fact bound known⟩
    | none =>
      rcases followCases (s.trails name.toList) with ⟨v, reaches⟩ | trips | nothing
      · exact .inl ⟨v, .path bound known reaches⟩
      · exact .inr (.inl ⟨bound, known, trips⟩)
      · refine .inr (.inr ?_)
        simp only [lookup, bound, known]
        rw [lookupPathFollows, nothing]

theorem findsIff : s.lookup name = .ok (some v) ↔ s.Finds name v := by
  refine ⟨fun looked => ?_, Finds.looks⟩
  rcases lookupCases s name with ⟨w, finds⟩ | stumbles | nothing
  · cases looked.symm.trans finds.looks
    exact finds
  · cases looked.symm.trans stumbles.looks
  · cases looked.symm.trans nothing

theorem stumblesIff {b : Breach} : s.lookup name = .error b ↔ s.Stumbles name ∧ b = .badValue := by
  constructor
  · intro looked
    rcases lookupCases s name with ⟨w, finds⟩ | stumbles | nothing
    · cases looked.symm.trans finds.looks
    · cases looked.symm.trans stumbles.looks
      exact ⟨stumbles, rfl⟩
    · cases looked.symm.trans nothing
  · rintro ⟨stumbles, rfl⟩
    exact stumbles.looks

/-! What is found -/

theorem trailsFacts {cs : List Char} {root : Fields} {parts : List (List Char)}
    (member : (root, parts) ∈ s.trails cs) :
    (root = s.data ∨ root = s.snapshot) ∧ parts ≠ [] ∧ ∀ part ∈ parts, part ∈ pathParts cs := by
  unfold trails at member
  match dotted : cs.dropWhile (· != '.') with
  | [] | [_] => simp [dotted] at member
  | c :: d :: rest =>
    have inside : ∀ part ∈ pathParts (d :: rest), part ∈ pathParts cs := by
      rw [pathPartsAfter dotted]
      exact fun part member => List.mem_cons_of_mem _ member
    simp only [dotted] at member
    split at member
    · cases List.mem_singleton.mp member
      exact ⟨.inl rfl, pathPartsFilled _, inside⟩
    · split at member
      · cases List.mem_singleton.mp member
        exact ⟨.inr rfl, pathPartsFilled _, inside⟩
      · rcases List.mem_cons.mp member with first | member
        · cases first
          exact ⟨.inr rfl, pathPartsFilled _, fun _ member => member⟩
        · cases List.mem_singleton.mp member
          exact ⟨.inl rfl, pathPartsFilled _, fun _ member => member⟩

theorem snapshotMember {e : String × Value} (member : e ∈ s.snapshot) :
    e ∈ s.caller ∨ e ∈ s.rule ∨ e ∈ s.globals := by
  rcases Assoc.memMerge member with below | above
  · rcases Assoc.memMerge below with last | middle
    · exact .inr (.inr last)
    · exact .inr (.inl middle)
  · exact .inl above

theorem bindingMember (found : s.binding? name = some v) :
    (name, v) ∈ s.caller ∨ (name, v) ∈ s.rule ∨ (name, v) ∈ s.globals := by
  unfold binding? at found
  split at found
  · rename_i there
    cases found
    exact .inl (Assoc.memOfGet there)
  · split at found
    · rename_i there
      cases found
      exact .inr (.inl (Assoc.memOfGet there))
    · exact .inr (.inr (Assoc.memOfGet found))

theorem Finds.stored (finds : s.Finds name v) : s.Stores v := by
  have layered {e : String × Value} (member : e ∈ s.caller ∨ e ∈ s.rule ∨ e ∈ s.globals)
      (within : Value.Within v e.2) : s.Stores v := by
    rcases member with member | member | member
    · exact ⟨s.caller, by simp, e, member, within⟩
    · exact ⟨s.rule, by simp, e, member, within⟩
    · exact ⟨s.globals, by simp, e, member, within⟩
  cases finds with
  | bound found => exact layered (bindingMember found) (.self v)
  | fact _ found => exact ⟨s.data, by simp, _, Assoc.memOfGet found, .self v⟩
  | path _ _ reaches =>
    obtain ⟨root, parts, member, leads⟩ := reaches.somewhere
    obtain ⟨roots, filled, _⟩ := trailsFacts member
    cases leads with
    | here => contradiction
    | step first next => cases first with
      | field found =>
        have within := next.within (.self v)
        rcases roots with rfl | rfl
        · exact ⟨s.data, by simp, _, Assoc.memOfGet found, within⟩
        · exact layered (snapshotMember (Assoc.memOfGet found)) within

/-- A name without unreadable parts never stumbles. -/
theorem Stumbles.unreadable (stumbles : s.Stumbles name) : ∃ part ∈ pathParts name.toList, Unreadable part := by
  obtain ⟨root, parts, member, stumbles⟩ := stumbles.trips.somewhere
  obtain ⟨part, inside, unreadable⟩ := stumbles.somewhere
  exact ⟨part, (trailsFacts member).2.2 part inside, unreadable⟩

/-! Texts whose references stand for nothing -/

/-- No reference in the text stands for a value. -/
def Unresolved (s : Scope) (text : String) : Prop :=
  ∀ n, .reference n ∈ Segment.cut text.toList → ∀ v, ¬ s.Finds (referenceName n) v

/-- Some reference in the text stumbles. -/
def Snags (s : Scope) (text : String) : Prop :=
  ∃ n, .reference n ∈ Segment.cut text.toList ∧ s.Stumbles (referenceName n)

end Scope

namespace Segment

theorem Parts.refill {cs : List Char} {segments : List Segment} (parts : Parts cs segments) :
    Expression.fill (fun name => (Segment.reference name).chars) segments = cs := by
  induction parts with
  | nil => rfl
  | reference _ _ ih => rw [Expression.fill, ih]
  | plain _ _ ih => rw [Expression.fill, ih]

theorem replaceFails {f : List Char → Except Breach (List Char)} {b : Breach} {segments : List Segment}
    (each : ∀ name, .reference name ∈ segments → f name = .ok (reference name).chars ∨ f name = .error b)
    (fails : ∃ name, .reference name ∈ segments ∧ f name = .error b) : replaceAll f segments = .error b := by
  induction segments with
  | nil => simp at fails
  | cons segment rest ih =>
    have later : (∃ name, .reference name ∈ rest ∧ f name = .error b) → replaceAll f rest = .error b :=
      ih fun name member => each name (List.mem_cons_of_mem _ member)
    obtain ⟨name, member, failed⟩ := fails
    cases segment with
    | plain c =>
      have member : .reference name ∈ rest := by simpa using member
      rw [replaceAll, later ⟨name, member, failed⟩]
      rfl
    | reference first =>
      rw [replaceAll]
      rcases each first List.mem_cons_self with stays | also
      · rw [stays]
        rcases List.mem_cons.mp member with same | member
        · cases same
          cases stays.symm.trans failed
        · rw [later ⟨name, member, failed⟩]
          rfl
      · rw [also]
        rfl

end Segment

namespace Scope
variable {s : Scope} {text : String}

theorem insertedUnresolved (render : Value → Except Breach (List Char)) {n : List Char}
    (nothing : ∀ v, ¬ s.Finds (referenceName n) v) :
    (¬ s.Stumbles (referenceName n) ∧ inserted s.lookup render n = .ok (Segment.reference n).chars) ∨
    (s.Stumbles (referenceName n) ∧ inserted s.lookup render n = .error .badValue) := by
  unfold inserted
  rcases lookupCases s (referenceName n) with ⟨v, finds⟩ | stumbles | missing
  · exact absurd finds (nothing v)
  · rw [stumbles.looks]
    exact .inr ⟨stumbles, rfl⟩
  · rw [missing]
    refine .inl ⟨fun stumbles => ?_, rfl⟩
    cases missing.symm.trans stumbles.looks

theorem Unresolved.replaced (unresolved : s.Unresolved text) (render : Value → Except Breach (List Char)) :
    (¬ s.Snags text → Segment.replaceAll (inserted s.lookup render) (Segment.cut text.toList) = .ok text.toList) ∧
    (s.Snags text → Segment.replaceAll (inserted s.lookup render) (Segment.cut text.toList) = .error .badValue) := by
  have each (n : List Char) (member : .reference n ∈ Segment.cut text.toList) :=
    insertedUnresolved render (unresolved n member)
  constructor
  · intro smooth
    rw [replaceAllFills fun name => (Segment.reference name).chars]
    · rw [(Segment.cutParts text.toList).refill]
    · intro n member
      rcases each n member with ⟨_, stays⟩ | ⟨stumbles, _⟩
      · exact stays
      · exact absurd ⟨n, member, stumbles⟩ smooth
  · rintro ⟨n, member, stumbles⟩
    refine Segment.replaceFails (fun n member => (each n member).imp And.right And.right) ⟨n, member, ?_⟩
    rcases each n member with ⟨smooth, _⟩ | ⟨_, fails⟩
    · exact absurd stumbles smooth
    · exact fails

theorem Unresolved.resolved (unresolved : s.Unresolved text) :
    (¬ s.Snags text → s.resolve (.text text) = .ok (.text text)) ∧
    (s.Snags text → s.resolve (.text text) = .error .badValue) := by
  change (_ → resolveText s.lookup text = _) ∧ (_ → resolveText s.lookup text = _)
  by_cases whole : ∃ n, Segment.Spans n text.toList
  · obtain ⟨n, whole⟩ := whole
    have cut := Segment.spansIff.mp whole
    have member : .reference n ∈ Segment.cut text.toList := cut ▸ List.mem_cons_self
    constructor
    · intro smooth
      refine becomesIff.mpr (.unbound whole ?_)
      rcases lookupCases s (referenceName n) with ⟨v, finds⟩ | stumbles | missing
      · exact absurd finds (unresolved n member v)
      · exact absurd ⟨n, member, stumbles⟩ smooth
      · exact missing
    · rintro ⟨m, other, stumbles⟩
      rw [cut, List.mem_singleton] at other
      cases other
      simp only [resolveText, cut, stumbles.looks]
      rfl
  · have mixed : ∀ n, ¬ Segment.Spans n text.toList := fun n spans => whole ⟨n, spans⟩
    obtain ⟨stays, fails⟩ := unresolved.replaced stringifyChars
    rw [resolveMixed mixed]
    constructor
    · intro smooth
      rw [stays smooth]
      simp [Except.map]
    · intro snags
      rw [fails snags]
      rfl

theorem Unresolved.substituted (unresolved : s.Unresolved text) :
    (¬ s.Snags text → s.substituteLiterals text = .ok text) ∧
    (s.Snags text → s.substituteLiterals text = .error .badValue) := by
  obtain ⟨stays, fails⟩ := unresolved.replaced (Text.Json.chars Text.Json.spaced)
  unfold substituteLiterals
  constructor
  · intro smooth
    rw [stays smooth]
    simp [bind, Except.bind, pure, Except.pure]
  · intro snags
    rw [fails snags]
    rfl

end Scope

namespace Evaluator

theorem Ready.existence {e : Evaluator} {token : Token Float} {depth : Nat} {f : Frame}
    (ready : e.Ready token depth f) (name : String) :
    (e.evaluateNode token depth (.ofValue (Condition.existing name))).run f =
      ((Outcome.ofBreach (f.scope.lookup name)).map fun found => .existence (some name) found.isSome, f) := by
  have tree : Condition.ofValue (Condition.existing name) = .existence (.text name) := rfl
  rw [tree, evaluateNode, Run.runThen ready.enter, evaluateExistence,
    Run.runThen (Run.runGet f), Run.runBind, Run.runBasic]
  cases f.scope.lookup name <;> rfl

end Evaluator

namespace Scope

/-- A lookup gives what the name stands for, which is stored in the scope, or fails where the name stumbles, which
takes a part of digits that cannot be read. A node asks for a name's presence with as much success, and texts
without a reference to a value stay as they are, unless one of their references stumbles. -/
theorem lookupAnswers (s : Scope) (name : String) :
    (∀ v, s.lookup name = .ok (some v) ↔ s.Finds name v) ∧
    (∀ b, s.lookup name = .error b ↔ s.Stumbles name ∧ b = .badValue) ∧
    (∀ v, s.Finds name v → s.Stores v) ∧
    (s.Stumbles name → ∃ part ∈ pathParts name.toList, Path.Unreadable part) ∧
    (∀ (e : Evaluator) (token : Token Float) (depth : Nat) (f : Frame), e.Ready token depth f → f.scope = s →
      (¬ s.Stumbles name → ∃ b, e.Tells token depth f (Condition.existing name) b ∧
        (b = true ↔ ∃ v, s.Finds name v)) ∧
      (s.Stumbles name → (e.evaluateNode token depth (.ofValue (Condition.existing name))).run f =
        (.error (.breach .badValue), f))) ∧
    ∀ text, s.Unresolved text →
      (¬ s.Snags text → s.resolve (.text text) = .ok (.text text) ∧ s.substituteLiterals text = .ok text) ∧
      (s.Snags text → s.resolve (.text text) = .error .badValue ∧
        s.substituteLiterals text = .error .badValue) := by
  refine ⟨fun v => findsIff, fun b => stumblesIff, fun v finds => finds.stored, fun stumbles => stumbles.unreadable,
    ?_, fun text unresolved => ?_⟩
  · rintro e token depth f ready rfl
    have ran := ready.existence name
    constructor
    · intro smooth
      rcases lookupCases f.scope name with ⟨v, finds⟩ | stumbles | missing
      · rw [finds.looks] at ran
        exact ⟨true, ⟨_, ran, rfl⟩, by simpa using ⟨v, finds⟩⟩
      · exact absurd stumbles smooth
      · rw [missing] at ran
        refine ⟨false, ⟨_, ran, rfl⟩, iff_of_false nofun ?_⟩
        rintro ⟨v, finds⟩
        cases missing.symm.trans finds.looks
    · intro stumbles
      rw [ran, stumbles.looks]
      rfl
  · obtain ⟨resolves, fails⟩ := unresolved.resolved
    obtain ⟨writes, fails'⟩ := unresolved.substituted
    exact ⟨fun smooth => ⟨resolves smooth, writes smooth⟩, fun snags => ⟨fails snags, fails' snags⟩⟩

/-- A superscript is a digit but no index: asking for it in a list fails. -/
theorem superscriptFails :
    let s : Scope := ⟨⟨[("a", .list [.int 1])], [], []⟩, [], []⟩
    let f : Frame := { Evaluator.trialFrame with scope := s }
    s.lookup "a.²" = .error .badValue ∧
      (Evaluator.trial.evaluateNode (.root 0 none "rule") 1 (.ofValue (Condition.existing "a.²"))).run f =
        (.error (.breach .badValue), f) ∧
      s.substituteLiterals "$\x7ba.²\x7d == 1" = .error .badValue := by
  intro s f
  have looked : s.lookup "a.²" = .error .badValue := rfl
  have ready : Evaluator.trial.Ready (.root 0 none "rule") 1 f := ⟨by decide, by decide +kernel⟩
  refine ⟨looked, ?_, by decide +kernel⟩
  rw [ready.existence]
  rfl

end Scope
end DecisionRules
