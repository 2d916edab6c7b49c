import DecisionRules.Proofs.Outcome
import DecisionRules.Value.Arithmetic

/-! What arithmetic on values gives: integers come from integers alone, and repeated texts and lists have a
count beside them. -/
namespace DecisionRules

/-- Not what arithmetic is refused for: a division by zero, a result that is too large, or the wrong operands -/
def Breach.strange : Breach → Bool
  | .divisionByZero | .overflow | .wrongType => false
  | .badValue | .missingKey | .missingAttribute | .unencodable => true

namespace Numeral
open Breach (strange)

theorem ofIntAvoids (n : Int) : Avoids strange (ofInt n) := by
  unfold ofInt
  split
  · exact .ok _
  · exact .error rfl

theorem toRealAvoids (a : Numeral) : Avoids strange a.toReal := by
  cases a with
  | int n => exact ofIntAvoids n
  | real x => exact .ok x
  | complex re im => exact .error rfl

theorem toComplexAvoids (a : Numeral) : Avoids strange a.toComplex := by
  unfold toComplex
  split
  · exact .ok _
  · exact .bind (toRealAvoids _) fun _ => .ok _

theorem liftAvoids {ints : Int → Int → Except Breach Numeral} {reals : Float → Float → Except Breach Numeral}
    {complexes : Float × Float → Float × Float → Except Breach Numeral}
    (int : ∀ m n, Avoids strange (ints m n)) (real : ∀ x y, Avoids strange (reals x y))
    (complex : ∀ x y, Avoids strange (complexes x y)) (a b : Numeral) :
    Avoids strange (lift ints reals complexes a b) := by
  unfold lift
  split
  · exact int _ _
  · refine .branch ?_ ?_
    · exact .bind (toComplexAvoids a) fun x => .bind (toComplexAvoids b) fun y => complex x y
    · exact .bind (toRealAvoids a) fun x => .bind (toRealAvoids b) fun y => real x y

theorem addAvoids (a b : Numeral) : Avoids strange (add a b) :=
  liftAvoids (fun _ _ => .ok _) (fun _ _ => .ok _) (fun _ _ => .ok _) a b

theorem subAvoids (a b : Numeral) : Avoids strange (sub a b) :=
  liftAvoids (fun _ _ => .ok _) (fun _ _ => .ok _) (fun _ _ => .ok _) a b

theorem mulAvoids (a b : Numeral) : Avoids strange (mul a b) :=
  liftAvoids (fun _ _ => .ok _) (fun _ _ => .ok _) (fun _ _ => .ok _) a b

theorem divComplexAvoids (x y : Float × Float) : Avoids strange (divComplex x y) :=
  .branch (.error rfl) (.branch (.ok _) (.ok _))

theorem divAvoids (a b : Numeral) : Avoids strange (div a b) := by
  refine liftAvoids (fun m n => .branch (.error rfl) ?_) (fun _ _ => .branch (.error rfl) (.ok _))
    (fun x y => .bind (divComplexAvoids x y) fun _ => .ok _) a b
  split
  · exact .ok _
  · exact .error rfl

theorem modAvoids (a b : Numeral) : Avoids strange (mod a b) := by
  refine liftAvoids (fun _ _ => .branch (.error rfl) (.ok _)) (fun x y => .branch (.error rfl) ?_)
    (fun _ _ => .error rfl) a b
  exact .branch (.ok _) (.ok _)

theorem powComplexAvoids (a b : Float × Float) : Avoids strange (powComplex a b) := by
  have polar : Avoids strange (polarPower a b) :=
    .branch (.ok _) (.branch (.branch (.error rfl) (.ok _)) (.ok _))
  have last (p : Float × Float) : Avoids strange
      (if p.1.isInf || p.2.isInf then .error .overflow else pure (complex p.1 p.2) : Except Breach Numeral) :=
    .branch (.error rfl) (.ok _)
  unfold powComplex
  dsimp only
  split
  · split
    · exact .bind (.ok _) last
    · exact .bind (divComplexAvoids _ _) last
  · exact .bind polar last

theorem powRealsAvoids (x y : Float) : Avoids strange (powReals x y) := by
  have complex := powComplexAvoids (x, 0) (y, 0)
  unfold powReals
  dsimp only
  repeat' refine .branch ?_ ?_
  all_goals first | exact complex | exact .ok _ | exact .error rfl

theorem powAvoids (a b : Numeral) : Avoids strange (pow a b) := by
  refine liftAvoids (fun m n => .branch ?_ (.ok _)) powRealsAvoids powComplexAvoids a b
  exact .bind (ofIntAvoids m) fun x => .bind (ofIntAvoids n) fun y => powRealsAvoids x y

theorem liftInt {ints : Int → Int → Except Breach Numeral} {reals : Float → Float → Except Breach Numeral}
    {complexes : Float × Float → Float × Float → Except Breach Numeral} {a b : Numeral} {k : Int}
    (noReal : ∀ x y, reals x y ≠ .ok (.int k)) (noComplex : ∀ x y, complexes x y ≠ .ok (.int k))
    (found : lift ints reals complexes a b = .ok (.int k)) :
    ∃ m n, a = .int m ∧ b = .int n ∧ ints m n = .ok (.int k) := by
  unfold lift at found
  split at found
  · exact ⟨_, _, rfl, rfl, found⟩
  · split at found
    · obtain ⟨x, _, found⟩ := bindAccepts.mp found
      obtain ⟨y, _, found⟩ := bindAccepts.mp found
      exact absurd found (noComplex x y)
    · obtain ⟨x, _, found⟩ := bindAccepts.mp found
      obtain ⟨y, _, found⟩ := bindAccepts.mp found
      exact absurd found (noReal x y)

theorem divRealsReal (x y : Float) (k : Int) : divReals x y ≠ .ok (.int k) := by
  unfold divReals
  split <;> simp

theorem modRealsReal (x y : Float) (k : Int) : modReals x y ≠ .ok (.int k) := by
  unfold modReals
  dsimp only
  split
  · simp
  · split <;> simp

theorem powComplexComplex (x y : Float × Float) (k : Int) : powComplex x y ≠ .ok (.int k) := by
  have last (p : Float × Float) :
      (if p.1.isInf || p.2.isInf then .error .overflow else pure (complex p.1 p.2) : Except Breach Numeral) ≠
        .ok (.int k) := by
    split <;> simp [pure, Except.pure]
  intro found
  unfold powComplex at found
  dsimp only at found
  split at found
  · split at found
    · obtain ⟨p, _, found⟩ := bindAccepts.mp found
      exact last p found
    · obtain ⟨p, _, found⟩ := bindAccepts.mp found
      exact last p found
  · obtain ⟨p, _, found⟩ := bindAccepts.mp found
    exact last p found

theorem powRealsReal (x y : Float) (k : Int) : powReals x y ≠ .ok (.int k) := by
  have complex := powComplexComplex (x, 0) (y, 0) k
  unfold powReals
  dsimp only
  repeat' split
  all_goals first | exact complex | simp

end Numeral

namespace Value

theorem onNumbersFacts {f : Numeral → Numeral → Except Breach Numeral} {v w u : Value}
    (found : onNumbers f v w = .ok u) :
    ∃ a b c, v.numeral? = some a ∧ w.numeral? = some b ∧ f a b = .ok c ∧ u = ofNumeral c := by
  unfold onNumbers at found
  split at found
  · rename_i a b left right
    obtain ⟨c, applied, same⟩ := mapAccepts.mp found
    exact ⟨a, b, c, left, right, applied, same.symm⟩
  · contradiction

theorem onNumbersInt {ints : Int → Int → Except Breach Numeral} {reals : Float → Float → Except Breach Numeral}
    {complexes : Float × Float → Float × Float → Except Breach Numeral} {v w : Value} {k : Int}
    (noReal : ∀ x y, reals x y ≠ .ok (.int k)) (noComplex : ∀ x y, complexes x y ≠ .ok (.int k))
    (found : onNumbers (Numeral.lift ints reals complexes) v w = .ok (.int k)) :
    ∃ m n, v.numeral? = some (.int m) ∧ w.numeral? = some (.int n) ∧ ints m n = .ok (.int k) := by
  obtain ⟨a, b, c, left, right, applied, same⟩ := onNumbersFacts found
  cases c <;> cases same
  obtain ⟨m, n, rfl, rfl, made⟩ := Numeral.liftInt noReal noComplex applied
  exact ⟨m, n, left, right, made⟩

theorem repeatTextFacts {s : String} {n : Int} {u : Value} (found : repeatText s n = .ok u) :
    ∃ t : String, u = .text t ∧ t.length = n.toNat * s.length := by
  unfold repeatText at found
  obtain ⟨k, counted, found⟩ := bindAccepts.mp found
  cases found
  unfold repetitions at counted
  dsimp only at counted
  split at counted
  · contradiction
  · cases counted
    refine ⟨_, rfl, ?_⟩
    split
    · rename_i empty
      simp_all
    · simp [String.length_toList]

theorem repeatListFacts {xs : List Value} {n : Int} {u : Value} (found : repeatList xs n = .ok u) :
    ∃ items, u = .list items ∧ items.length = n.toNat * xs.length ∧ ∀ v ∈ items, v ∈ xs := by
  unfold repeatList at found
  obtain ⟨k, counted, found⟩ := bindAccepts.mp found
  cases found
  unfold repetitions at counted
  dsimp only at counted
  split at counted
  · contradiction
  · cases counted
    refine ⟨_, rfl, ?_, ?_⟩
    · split
      · rename_i empty
        simp_all
      · simp
    · split
      · simp
      · intro v member
        obtain ⟨ys, copy, inside⟩ := List.mem_flatten.mp member
        rw [List.eq_of_mem_replicate copy] at inside
        exact inside

theorem onNumbersAvoids {f : Numeral → Numeral → Except Breach Numeral}
    (avoids : ∀ a b, Avoids Breach.strange (f a b)) (v w : Value) : Avoids Breach.strange (onNumbers f v w) := by
  unfold onNumbers
  split
  · exact .map _ (avoids _ _)
  · exact .error rfl

theorem addAvoids (v w : Value) : Avoids Breach.strange (add v w) := by
  unfold add
  split
  · exact .ok _
  · exact .ok _
  · exact onNumbersAvoids Numeral.addAvoids _ _

theorem repetitionsAvoid (n : Int) : Avoids Breach.strange (repetitions n) := .branch (.error rfl) (.ok _)

theorem mulAvoids (v w : Value) : Avoids Breach.strange (mul v w) := by
  have text (s : String) (n : Int) : Avoids Breach.strange (repeatText s n) :=
    .bind (repetitionsAvoid n) fun _ => .ok _
  have list (xs : List Value) (n : Int) : Avoids Breach.strange (repeatList xs n) :=
    .bind (repetitionsAvoid n) fun _ => .ok _
  unfold mul
  split
  · split
    · exact text _ _
    · exact .error rfl
  · split
    · exact list _ _
    · exact .error rfl
  · split
    · exact text _ _
    · exact .error rfl
  · split
    · exact list _ _
    · exact .error rfl
  · exact onNumbersAvoids Numeral.mulAvoids _ _

/-- The filling of a template may break in other ways. -/
theorem modAvoids {v : Value} (other : ∀ s, v ≠ .text s) (w : Value) : Avoids Breach.strange (mod v w) := by
  unfold mod
  split
  · exact absurd rfl (other _)
  · exact onNumbersAvoids Numeral.modAvoids _ _

/-- Of two operands one is repeated as often as the other counts. -/
def Repeats (v w sequence : Value) (n : Int) : Prop :=
  v = sequence ∧ w.count? = some n ∨ w = sequence ∧ v.count? = some n

theorem mulFacts {v w u : Value} (found : mul v w = .ok u) :
    (∃ s n, Repeats v w (.text s) n ∧ repeatText s n = .ok u) ∨
    (∃ xs n, Repeats v w (.list xs) n ∧ repeatList xs n = .ok u) ∨ onNumbers Numeral.mul v w = .ok u := by
  unfold mul at found
  split at found
  · split at found
    · exact .inl ⟨_, _, .inl ⟨rfl, ‹_›⟩, found⟩
    · contradiction
  · split at found
    · exact .inr (.inl ⟨_, _, .inl ⟨rfl, ‹_›⟩, found⟩)
    · contradiction
  · split at found
    · exact .inl ⟨_, _, .inr ⟨rfl, ‹_›⟩, found⟩
    · contradiction
  · split at found
    · exact .inr (.inl ⟨_, _, .inr ⟨rfl, ‹_›⟩, found⟩)
    · contradiction
  · exact .inr (.inr found)

theorem addFacts {v w u : Value} (found : add v w = .ok u) :
    (∃ s t, v = .text s ∧ w = .text t ∧ u = .text (s ++ t)) ∨
    (∃ xs ys, v = .list xs ∧ w = .list ys ∧ u = .list (xs ++ ys)) ∨ onNumbers Numeral.add v w = .ok u := by
  unfold add at found
  split at found
  · cases found
    exact .inl ⟨_, _, rfl, rfl, rfl⟩
  · cases found
    exact .inr (.inl ⟨_, _, rfl, rfl, rfl⟩)
  · exact .inr (.inr found)

theorem modFacts {v w u : Value} (found : mod v w = .ok u) :
    (∃ template s, v = .text template ∧ u = .text s) ∨ onNumbers Numeral.mod v w = .ok u := by
  unfold mod at found
  split at found
  · obtain ⟨s, _, same⟩ := mapAccepts.mp found
    exact .inl ⟨_, s, rfl, same.symm⟩
  · exact .inr found

end Value
end DecisionRules
