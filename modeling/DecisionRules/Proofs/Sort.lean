import DecisionRules.Sort

/-! A sorted list has the elements of the list that was sorted, in order; and to leave some of them out
before sorting or after it is the same. -/
namespace DecisionRules
variable {α : Type}

theorem insertFirst {le : α → α → Bool} {a b : α} (first : le a b = true) (rest : List α) :
    insertSorted le a (b :: rest) = a :: b :: rest := if_pos first

theorem insertLater {le : α → α → Bool} {a b : α} (later : ¬ le a b = true) (rest : List α) :
    insertSorted le a (b :: rest) = b :: insertSorted le a rest := if_neg later

theorem insertSortedPerm (le : α → α → Bool) (a : α) (l : List α) :
    (insertSorted le a l).Perm (a :: l) := by
  induction l with
  | nil => exact .refl _
  | cons b rest ih =>
    unfold insertSorted
    split
    · exact .refl _
    · exact (ih.cons b).trans (.swap a b rest)

theorem sortByPerm (le : α → α → Bool) (l : List α) : (sortBy le l).Perm l := by
  induction l with
  | nil => exact .refl _
  | cons a rest ih => exact (insertSortedPerm le a _).trans (ih.cons a)

section
variable {le : α → α → Bool} (total : ∀ a b, le a b = true ∨ le b a = true)
  (trans : ∀ a b c, le a b = true → le b c = true → le a c = true)
include total trans

theorem insertSortedSorted (a : α) {l : List α} (sorted : l.Pairwise fun b c => le b c = true) :
    (insertSorted le a l).Pairwise fun b c => le b c = true := by
  induction l with
  | nil => exact List.pairwise_singleton _ a
  | cons b rest ih =>
    obtain ⟨least, tail⟩ := List.pairwise_cons.mp sorted
    unfold insertSorted
    split
    · rename_i first
      refine List.pairwise_cons.mpr ⟨?_, sorted⟩
      exact List.forall_mem_cons.mpr ⟨first, fun c member => trans a b c first (least c member)⟩
    · rename_i later
      refine List.pairwise_cons.mpr ⟨fun c member => ?_, ih tail⟩
      rcases List.mem_cons.mp ((insertSortedPerm le a rest).mem_iff.mp member) with rfl | member
      · exact (total b c).resolve_right later
      · exact least c member

theorem sortBySorted (l : List α) : (sortBy le l).Pairwise fun b c => le b c = true := by
  induction l with
  | nil => exact .nil
  | cons a rest ih => exact insertSortedSorted total trans a ih

/-- What has the same rank keeps its order, whatever order that is. -/
theorem insertSortedStable {before : α → α → Prop} {a : α} {l : List α} (first : ∀ b ∈ l, before a b)
    (sorted : l.Pairwise fun b c => le b c = true ∧ (le c b = true → before b c)) :
    (insertSorted le a l).Pairwise fun b c => le b c = true ∧ (le c b = true → before b c) := by
  induction l with
  | nil => exact List.pairwise_singleton _ a
  | cons b rest ih =>
    obtain ⟨least, tail⟩ := List.pairwise_cons.mp sorted
    obtain ⟨here, later⟩ := List.forall_mem_cons.mp first
    by_cases front : le a b = true
    · rw [insertFirst front]
      refine List.pairwise_cons.mpr ⟨List.forall_mem_cons.mpr ⟨⟨front, fun _ => here⟩, fun c member => ?_⟩, sorted⟩
      exact ⟨trans a b c front (least c member).1, fun _ => later c member⟩
    · rw [insertLater front]
      refine List.pairwise_cons.mpr ⟨fun c member => ?_, ih later tail⟩
      rcases List.mem_cons.mp ((insertSortedPerm le a rest).mem_iff.mp member) with rfl | member
      · exact ⟨(total b c).resolve_right front, fun back => absurd back front⟩
      · exact least c member

theorem sortByStable {before : α → α → Prop} {l : List α} (ordered : l.Pairwise before) :
    (sortBy le l).Pairwise fun a b => le a b = true ∧ (le b a = true → before a b) := by
  induction l with
  | nil => exact .nil
  | cons a rest ih =>
    obtain ⟨first, later⟩ := List.pairwise_cons.mp ordered
    refine insertSortedStable total trans (fun b member => ?_) (ih later)
    exact first b ((sortByPerm le rest).mem_iff.mp member)

omit total in
theorem insertSortedFilter {p : α → Bool} {a : α} (kept : p a = true) {l : List α}
    (sorted : l.Pairwise fun b c => le b c = true) :
    (insertSorted le a l).filter p = insertSorted le a (l.filter p) := by
  induction l with
  | nil => simp [insertSorted, kept]
  | cons b rest ih =>
    obtain ⟨least, tail⟩ := List.pairwise_cons.mp sorted
    by_cases first : le a b = true
    · rw [insertFirst first, List.filter_cons_of_pos kept]
      -- whatever comes first after the others are left out, it is not before what comes first now
      cases others : (b :: rest).filter p with
      | nil => rfl
      | cons c more =>
        have member : c ∈ b :: rest := (List.mem_filter.mp (others ▸ List.mem_cons_self)).1
        have before : le a c = true := by
          rcases List.mem_cons.mp member with rfl | member
          · exact first
          · exact trans a b c first (least c member)
        rw [insertFirst before]
    · rw [insertLater first]
      cases here : p b with
      | true =>
        rw [List.filter_cons_of_pos here, List.filter_cons_of_pos here, ih tail, insertLater first]
      | false =>
        have out : ¬ p b = true := by simp [here]
        rw [List.filter_cons_of_neg out, List.filter_cons_of_neg out, ih tail]

theorem sortByFilter (p : α → Bool) (l : List α) : sortBy le (l.filter p) = (sortBy le l).filter p := by
  induction l with
  | nil => rfl
  | cons a rest ih =>
    cases kept : p a with
    | true =>
      rw [List.filter_cons_of_pos kept, sortBy, sortBy, ih,
        insertSortedFilter trans kept (sortBySorted total trans rest)]
    | false =>
      have out : ¬ p a = true := by simp [kept]
      have gone (l : List α) : (insertSorted le a l).filter p = l.filter p := by
        induction l with
        | nil => simp [insertSorted, out]
        | cons b rest ih =>
          unfold insertSorted
          split
          · exact List.filter_cons_of_neg out
          · simp only [List.filter_cons, ih]
      rw [List.filter_cons_of_neg out, sortBy, gone, ih]

end
end DecisionRules
