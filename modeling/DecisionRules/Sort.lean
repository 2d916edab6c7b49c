/-!
Sorting of lists. What has the same rank stays in its order.
-/
namespace DecisionRules

def insertSorted {α : Type} (le : α → α → Bool) (a : α) : List α → List α
  | [] => [a]
  | b :: rest => if le a b then a :: b :: rest else b :: insertSorted le a rest

def sortBy {α : Type} (le : α → α → Bool) : List α → List α
  | [] => []
  | a :: rest => insertSorted le a (sortBy le rest)

end DecisionRules
