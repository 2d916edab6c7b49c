import DecisionRules.Pattern.Class

/-!
Patterns. A pattern is a tree of character tests, anchors, repetitions, groups and looks around; the
flags in force at a place are already part of its nodes.
-/
namespace DecisionRules.Pattern

inductive Anchor where
  | textStart
  | lineStart
  | textEnd
  | finalEnd
  | lineEnd
  | boundary (ascii negated : Bool)
  deriving DecidableEq, Repr

inductive Greed where
  | greedy
  | lazy
  | possessive
  deriving DecidableEq, Repr

inductive Direction where
  | ahead
  | behind (width : Nat)
  deriving DecidableEq, Repr

inductive Node where
  | char (test : CharTest)
  | anchor (a : Anchor)
  | sequence (items : List Node)
  | choice (branches : List Node)
  | loop (greed : Greed) (min : Nat) (max : Option Nat) (body : Node)
  | capture (index : Nat) (body : Node)
  | atomic (body : Node)
  | look (direction : Direction) (negated : Bool) (body : Node)
  | reference (index : Nat) (case : CaseMode)
  | conditional (index : Nat) (present absent : Node)
  | never
  deriving Inhabited

structure Width where
  least : Nat
  greatest : Nat
  deriving DecidableEq, Repr

/-- Stands for an unbounded repetition; widths are cut off here. -/
def unbounded : Nat := 4294967295

def Width.clamp (w : Width) : Width := ⟨min w.least (unbounded - 1), min w.greatest unbounded⟩
def Width.add (v w : Width) : Width := (⟨v.least + w.least, v.greatest + w.greatest⟩ : Width).clamp
def Width.either (v w : Width) : Width := ⟨min v.least w.least, max v.greatest w.greatest⟩
def Width.zero : Width := ⟨0, 0⟩

mutual
def Node.width (groups : List Width) : Node → Width
  | .char _ => ⟨1, 1⟩
  | .anchor _ | .look .. | .never => .zero
  | .sequence items => widthSum groups items
  | .choice [] => .zero
  | .choice (b :: rest) => widthEither groups (b.width groups) rest
  | .loop _ low high body =>
    let w := body.width groups
    (⟨w.least * low, w.greatest * high.getD unbounded⟩ : Width).clamp
  | .capture _ body => body.width groups
  | .atomic body => body.width groups
  | .reference index _ => (groups[index - 1]?).getD .zero
  | .conditional _ present absent => (present.width groups).either (absent.width groups)
def widthSum (groups : List Width) : List Node → Width
  | [] => .zero
  | n :: rest => (n.width groups).add (widthSum groups rest)
def widthEither (groups : List Width) (w : Width) : List Node → Width
  | [] => w
  | n :: rest => widthEither groups (w.either (n.width groups)) rest
end

end DecisionRules.Pattern
