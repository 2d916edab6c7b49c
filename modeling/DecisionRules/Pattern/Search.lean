import DecisionRules.Pattern.Basic

/-!
Search for a pattern in a text by backtracking: alternatives are tried in order, and a node hands each
place where it can end to the nodes behind it. An unbounded repetition stops after an empty round.
-/
namespace DecisionRules.Pattern

/-- A place in the text, and the parts taken by the groups so far, the latest first. -/
structure Place where
  position : Nat
  captured : List (Nat × Nat × Nat)
  deriving DecidableEq, Repr

abbrev Continuation := Place → Option Place

def Place.group? (p : Place) (index : Nat) : Option (Nat × Nat) :=
  (p.captured.find? fun e => e.1 == index).map fun e => e.2

def isWordAt (text : Array Char) (ascii : Bool) (i : Nat) : Bool :=
  match text[i]? with
  | some c => Category.word.holds ascii c
  | none => false

/-- An empty text has neither a boundary nor a place that is none. -/
def Anchor.holds (text : Array Char) (i : Nat) : Anchor → Bool
  | textStart => i == 0
  | lineStart => i == 0 || text[i - 1]? == some '\n'
  | textEnd => i == text.size
  | finalEnd => i == text.size || (i + 1 == text.size && text[i]? == some '\n')
  | lineEnd => i == text.size || text[i]? == some '\n'
  | boundary ascii negated =>
    let before := i != 0 && isWordAt text ascii (i - 1)
    text.size != 0 && (before != isWordAt text ascii i) != negated

def charAt (text : Array Char) (test : CharTest) (p : Place) (k : Continuation) : Option Place :=
  match text[p.position]? with
  | some c => if test.holds c then k { p with position := p.position + 1 } else none
  | none => none

def sameRun (text : Array Char) (mode : CaseMode) : Nat → Nat → Nat → Bool
  | _, _, 0 => true
  | i, j, count + 1 =>
    match text[i]?, text[j]? with
    | some c, some d => lowerForm mode c == lowerForm mode d && sameRun text mode (i + 1) (j + 1) count
    | _, _ => false

/-- Rounds of a repetition from its `count`-th on; `last` is where the latest optional round began.
There are never more than `fuel` rounds. -/
def rounds (body : Place → Continuation → Option Place) (greed : Greed) (low : Nat) (high : Option Nat)
    (k : Continuation) : Nat → Nat → Option Nat → Place → Option Place
  | 0, _, _, p => k p
  | fuel + 1, count, last, p =>
    let again (last : Option Nat) : Option Place :=
      match greed with
      | .possessive => (body p some).bind (rounds body greed low high k fuel (count + 1) last)
      | _ => body p (rounds body greed low high k fuel (count + 1) last)
    if count < low then again last
    else
      let more := high.all (count < ·) && last != some p.position
      match greed with
      | .greedy => if more then (again (some p.position)).orElse fun _ => k p else k p
      | .lazy => (k p).orElse fun _ => if more then again (some p.position) else none
      | .possessive =>
        if more && (body p some).isSome then again (some p.position) else k p

mutual
def Node.run (text : Array Char) : Node → Place → Continuation → Option Place
  | .char test, p, k => charAt text test p k
  | .anchor a, p, k => if a.holds text p.position then k p else none
  | .sequence items, p, k => runAll text items p k
  | .choice branches, p, k => runAny text branches p k
  | .loop greed low high body, p, k =>
    rounds (fun q => body.run text q) greed low high k (low + text.size + 2) 0 none p
  | .capture index body, p, k =>
    body.run text p fun q => k { q with captured := (index, p.position, q.position) :: q.captured }
  | .atomic body, p, k => (body.run text p some).bind k
  | .look direction negated body, p, k =>
    let found : Option Place := match direction with
      | .ahead => body.run text p some
      | .behind width =>
        if width ≤ p.position then body.run text { p with position := p.position - width } some else none
    match negated, found with
    | false, some q => k { q with position := p.position }
    | true, none => k p
    | _, _ => none
  | .reference index mode, p, k =>
    match p.group? index with
    | some (first, last) =>
      if sameRun text mode first p.position (last - first) then
        k { p with position := p.position + (last - first) }
      else none
    | none => none
  | .conditional index present absent, p, k =>
    if (p.group? index).isSome then present.run text p k else absent.run text p k
  | .never, _, _ => none
def runAll (text : Array Char) : List Node → Place → Continuation → Option Place
  | [], p, k => k p
  | n :: rest, p, k => n.run text p fun q => runAll text rest q k
def runAny (text : Array Char) : List Node → Place → Continuation → Option Place
  | [], _, _ => none
  | n :: rest, p, k => (n.run text p k).orElse fun _ => runAny text rest p k
end

def foundFrom (text : Array Char) (node : Node) (position : Nat) : Nat → Bool
  | 0 => (node.run text ⟨position, []⟩ some).isSome
  | count + 1 =>
    (node.run text ⟨position, []⟩ some).isSome || foundFrom text node (position + 1) count

def Node.occursIn (node : Node) (s : String) : Bool :=
  let text := s.toList.toArray
  foundFrom text node 0 text.size

end DecisionRules.Pattern
