import DecisionRules.Pattern.Escape

/-!
Pattern texts read as patterns. The reader goes through the text once with a stack of open groups;
each step takes at least one character. A quantifier is applied to the node read last, and a look
behind must have one width.
-/
namespace DecisionRules.Pattern

structure Flags where
  ignoreCase : Bool
  multiline : Bool
  dotAll : Bool
  verbose : Bool
  ascii : Bool
  deriving DecidableEq, Repr

def Flags.none : Flags := ⟨false, false, false, false, false⟩

def Flags.caseMode (f : Flags) : CaseMode :=
  if f.ignoreCase then (if f.ascii then .foldedAscii else .folded) else .exact

def literalTest (f : Flags) (c : Char) : CharTest := ⟨false, [.range c.toNat c.toNat], f.caseMode⟩

def dotTest (f : Flags) : CharTest :=
  if f.dotAll then ⟨true, [], .exact⟩ else ⟨true, [.range 10 10], .exact⟩

inductive GroupKind where
  | root
  | capture (index : Nat)
  | plain
  | atomic
  | ahead (negated : Bool)
  | behind (negated : Bool) (outermost : Bool)
  | conditional (index : Nat)
  deriving DecidableEq, Repr

/-- An open group: its finished branches and the items of the current one, both last first, and the
flags in force inside. -/
structure Frame where
  kind : GroupKind
  branches : List Node
  items : List Node
  flags : Flags

def Frame.node (f : Frame) : Node :=
  let last := Node.sequence f.items.reverse
  match f.branches with
  | [] => last
  | done => .choice (last :: done).reverse

def Frame.isEmpty (f : Frame) : Bool := f.branches.isEmpty && f.items.isEmpty

structure Group where
  name : Option String
  width : Option Width

structure Reader where
  current : Frame
  outer : List Frame
  groups : List Group
  /-- Groups that were open or closed when the outermost look behind began. -/
  behindFrom : Option Nat
  /-- Group numbers that conditionals name before it is known that they exist. -/
  mentioned : List Nat
  globalAscii : Bool
  globalUnicode : Bool
  variableBehind : Bool

namespace Reader

def start (flags : Flags) : Reader :=
  ⟨⟨.root, [], [], flags⟩, [], [], .none, [], false, false, false⟩

def flags (r : Reader) : Flags := r.current.flags

def push (r : Reader) (n : Node) : Reader :=
  { r with current := { r.current with items := n :: r.current.items } }

def enter (r : Reader) (kind : GroupKind) (flags : Flags) : Reader :=
  { r with current := ⟨kind, [], [], flags⟩, outer := r.current :: r.outer }

def widths (r : Reader) : List Width := r.groups.map fun g => g.width.getD .zero

def isClosed (r : Reader) (index : Nat) : Bool :=
  match index, r.groups[index - 1]? with
  | 0, _ => false
  | _, some g => g.width.isSome
  | _, .none => false

def checkBehind (r : Reader) (index : Nat) : Except Fault Unit :=
  match r.behindFrom with
  | .none => .ok ()
  | some first => if r.isClosed index && index ≤ first then .ok () else .error .malformed

def namedGroup? (r : Reader) (name : String) : Option Nat :=
  (r.groups.findIdx? fun g => g.name == some name).map (· + 1)

end Reader

def isIdentifier : List Char → Bool
  | c :: rest => Text.isWord c && !Text.isDigit c && rest.all Text.isWord
  | [] => false

def untilMark (mark : Char) (cs : List Char) : Except Fault (List Char × List Char) :=
  match cs.takeWhile (· != mark), cs.dropWhile (· != mark) with
  | [], _ => .error .malformed
  | _, [] => .error .malformed
  | name, _ :: rest => .ok (name, rest)

def setMember : List Char → Except Fault (Escape × List Char)
  | [] => .error .malformed
  | '\\' :: rest => setEscape rest
  | c :: rest => .ok (.literal c, rest)

def memberItem (ascii : Bool) : Escape → Except Fault ClassItem
  | .literal c => .ok (.range c.toNat c.toNat)
  | .category k negated => .ok (.category k ascii negated)
  | _ => .error .malformed

def rangeItem : Escape → Escape → Except Fault ClassItem
  | .literal low, .literal high =>
    if low.toNat ≤ high.toNat then .ok (.range low.toNat high.toNat) else .error .malformed
  | _, _ => .error .malformed

/-- Members of a character set up to its bracket; a bracket at the front is a member. The fuel is the
number of characters left. -/
def setItems (ascii : Bool) (before : List ClassItem) :
    Nat → List Char → Except Fault (List ClassItem × List Char)
  | 0, _ => .error .malformed
  | fuel + 1, cs => do
    match cs, before with
    | ']' :: rest, _ :: _ => return (before.reverse, rest)
    | cs, before =>
      let (low, rest) ← setMember cs
      match rest with
      | '-' :: ']' :: more => do
        let item ← memberItem ascii low
        return ((ClassItem.range 45 45 :: item :: before).reverse, more)
      | '-' :: more => do
        let (high, more) ← setMember more
        let item ← rangeItem low high
        setItems ascii (item :: before) fuel more
      | rest => do
        let item ← memberItem ascii low
        setItems ascii (item :: before) fuel rest

def readSet (f : Flags) (cs : List Char) : Except Fault (Node × List Char) := do
  let (negated, cs) := match cs with
    | '^' :: rest => (true, rest)
    | _ => (false, cs)
  let (items, rest) ← setItems f.ascii [] (cs.length + 1) cs
  return (.char ⟨negated, items, f.caseMode⟩, rest)

/-- Bounds of a quantifier in braces, after the opening brace. Nothing is returned when the braces
hold no bounds, so that they are plain characters. -/
def readBounds (cs : List Char) : Except Fault (Option (Nat × Option Nat × List Char)) := do
  let low := cs.takeWhile Number.isAsciiDigit
  let rest := cs.dropWhile Number.isAsciiDigit
  let (high, rest) := match rest with
    | ',' :: more => (more.takeWhile Number.isAsciiDigit, more.dropWhile Number.isAsciiDigit)
    | _ => (low, rest)
  match rest with
  | c :: after =>
    if c != '\x7d' then return .none
    else
      let least := Number.natOfDigits low
      if least ≥ unbounded then throw .countTooLarge
      if high.isEmpty then return some (least, .none, after)
      else
        let most := Number.natOfDigits high
        if most ≥ unbounded then throw .countTooLarge
        if most < least then throw .malformed
        return some (least, some most, after)
  | [] => return .none

def quantify (r : Reader) (low : Nat) (high : Option Nat) (cs : List Char) :
    Except Fault (Reader × List Char) :=
  match r.current.items with
  | [] | .anchor _ :: _ | .loop .. :: _ => .error .malformed
  | item :: before =>
    let (greed, rest) := match cs with
      | '?' :: rest => (Greed.lazy, rest)
      | '+' :: rest => (Greed.possessive, rest)
      | _ => (Greed.greedy, cs)
    .ok ({ r with current := { r.current with items := .loop greed low high item :: before } }, rest)

def flagLetters : List Char := ['i', 'L', 'm', 's', 'x', 'a', 't', 'u']

def typeLetters : List Char := ['a', 'L', 'u']

def takeFlags (marks : List Char) : List Char → Except Fault (List Char × Char × List Char)
  | [] => .error .malformed
  | c :: rest =>
    if marks.contains c then .ok ([], c, rest)
    else if flagLetters.contains c then do
      let (more, mark, rest) ← takeFlags marks rest
      return (c :: more, mark, rest)
    else .error .malformed

def checkAdded (added : List Char) : Except Fault Unit :=
  if added.contains 'L' || (added.contains 'a' && added.contains 'u') then .error .malformed else .ok ()

def Flags.turnOn (f : Flags) (letters : List Char) : Flags :=
  { ignoreCase := f.ignoreCase || letters.contains 'i'
    multiline := f.multiline || letters.contains 'm'
    dotAll := f.dotAll || letters.contains 's'
    verbose := f.verbose || letters.contains 'x'
    ascii := if letters.contains 'u' then false else f.ascii || letters.contains 'a' }

def Flags.turnOff (f : Flags) (letters : List Char) : Flags :=
  { ignoreCase := f.ignoreCase && !letters.contains 'i'
    multiline := f.multiline && !letters.contains 'm'
    dotAll := f.dotAll && !letters.contains 's'
    verbose := f.verbose && !letters.contains 'x'
    ascii := f.ascii }

/-- A group head made of flags: global ones at the very start of the pattern, or the flags of one
group, those after a minus being turned off. -/
def readFlags (r : Reader) (cs : List Char) : Except Fault (Reader × List Char) := do
  let (added, mark, rest) ← (match cs with
    | '-' :: rest => .ok ([], '-', rest)
    | _ => takeFlags [')', '-', ':'] cs)
  checkAdded added
  if added.isEmpty && mark != '-' then throw .malformed
  if mark == ')' then
    if r.outer.isEmpty && r.current.isEmpty then
      let flags := r.flags.turnOn added
      let flags := { flags with ascii := r.flags.ascii || added.contains 'a' }
      return ({ r with
        current := { r.current with flags := flags }
        globalAscii := r.globalAscii || added.contains 'a'
        globalUnicode := r.globalUnicode || added.contains 'u' }, rest)
    else throw .malformed
  else if added.contains 't' then throw .malformed
  else if mark == ':' then return (r.enter .plain (r.flags.turnOn added), rest)
  else
    let (removed, _, rest) ← takeFlags [':'] rest
    if removed.isEmpty || removed.any (fun c => typeLetters.contains c || c == 't' || added.contains c)
    then throw .malformed
    else return (r.enter .plain ((r.flags.turnOn added).turnOff removed), rest)

def openCapture (r : Reader) (name : Option String) : Except Fault Reader :=
  if name.isSome && r.groups.any (fun g => g.name == name) then .error .malformed
  else
    let index := r.groups.length + 1
    .ok { (r.enter (.capture index) r.flags) with groups := r.groups ++ [⟨name, .none⟩] }

def readNamed (r : Reader) (cs : List Char) : Except Fault (Reader × List Char) := do
  match cs with
  | '<' :: rest =>
    let (name, rest) ← untilMark '>' rest
    if isIdentifier name then return (← openCapture r (some (String.ofList name)), rest)
    else throw .malformed
  | '=' :: rest =>
    let (name, rest) ← untilMark ')' rest
    match r.namedGroup? (String.ofList name) with
    | some index =>
      if r.isClosed index then do
        r.checkBehind index
        return (r.push (.reference index r.flags.caseMode), rest)
      else throw .malformed
    | .none => throw .malformed
  | _ => throw .malformed

def readConditional (r : Reader) (cs : List Char) : Except Fault (Reader × List Char) := do
  let (name, rest) ← untilMark ')' cs
  if isIdentifier name then
    match r.namedGroup? (String.ofList name) with
    | some index => do
      r.checkBehind index
      return (r.enter (.conditional index) r.flags, rest)
    | .none => throw .malformed
  else
    match Number.readInt? (String.ofList name) with
    | some n =>
      if n ≤ 0 then throw .malformed
      else do
        let index := n.toNat
        r.checkBehind index
        return ({ (r.enter (.conditional index) r.flags) with mentioned := index :: r.mentioned }, rest)
    | .none => throw .malformed

def openBehind (r : Reader) (negated : Bool) : Reader :=
  match r.behindFrom with
  | .none => { (r.enter (.behind negated true) r.flags) with behindFrom := some r.groups.length }
  | some _ => r.enter (.behind negated false) r.flags

def readGroup (r : Reader) (cs : List Char) : Except Fault (Reader × List Char) := do
  match cs with
  | '?' :: rest =>
    match rest with
    | 'P' :: more => readNamed r more
    | ':' :: more => return (r.enter .plain r.flags, more)
    | '#' :: more =>
      match more.dropWhile (· != ')') with
      | _ :: after => return (r, after)
      | [] => throw .malformed
    | '=' :: more => return (r.enter (.ahead false) r.flags, more)
    | '!' :: more => return (r.enter (.ahead true) r.flags, more)
    | '<' :: '=' :: more => return (openBehind r false, more)
    | '<' :: '!' :: more => return (openBehind r true, more)
    | '(' :: more => readConditional r more
    | '>' :: more => return (r.enter .atomic r.flags, more)
    | _ => readFlags r rest
  | _ => return (← openCapture r .none, cs)

/-- The node of a closed group. A negated look at nothing never holds. -/
def closedNode (f : Frame) : Node :=
  match f.kind with
  | .root | .plain => f.node
  | .capture index => .capture index f.node
  | .atomic => .atomic f.node
  | .ahead negated => if negated && f.isEmpty then .never else .look .ahead negated f.node
  | .behind negated _ => if negated && f.isEmpty then .never else .look (.behind 0) negated f.node
  | .conditional index =>
    match f.branches with
    | [] => .conditional index (.sequence f.items.reverse) (.sequence [])
    | present :: _ => .conditional index present (.sequence f.items.reverse)

def closeGroup (r : Reader) : Except Fault Reader :=
  match r.outer with
  | [] => .error (if r.globalAscii && r.globalUnicode then .flagsConflict else .malformed)
  | outer :: rest =>
    let f := r.current
    let node := closedNode f
    let r := { r with current := outer, outer := rest }
    match f.kind, node with
    | .capture index, _ =>
      let width := f.node.width r.widths
      .ok { (r.push node) with
        groups := r.groups.modify (index - 1) fun g => { g with width := some width } }
    | .behind _ outermost, .look _ negated body =>
      let w := body.width r.widths
      .ok { (r.push (.look (.behind w.least) negated body)) with
        behindFrom := if outermost then .none else r.behindFrom
        variableBehind := r.variableBehind || w.least != w.greatest }
    | .behind _ outermost, _ =>
      .ok { (r.push node) with behindFrom := if outermost then .none else r.behindFrom }
    | _, _ => .ok (r.push node)

def nextBranch (r : Reader) : Except Fault Reader :=
  let f := r.current
  match f.kind, f.branches with
  | .conditional _, _ :: _ => .error .malformed
  | _, _ =>
    .ok { r with current := { f with
      branches := .sequence f.items.reverse :: f.branches
      items := [] } }

def pushEscape (r : Reader) (e : Escape) : Except Fault Reader :=
  match e with
  | .literal c => .ok (r.push (.char (literalTest r.flags c)))
  | .category k negated =>
    .ok (r.push (.char ⟨false, [.category k r.flags.ascii negated], r.flags.caseMode⟩))
  | .anchor a => .ok (r.push (.anchor a))
  | .reference index =>
    if r.isClosed index then do
      r.checkBehind index
      return r.push (.reference index r.flags.caseMode)
    else .error .malformed

def isPatternBlank (c : Char) : Bool :=
  c == ' ' || c == '\t' || c == '\n' || c == '\r' || c == '\x0b' || c == '\x0c'

def step (r : Reader) (c : Char) (rest : List Char) : Except Fault (Reader × List Char) := do
  let f := r.flags
  if f.verbose && isPatternBlank c then return (r, rest)
  else if f.verbose && c == '#' then
    return (r, (rest.dropWhile (· != '\n')).drop 1)
  else match c with
    | '\\' =>
      let (e, rest) ← plainEscape f.ascii rest
      return (← pushEscape r e, rest)
    | '[' =>
      let (node, rest) ← readSet f rest
      return (r.push node, rest)
    | '.' => return (r.push (.char (dotTest f)), rest)
    | '^' => return (r.push (.anchor (if f.multiline then .lineStart else .textStart)), rest)
    | '$' => return (r.push (.anchor (if f.multiline then .lineEnd else .finalEnd)), rest)
    | '(' => readGroup r rest
    | ')' => return (← closeGroup r, rest)
    | '|' => return (← nextBranch r, rest)
    | '?' => quantify r 0 (some 1) rest
    | '*' => quantify r 0 .none rest
    | '+' => quantify r 1 .none rest
    | '\x7b' =>
      match ← readBounds rest with
      | some (low, high, after) =>
        if rest.head? == some '\x7d' then return (r.push (.char (literalTest f c)), rest)
        else quantify r low high after
      | .none => return (r.push (.char (literalTest f c)), rest)
    | _ => return (r.push (.char (literalTest f c)), rest)

/-- Steps through the characters; `skip` of them are already read. -/
def readFrom (skip : Nat) (r : Reader) : List Char → Except Fault Reader
  | [] => .ok r
  | c :: rest =>
    match skip with
    | n + 1 => readFrom n r rest
    | 0 => do
      let (r, after) ← step r c rest
      readFrom (rest.length - after.length) r rest

def read (source : String) (ignoreCase : Bool) : Except Fault Node := do
  let r ← readFrom 0 (.start { Flags.none with ignoreCase := ignoreCase }) source.toList
  if !r.outer.isEmpty then throw .malformed
  if r.globalAscii && r.globalUnicode then throw .flagsConflict
  if r.mentioned.any (· > r.groups.length) || r.variableBehind then throw .malformed
  return r.current.node

end DecisionRules.Pattern
