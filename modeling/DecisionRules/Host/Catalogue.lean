import DecisionRules.Host
import DecisionRules.Scope.Resolve
import DecisionRules.Value.Arithmetic
import DecisionRules.Value.Member

/-!
A host with a fixed catalogue of callables: probes of the arguments, failures, a counter, a clock,
and readers and writers of the scope.
-/
namespace DecisionRules.Host.Catalogue

def fail (b : Breach) : Reply := .failed (.breach b)

def Argument.toValue : Argument → Value
  | .value v => v
  | .scope => .null

def first : List Argument → Reply
  | [] => .answered .null
  | a :: _ => .answered (Argument.toValue a)

def seconds? : Value → Except Breach Float
  | .object fields =>
    match Assoc.get? fields "seconds" with
    | none => .error .missingKey
    | some v => number v
  | v => number v
where
  number (v : Value) : Except Breach Float :=
    match v.numeral? with
    | some n => n.toReal
    | none => .error .wrongType

def elapse (args : List Argument) (f : Frame) : Reply × Frame :=
  let move (v w : Value) : Reply × Frame :=
    match seconds? v with
    | .error b => (fail b, f)
    | .ok s => (.answered w, { f with clock := f.clock + s })
  match args with
  | [.value (.object fields)] => move (.object fields) (.bool true)
  | [.value (.object fields), _] => move (.object fields) (.bool true)
  | [.value v] => move v (.bool true)
  | [.value v, w] => move v (Argument.toValue w)
  | _ => (fail .wrongType, f)

def put (parameters : Fields) (f : Frame) : Reply × Frame :=
  let scope := parameters.foldl (fun s e => s.write e.1 e.2) f.scope
  let names := sortBy (fun a b => decide (a ≤ b)) (Assoc.keys parameters)
  (.answered (.texts names), { f with scope := scope })

def peek (parameters : Fields) (f : Frame) : Reply :=
  match Assoc.get? parameters "name" with
  | none => fail .missingKey
  | some (.text name) =>
    match f.scope.lookup name with
    | .ok (some v) => .answered v
    | .ok none => .answered (.text "<missing>")
    | .error b => fail b
  | some v => if v.isKey then fail .missingAttribute else fail .wrongType

def divisible (node : Fields) (f : Frame) : Reply :=
  match Assoc.get? node "left", Assoc.get? node "right" with
  | some left, some right =>
    match f.scope.resolve left with
    | .error b => fail b
    | .ok left =>
      match left.mod right with
      | .ok r => .answered (.bool (r.equal (.int 0)))
      | .error b => fail b
  | _, _ => fail .missingKey

def fieldValue (node : Fields) (f : Frame) : Reply :=
  match f.scope.resolve (Assoc.getD node "value" .null) with
  | .ok v => .answered v
  | .error b => fail b

def hasName (node : Fields) (f : Frame) : Reply :=
  match Assoc.get? node "name" with
  | none => fail .missingKey
  | some (.text name) => .answered (.bool (f.scope.has name))
  | some v => if v.isKey then .answered (.bool false) else fail .wrongType

def onFields (act : Fields → Frame → Reply × Frame) (args : List Argument) (f : Frame) :
    Reply × Frame :=
  match args with
  | [.value (.object fields), .scope] => act fields f
  | [_, _] => (fail .missingAttribute, f)
  | _ => (fail .wrongType, f)

def reading (read : Fields → Frame → Reply) (fields : Fields) (f : Frame) : Reply × Frame :=
  (read fields f, f)

def params : List Argument → Reply
  | [a, _] => .answered (Argument.toValue a)
  | _ => fail .wrongType

def call (name : String) (args : List Argument) (f : Frame) : Reply × Frame :=
  match name with
  | "argc" => (.answered (.ofNat args.length), f)
  | "first" => (first args, f)
  | "none" => (.answered .null, f)
  | "boom" => (.failed (.raised Breach.badValue.kind "host: boom"), f)
  | "conf" => (.failed (.raised Failure.configurationKind "host: conf"), f)
  | "slow" => (.stalled, f)
  | "tick" => (.answered (.ofNat (f.ticks + 1)), { f with ticks := f.ticks + 1 })
  | "elapse" => elapse args f
  | "put" => onFields put args f
  | "peek" => onFields (reading peek) args f
  | "params" => (params args, f)
  | "divisible" => onFields (reading divisible) args f
  | "value" => onFields (reading fieldValue) args f
  | "has" => onFields (reading hasName) args f
  | _ => (fail .wrongType, f)

def names : List String :=
  ["argc", "first", "none", "boom", "conf", "slow", "tick", "elapse", "put", "peek", "params",
    "divisible", "value", "has"]

end DecisionRules.Host.Catalogue

namespace DecisionRules.Host

def catalogue (now : Int) (today : String) : Host := ⟨Catalogue.call, now, today, fun _ _ => 0⟩

end DecisionRules.Host
