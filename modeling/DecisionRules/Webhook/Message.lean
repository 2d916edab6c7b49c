import DecisionRules.Text.Case
import DecisionRules.Text.Json
import DecisionRules.Text.Json.Reader
import DecisionRules.Webhook

/-!
What goes over the wire for one request: method, address, headers under lower-case names, and the text
of the body. Headers are ASCII. A body of structure is sent as JSON, and the content type says so
unless the caller names another one.
-/
namespace DecisionRules

mutual
def Value.checkPortable : Value → Except Breach Unit
  | .float x => if Number.isFinite x then .ok () else .error .badValue
  | .complex _ _ | .pattern _ _ | .callable _ => .error .wrongType
  | .list items => Value.checkPortableItems items
  | .object fields => Value.checkPortableFields fields
  | _ => .ok ()
def Value.checkPortableItems : List Value → Except Breach Unit
  | [] => .ok ()
  | v :: rest => do
    v.checkPortable
    Value.checkPortableItems rest
def Value.checkPortableFields : List (String × Value) → Except Breach Unit
  | [] => .ok ()
  | (_, v) :: rest => do
    v.checkPortable
    Value.checkPortableFields rest
end

structure Message where
  method : String
  url : String
  headers : Assoc String
  body : String
  deriving DecidableEq, Repr

namespace Message

def isAscii (s : String) : Bool := s.toList.all fun c => c.toNat < 128

def addHeader (headers : Assoc String) (name value : String) : Assoc String :=
  let name := name.map Char.toLower
  match Assoc.get? headers name with
  | none => Assoc.set headers name value
  | some before => Assoc.set headers name (before ++ ", " ++ value)

def checkHeader (name value : String) : Except Breach Unit :=
  if isAscii name && isAscii value then .ok () else .error .unencodable

def headersOf (userAgent : String) (given : Assoc String) : Except Breach (Assoc String) := do
  for (name, value) in ("user-agent", userAgent) :: given do
    checkHeader name value
  let headers := given.foldl (fun done (name, value) => addHeader done name value) []
  return Assoc.setDefault headers "user-agent" userAgent

def jsonType : String := "application/json"

def structured (v : Value) : Except Breach (Option String) :=
  match v with
  | .null => .ok none
  | v => do
    v.checkPortable
    return some (← Text.Json.render Text.Json.compact v)

/-- The message of a request. A text body goes as it is and comes before a structured one. -/
def build (userAgent method url : String) (given : Assoc String) (text : Option String)
    (content : Value) : Except Breach Message := do
  let headers ← headersOf userAgent given
  let message : Message := { method := Text.upper method, url, headers, body := "" }
  match text with
  | some s => return { message with body := s }
  | none =>
    match ← structured content with
    | none => return message
    | some s =>
      return { message with headers := Assoc.setDefault headers "content-type" jsonType, body := s }

def userAgent (m : Message) : Value := .ofText? (Assoc.get? m.headers "user-agent")

def contentType? (m : Message) : Option String := Assoc.get? m.headers "content-type"

def content? (m : Message) : Option Value :=
  if m.contentType?.any fun s => s.startsWith jsonType then Text.Json.parse? m.body else none

def ownHeaders (m : Message) : Assoc String :=
  m.headers.filter fun (name, _) => name.startsWith "x-" || name == "authorization"

end Message
end DecisionRules
