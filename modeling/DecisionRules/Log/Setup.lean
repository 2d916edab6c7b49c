import DecisionRules.Breach
import DecisionRules.Environment

/-!
Setting up the logger from the environment: its level, one handler for the standard output, and one
for each log file that was ever asked for. Setting up again changes the level and adds what is
missing.
-/
namespace DecisionRules.Log

structure FileTarget where
  path : String
  maxBytes : Int
  backups : Int
  deriving DecidableEq, Repr

inductive Handler where
  | stream
  | file (target : FileTarget)
  deriving DecidableEq, Repr

structure Logger where
  level : Int
  propagate : Bool
  handlers : List Handler
  deriving DecidableEq, Repr

namespace Logger

def name : String := "rulecraft"

def infoLevel : Int := 20

def levels : List (String × Int) := [
  ("NOTSET", 0), ("DEBUG", 10), ("INFO", 20), ("WARN", 30), ("WARNING", 30), ("ERROR", 40),
  ("FATAL", 50), ("CRITICAL", 50)]

/-- The level of a name in any case; other names mean the level for information. Two names of other
things in the same place are refused. -/
def parseLevel (raw : String) : Except Breach Int :=
  let word := Text.upper (Text.strip raw)
  if word == "BASIC_FORMAT" then .error .badValue
  else if word == "_STYLES" then .error .wrongType
  else .ok ((Assoc.get? levels word).getD infoLevel)

/-- Components of a path, empty ones and single dots dropped, double dots taken back. -/
def normalize (parts : List String) : List String :=
  (parts.foldl (fun done part =>
    if part == "" || part == "." then done
    else if part == ".." then done.drop 1
    else part :: done) []).reverse

def joinPath (dir file : String) : String :=
  let root := if dir.startsWith "/" then "/" else ""
  root ++ "/".intercalate (normalize (dir.splitOn "/" ++ [file]))

def isOn (env : Environment) (name : String) : Bool :=
  match env.text? name with
  | some s => Text.foldAscii (Text.strip s) == "on"
  | none => false

def directory (env : Environment) (stateDir : String) : String :=
  match env.text? "RULECRAFT_LOG_DIR" with
  | some dir => if dir.isEmpty then stateDir ++ "/logs" else dir
  | none => stateDir ++ "/logs"

def number (env : Environment) (name : String) (default : Int) : Except Breach Int :=
  match env.text? name with
  | none => .ok default
  | some s =>
    match Number.readInt? s with
    | some n => .ok n
    | none => .error .badValue

def addHandler (l : Logger) (h : Handler) : Logger := { l with handlers := l.handlers ++ [h] }

def logsTo (l : Logger) (path : String) : Bool :=
  l.handlers.any fun
    | .file target => target.path == path
    | .stream => false

def addFile (l : Logger) (env : Environment) (stateDir : String) : Except Breach Logger := do
  let path := joinPath (directory env stateDir) "rulecraft.log"
  let maxBytes ← number env "RULECRAFT_LOG_MAX_BYTES" 5000000
  let backups ← number env "RULECRAFT_LOG_BACKUP_COUNT" 5
  return if l.logsTo path then l else l.addHandler (.file ⟨path, maxBytes, backups⟩)

/-- Sets the logger up; what was done before a failure stays done. -/
def configure (l : Logger) (env : Environment) (stateDir : String) : Except Breach Unit × Logger :=
  match parseLevel ((env.text? "RULECRAFT_LOG_LEVEL").getD "INFO") with
  | .error b => (.error b, l)
  | .ok level =>
    let l := { l with level := level, propagate := false }
    let l := if l.handlers.contains .stream then l else l.addHandler .stream
    if isOn env "RULECRAFT_LOG_TO_FILE" then
      match l.addFile env stateDir with
      | .ok l => (.ok (), l)
      | .error b => (.error b, l)
    else (.ok (), l)

end Logger
end DecisionRules.Log
