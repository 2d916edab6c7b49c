import DecisionRules.Environment

/-!
The schedule of cache sweeps. In test mode it never runs: each start only adds one more pending job.
-/
namespace DecisionRules

structure Maintenance where
  interval : Int
  testMode : Bool
  running : Bool
  jobs : List String
  deriving DecidableEq, Repr

namespace Maintenance

def sweepJob : String := "rulecraft-cache-sweep"

def create (interval : Int) (env : Environment) : Maintenance :=
  { interval := max 1 interval
    testMode := Environment.isTrue ((env.text? "RULECRAFT_TEST_MODE").getD "")
    running := false
    jobs := [] }

def start (m : Maintenance) : Maintenance :=
  if m.running then m
  else if m.testMode then { m with jobs := m.jobs ++ [sweepJob] }
  else { m with jobs := [sweepJob], running := true }

def shutdown (m : Maintenance) : Maintenance :=
  if m.running then { m with running := false, jobs := [] } else m

end Maintenance
end DecisionRules
