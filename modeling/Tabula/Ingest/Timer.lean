import Tabula.Ingest.Worker

/-!
# The worker's timer

In the background a worker runs at an interval, never twice at once, and a run that was
missed is made up for once. A timer that is not enabled has no worker.
-/

namespace Tabula

/-- What the timer runs, and how often in seconds. -/
structure Timer where
  worker : Worker
  interval : Int

namespace Timer

/-- The name of the timer's one task. -/
def taskName : String := "ingestion-worker"

/-- The interval for a configured one, at least one second if that is zero. -/
def intervalOf (seconds : Int) : Int := if seconds = 0 then 1 else seconds

/-- The timer of the scheduler and ingestion settings, none if it is not enabled. -/
def ofConfig (scheduler ingestion : Value) (factory : Option SourceFactory) :
    Except Failure (Option Timer) :=
  match scheduler with
  | .dict es =>
    if ((Value.lookup "enabled" es).getD (.bool true)).truthy then do
      let worker ← Worker.ofConfig ingestion factory
      let seconds ← (← ingestion.require "worker_interval_seconds").toInteger
      return some ⟨worker, intervalOf seconds⟩
    else .ok none
  | v => .error (.fault (.missingOperation v.kindName "get"))

/-- The answer form of the task. -/
def toValue (t : Timer) : Value :=
  .object [("id", .text taskName), ("interval", .int t.interval), ("max_instances", .int 1),
    ("coalesce", .bool true)]

/-- Runs the task once. A failure is passed over. -/
def tick (t : Timer) : Action Unit := do
  let _ ← Action.attempt (t.worker.runPending none)
  return ()

end Timer

end Tabula
