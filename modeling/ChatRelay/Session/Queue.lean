import ChatRelay.Session.Run

/-!
# The queue of requests

Requests are worked off one at a time, in the order they came in. A client that has left before its
turn is passed over. One that leaves in the middle ends its own request and no other.
-/

namespace ChatRelay

/-- A request in line. -/
structure Job where
  request : GenerateRequest
  /-- The number of events that the client stays for; all of them if there is none. With zero it has
  left before its turn. -/
  patience : Option Nat

/-- Hands an event to the client of a job. One that has left does not receive it, and only then is
it noticed that the client is gone: the reply has been drawn up to that event. -/
def Job.take (job : Job) (run : Run) (e : StreamEvent) : Run × Bool :=
  if job.patience.all (run.count < ·) then (run.receive e, true) else (run, false)

namespace Registry

/-- Works off a job. -/
def runJob (r : Registry) (job : Job) : Run :=
  if job.patience = some 0 then .start r else r.runFor job.request job.take

/-- Works off jobs in order, each in the registry that the one before it has left. -/
def runJobs : Registry → List Job → List Run
  | _, [] => []
  | r, job :: rest =>
    let run := r.runJob job
    run :: runJobs run.registry rest

end Registry

end ChatRelay
