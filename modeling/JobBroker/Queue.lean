import JobBroker.Event
/-!
Job queues: first in, first out, many producers and one consumer. A consumer that closes its
queue still gets what is inside; after that, and after the consumer is gone, jobs are handed back.
-/
namespace JobBroker

inductive Consumer where
  | taking
  | closed
  | dropped
  deriving DecidableEq, Repr

structure JobQueue where
  name : QueueName
  jobs : List TrackedJob := []
  consumer : Consumer := .taking
  producers : Nat := 1
  deriving DecidableEq, Repr

inductive Dequeued where
  | job (job : TrackedJob)
  | waiting
  | ended
  deriving DecidableEq, Repr

namespace JobQueue

def length (q : JobQueue) : Nat := q.jobs.length

def isClosed (q : JobQueue) : Bool := q.consumer != .taking

def enqueue (q : JobQueue) (job : TrackedJob) : Except TrackedJob (JobQueue × Event) :=
  if q.isClosed then .error job
  else .ok ({ q with jobs := q.jobs ++ [job] }, .jobEnqueued q.name job.internal)

def tryDequeue (q : JobQueue) : Option (TrackedJob × JobQueue × Event) :=
  match q.jobs with
  | [] => none
  | job :: rest => some (job, { q with jobs := rest }, .jobDequeued q.name job.internal)

def close (q : JobQueue) : JobQueue :=
  match q.consumer with
  | .taking => { q with consumer := .closed }
  | _ => q

def drop (q : JobQueue) : JobQueue := { q with consumer := .dropped }

def drain (q : JobQueue) : List TrackedJob × JobQueue × List Event :=
  (q.jobs, { q.close with jobs := [] }, q.jobs.map fun j => .jobDequeued q.name j.internal)

/-- Wait for a job. Being cancelled comes first and takes nothing; a queue that nothing can enter
any more ends once it is empty. -/
def dequeue (q : JobQueue) (cancelled : Bool) : Dequeued × JobQueue × List Event :=
  if cancelled then (.ended, q, [])
  else
    match q.tryDequeue with
    | some (job, q, e) => (.job job, q, [e])
    | none => (if q.isClosed ∨ q.producers = 0 then .ended else .waiting, q, [])

end JobQueue

/-- A queue with the counter that both of its halves hold. The counter may fall below zero, so that
lowering it once too often would show. -/
structure CountedQueue where
  queue : JobQueue
  depth : Int := 0
  deriving DecidableEq, Repr

namespace CountedQueue

def withQueue (c : CountedQueue) (q : JobQueue) : CountedQueue := { c with queue := q }

def raise (c : CountedQueue) : CountedQueue := { c with depth := c.depth + 1 }

def lower (c : CountedQueue) : CountedQueue := { c with depth := c.depth - 1 }

def length (c : CountedQueue) : Int := c.depth

/-- Offer a job. The counter is raised before it is known whether the job is taken. -/
def enqueue (c : CountedQueue) (job : TrackedJob) : Except TrackedJob Event × CountedQueue :=
  match c.raise.queue.enqueue job with
  | .error back => (.error back, c.raise.lower)
  | .ok (q, e) => (.ok e, c.raise.withQueue q)

def tryDequeue (c : CountedQueue) : Option (TrackedJob × CountedQueue × Event) :=
  match c.queue.tryDequeue with
  | none => none
  | some (job, q, e) => some (job, (c.withQueue q).lower, e)

def dequeue (c : CountedQueue) (cancelled : Bool) : Dequeued × CountedQueue × List Event :=
  match c.queue.dequeue cancelled with
  | (.job job, q, es) => (.job job, (c.withQueue q).lower, es)
  | (answer, q, es) => (answer, c.withQueue q, es)

def close (c : CountedQueue) : CountedQueue := c.withQueue c.queue.close

theorem tryDequeue_some {c next : CountedQueue} {job : TrackedJob} {e : Event}
    (h : c.tryDequeue = some (job, next, e)) : c.queue.jobs = job :: next.queue.jobs := by
  rw [tryDequeue, JobQueue.tryDequeue] at h
  cases hjobs : c.queue.jobs with
  | nil => simp [hjobs] at h
  | cons first rest =>
    simp only [hjobs, Option.some.injEq, Prod.mk.injEq] at h
    obtain ⟨rfl, rfl, -⟩ := h
    rfl

def takeAll (c : CountedQueue) : List TrackedJob × CountedQueue × List Event :=
  match _h : c.tryDequeue with
  | none => ([], c, [])
  | some (job, next, e) =>
    let (jobs, last, es) := takeAll next
    (job :: jobs, last, e :: es)
termination_by c.queue.jobs.length
decreasing_by
  rw [tryDequeue_some _h, List.length_cons]
  exact Nat.lt_succ_self _

def drain (c : CountedQueue) : List TrackedJob × CountedQueue × List Event := c.close.takeAll

end CountedQueue
end JobBroker
