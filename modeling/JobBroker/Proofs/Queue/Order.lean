import JobBroker.Proofs.Run.Effects
import Mathlib.Data.List.Induction

/-! A queue as its two halves use it. Its length is not counted when somebody asks: both halves read
it off one counter, which is raised before a job goes in and lowered when the job is refused or is
taken. Whatever the halves do, the jobs come out in the order in which they went in, none is lost,
and the counter tells how many are inside, which is `JobQueue.length`. -/
namespace JobBroker

namespace CountedQueue

def left (c : CountedQueue) (jobs rest : List TrackedJob) : CountedQueue :=
  { queue := c.queue.withJobs rest, depth := c.depth - jobs.length }

def leaving (c : CountedQueue) (jobs : List TrackedJob) : List Event :=
  jobs.map fun j => .jobDequeued c.queue.name j.internal

/-! What each operation does, by the jobs inside. -/

section Operations
variable (c : CountedQueue)

theorem left_nil {rest : List TrackedJob} (h : c.queue.jobs = rest) : c.left [] rest = c := by
  subst h
  simp [left, JobQueue.withJobs]

theorem enqueue_open (h : c.queue.isClosed = false) (job : TrackedJob) :
    c.enqueue job =
      (.ok (.jobEnqueued c.queue.name job.internal),
        { queue := c.queue.withJobs (c.queue.jobs ++ [job]), depth := c.depth + 1 }) := by
  have hqueue : c.raise.queue.isClosed = false := h
  rw [enqueue, JobQueue.enqueue, hqueue]
  rfl

theorem enqueue_closed (h : c.queue.isClosed = true) (job : TrackedJob) :
    c.enqueue job = (.error job, c) := by
  have hqueue : c.raise.queue.isClosed = true := h
  have hdepth : c.raise.lower = c := by
    rw [lower, raise, Int.add_sub_cancel]
  rw [enqueue, JobQueue.enqueue, hqueue, if_pos rfl]
  exact congrArg (Prod.mk _) hdepth

theorem tryDequeue_nil (h : c.queue.jobs = []) : c.tryDequeue = none := by
  rw [tryDequeue, JobQueue.tryDequeue, h]

theorem tryDequeue_cons {job : TrackedJob} {rest : List TrackedJob}
    (h : c.queue.jobs = job :: rest) :
    c.tryDequeue =
      some (job, c.left [job] rest, .jobDequeued c.queue.name job.internal) := by
  rw [tryDequeue, JobQueue.tryDequeue, h]
  rfl

theorem dequeue_cancelled : c.dequeue true = (.ended, c, []) := rfl

theorem dequeue_nil (h : c.queue.jobs = []) :
    ∃ answer, c.dequeue false = (answer, c, []) ∧ ∀ job, answer ≠ .job job := by
  rw [dequeue, JobQueue.dequeue, JobQueue.tryDequeue, h]
  by_cases hover : c.queue.isClosed = true ∨ c.queue.producers = 0
  · exact ⟨.ended, by simp [hover, withQueue], by simp⟩
  · exact ⟨.waiting, by simp [hover, withQueue], by simp⟩

theorem dequeue_cons {job : TrackedJob} {rest : List TrackedJob}
    (h : c.queue.jobs = job :: rest) :
    c.dequeue false =
      (.job job, c.left [job] rest, [.jobDequeued c.queue.name job.internal]) := by
  rw [dequeue, JobQueue.dequeue, JobQueue.tryDequeue, h]
  rfl

theorem takeAll_eq : c.takeAll =
    (c.queue.jobs, c.left c.queue.jobs [], c.leaving c.queue.jobs) := by
  induction hjobs : c.queue.jobs generalizing c with
  | nil =>
    rw [takeAll, tryDequeue_nil c hjobs, left_nil c hjobs]
    rfl
  | cons job rest ih =>
    have hleft : (c.left [job] rest).left rest [] = c.left (job :: rest) [] := by
      simp only [left, JobQueue.withJobs, List.length_cons, List.length_nil, mk.injEq, true_and]
      omega
    rw [takeAll, tryDequeue_cons c hjobs]
    simp only [ih (c.left [job] rest) rfl, hleft]
    rfl

theorem drain_eq : c.drain =
    (c.queue.drain.1, c.withQueue c.queue.drain.2.1 |>.left c.queue.drain.1 [],
      c.queue.drain.2.2) := by
  rw [drain, takeAll_eq]
  simp [close, withQueue, JobQueue.drain, left, leaving, JobQueue.withJobs]

end Operations
end CountedQueue

/-- What the two halves of a queue can do, in any order, as long as there is a consumer. -/
inductive QueueAct where
  | enqueues (job : TrackedJob)
  | dequeues (cancelled : Bool)
  | tries
  | closes
  | drains
  /-- A producer is cloned. -/
  | clones
  /-- A producer is dropped. -/
  | releases

def QueueAct.offered? : QueueAct → Option TrackedJob
  | enqueues job => some job
  | _ => none

namespace Event

def entered? (name : QueueName) : Event → Option Nat
  | jobEnqueued queue job => if queue = name then some job else none
  | _ => none

def left? (name : QueueName) : Event → Option Nat
  | jobDequeued queue job => if queue = name then some job else none
  | _ => none

end Event

/-- A queue with what its producers and its consumer were answered, and with what was told of it,
oldest first. -/
structure Traffic where
  halves : CountedQueue
  accepted : List TrackedJob := []
  refused : List TrackedJob := []
  handedOut : List TrackedJob := []
  told : List Event := []

namespace Traffic

def start (name : QueueName) : Traffic := { halves := { queue := { name := name } } }

def inside (t : Traffic) : List TrackedJob := t.halves.queue.jobs

def give (t : Traffic) (jobs : List TrackedJob) (c : CountedQueue) (es : List Event) : Traffic :=
  { t with halves := c, handedOut := t.handedOut ++ jobs, told := t.told ++ es }

def step (t : Traffic) : QueueAct → Traffic
  | .enqueues job =>
    match t.halves.enqueue job with
    | (.ok e, c) => { t with halves := c, accepted := t.accepted ++ [job], told := t.told ++ [e] }
    | (.error back, c) => { t with halves := c, refused := t.refused ++ [back] }
  | .dequeues cancelled =>
    match t.halves.dequeue cancelled with
    | (.job job, c, es) => t.give [job] c es
    | (_, c, es) => t.give [] c es
  | .tries =>
    match t.halves.tryDequeue with
    | none => t
    | some (job, c, e) => t.give [job] c [e]
  | .closes => t.give [] t.halves.close []
  | .drains =>
    let (jobs, c, es) := t.halves.drain
    t.give jobs c es
  | .clones =>
    let q := t.halves.queue
    t.give [] (t.halves.withQueue { q with producers := q.producers + 1 }) []
  | .releases =>
    let q := t.halves.queue
    t.give [] (t.halves.withQueue { q with producers := q.producers - 1 }) []

def run (t : Traffic) (acts : List QueueAct) : Traffic := acts.foldl step t

theorem run_concat (t : Traffic) (acts : List QueueAct) (a : QueueAct) :
    t.run (acts ++ [a]) = (t.run acts).step a := List.foldl_concat ..

/-- What one act can do: let a job in, hand it back, or let jobs out at the front. -/
inductive Passage (t : Traffic) : QueueAct → Traffic → Prop
  | enters (job : TrackedJob) (taking : t.halves.queue.isClosed = false) :
    Passage t (.enqueues job)
      { t with
        halves :=
          { queue := t.halves.queue.withJobs (t.inside ++ [job]), depth := t.halves.depth + 1 }
        accepted := t.accepted ++ [job]
        told := t.told ++ [.jobEnqueued t.halves.queue.name job.internal] }
  | returns (job : TrackedJob) (closed : t.halves.queue.isClosed = true) :
    Passage t (.enqueues job) { t with refused := t.refused ++ [job] }
  | leaves {a : QueueAct} (jobs rest : List TrackedJob) (c : CountedQueue)
    (offers : a.offered? = none) (split : t.inside = jobs ++ rest) (inside : c.queue.jobs = rest)
    (name : c.queue.name = t.halves.queue.name)
    (closed : t.halves.queue.isClosed = true → c.queue.isClosed = true)
    (depth : c.depth = t.halves.depth - jobs.length) :
    Passage t a (t.give jobs c (t.halves.leaving jobs))

variable {t t' : Traffic} {a : QueueAct}

theorem Passage.idle (offers : a.offered? = none) {q : JobQueue} (inside : q.jobs = t.inside)
    (name : q.name = t.halves.queue.name)
    (closed : t.halves.queue.isClosed = true → q.isClosed = true) :
    Passage t a (t.give [] (t.halves.withQueue q) []) :=
  .leaves [] t.inside _ offers rfl inside name closed (Int.sub_zero _).symm

theorem Passage.one (offers : a.offered? = none) {job : TrackedJob} {rest : List TrackedJob}
    (split : t.inside = job :: rest) :
    Passage t a (t.give [job] (t.halves.left [job] rest)
      [.jobDequeued t.halves.queue.name job.internal]) :=
  .leaves [job] rest _ offers split rfl rfl id rfl

theorem step_passes (t : Traffic) (a : QueueAct) : Passage t a (t.step a) := by
  cases a with
  | enqueues job =>
    cases hclosed : t.halves.queue.isClosed with
    | true =>
      rw [step, t.halves.enqueue_closed hclosed]
      exact .returns job hclosed
    | false =>
      rw [step, t.halves.enqueue_open hclosed]
      exact .enters job hclosed
  | dequeues cancelled =>
    cases cancelled with
    | true =>
      rw [step, t.halves.dequeue_cancelled]
      exact .idle rfl rfl rfl id
    | false =>
      cases hinside : t.inside with
      | nil =>
        obtain ⟨answer, hanswer, hnone⟩ := t.halves.dequeue_nil hinside
        rw [step, hanswer]
        cases answer with
        | job job => exact absurd rfl (hnone job)
        | waiting => exact .idle rfl rfl rfl id
        | ended => exact .idle rfl rfl rfl id
      | cons job rest =>
        rw [step, t.halves.dequeue_cons hinside]
        exact .one rfl hinside
  | tries =>
    cases hinside : t.inside with
    | nil =>
      have hidle : Passage t .tries (t.give [] (t.halves.withQueue t.halves.queue) []) :=
        .idle rfl rfl rfl id
      have hnothing : t.give [] (t.halves.withQueue t.halves.queue) [] = t := by
        simp [give, CountedQueue.withQueue]
      rw [step, t.halves.tryDequeue_nil hinside]
      rwa [hnothing] at hidle
    | cons job rest =>
      rw [step, t.halves.tryDequeue_cons hinside]
      exact .one rfl hinside
  | closes =>
    exact .idle rfl (JobQueue.close_jobs _) (JobQueue.close_name _) fun _ =>
      JobQueue.isClosed_close _
  | drains =>
    rw [step, t.halves.drain_eq]
    refine .leaves t.inside [] _ rfl (List.append_nil _).symm rfl (JobQueue.close_name _)
      (fun _ => JobQueue.isClosed_close _) rfl
  | clones => exact .idle rfl rfl rfl id
  | releases => exact .idle rfl rfl rfl id

structure InOrder (name : QueueName) (offered : List TrackedJob) (t : Traffic) : Prop where
  called : t.halves.queue.name = name
  jobs : t.handedOut ++ t.inside = t.accepted
  depth : t.halves.depth = t.inside.length
  entered : t.told.filterMap (Event.entered? name) = t.accepted.map (·.internal)
  left : t.told.filterMap (Event.left? name) = t.handedOut.map (·.internal)
  offered : offered = t.accepted ++ t.refused
  taking : t.halves.queue.isClosed = false → t.refused = []

theorem InOrder.pass {name : QueueName} {offered : List TrackedJob} (h : t.InOrder name offered)
    (p : Passage t a t') : t'.InOrder name (offered ++ a.offered?.toList) := by
  cases p with
  | enters job taking =>
    have hnone := h.taking taking
    have hdepth := h.depth
    exact {
      called := h.called
      jobs := by rw [← h.jobs, List.append_assoc]; rfl
      depth := by
        simp only [inside, JobQueue.withJobs, List.length_append, List.length_singleton] at hdepth ⊢
        omega
      entered := by simp [h.entered, Event.entered?, h.called]
      left := by simp [h.left, Event.left?]
      offered := by simp [h.offered, hnone, QueueAct.offered?]
      taking := fun _ => hnone }
  | returns job closed =>
    exact { h with
      offered := by simp [h.offered, QueueAct.offered?]
      taking := fun taking => absurd (closed.symm.trans taking) (by decide) }
  | leaves jobs rest c offers split stay same closed depth =>
    have hdepth := h.depth
    have hjobs := h.jobs
    rw [split] at hdepth hjobs
    exact {
      called := same.trans h.called
      jobs := by
        rw [← List.append_assoc, ← stay] at hjobs
        exact hjobs
      depth := by
        simp only [give, inside, stay, depth, hdepth, List.length_append]
        omega
      entered := by
        rw [give, List.filterMap_append, h.entered]
        simp [CountedQueue.leaving, Event.entered?, Function.comp_def]
      left := by
        rw [give, List.filterMap_append, h.left, List.map_append]
        simp [CountedQueue.leaving, Event.left?, h.called, Function.comp_def]
      offered := by simp [give, h.offered, offers]
      taking := fun taking => h.taking (by
        rw [← Bool.not_eq_true]
        exact fun hclosed => by simp [give, closed hclosed] at taking) }

theorem run_inOrder (name : QueueName) (acts : List QueueAct) :
    ((start name).run acts).InOrder name (acts.filterMap QueueAct.offered?) := by
  induction acts using List.reverseRecOn with
  | nil => exact ⟨rfl, rfl, rfl, rfl, rfl, rfl, fun _ => rfl⟩
  | append_singleton acts a ih =>
    have hone : [a].filterMap QueueAct.offered? = a.offered?.toList := by
      cases hoffered : a.offered? <;> simp [hoffered]
    rw [run_concat, List.filterMap_append, hone]
    exact ih.pass (step_passes _ a)

theorem Passage.isClosed (p : Passage t a t') (h : t.halves.queue.isClosed = true) :
    t'.halves.queue.isClosed = true := by
  cases p with
  | enters job taking => exact absurd (h.symm.trans taking) (by decide)
  | returns job closed => exact h
  | leaves jobs rest c offers split stay same closed depth => exact closed h

theorem run_isClosed (h : t.halves.queue.isClosed = true) (acts : List QueueAct) :
    (t.run acts).halves.queue.isClosed = true := by
  induction acts generalizing t with
  | nil => exact h
  | cons a acts ih => exact ih ((step_passes t a).isClosed h)

/-- The jobs handed out, in order, and those inside, in order, are the jobs that were let in, in
order. A job is let in or handed back as it is, with nothing changed; after the queue was closed or
drained it is handed back. What is inside can be taken from the front also then, unless the consumer
was told to give up. Both halves tell the number of jobs inside, which is the number of those that
are said to have entered less the number of those that are said to have left. -/
theorem first_in_first_out (name : QueueName) (acts : List QueueAct) :
    let t := (start name).run acts
    t.handedOut ++ t.inside = t.accepted ∧
    acts.filterMap QueueAct.offered? = t.accepted ++ t.refused ∧
    (∀ job back c, t.halves.enqueue job = (.error back, c) → back = job ∧ c = t.halves) ∧
    (∀ a ∈ [QueueAct.closes, .drains], ∀ later job,
      (((t.step a).run later).halves.enqueue job).1 = .error job) ∧
    ((t.step .closes).inside = t.inside ∧ t.halves.drain.1 = t.inside) ∧
    (∀ job rest, t.inside = job :: rest → ∃ c e,
      t.halves.tryDequeue = some (job, c, e) ∧ t.halves.dequeue false = (.job job, c, [e]) ∧
        c.queue.jobs = rest) ∧
    t.halves.dequeue true = (.ended, t.halves, []) ∧
    t.halves.length = t.halves.queue.length ∧
    t.halves.length = (t.told.filterMap (Event.entered? name)).length -
      (t.told.filterMap (Event.left? name)).length := by
  intro t
  have h : t.InOrder name (acts.filterMap QueueAct.offered?) := run_inOrder name acts
  refine ⟨h.jobs, h.offered, fun job back c hback => ?_, fun a ha later job => ?_,
    ⟨JobQueue.close_jobs _, ?_⟩, fun job rest hinside => ?_, t.halves.dequeue_cancelled, h.depth,
    ?_⟩
  · cases hclosed : t.halves.queue.isClosed with
    | true =>
      rw [t.halves.enqueue_closed hclosed] at hback
      cases hback
      exact ⟨rfl, rfl⟩
    | false =>
      rw [t.halves.enqueue_open hclosed] at hback
      cases hback
  · have hclosed : (t.step a).halves.queue.isClosed = true := by
      simp only [List.mem_cons, List.not_mem_nil, or_false] at ha
      obtain rfl | rfl := ha
      · exact JobQueue.isClosed_close _
      · rw [step, t.halves.drain_eq]
        exact JobQueue.isClosed_close _
    rw [((t.step a).run later).halves.enqueue_closed (run_isClosed hclosed later)]
  · rw [t.halves.drain_eq]
    rfl
  · exact ⟨_, _, t.halves.tryDequeue_cons hinside, t.halves.dequeue_cons hinside, rfl⟩
  · rw [h.entered, h.left, List.length_map, List.length_map, ← h.jobs, List.length_append]
    have hdepth : t.halves.length = t.inside.length := h.depth
    omega

/-- Two jobs enter and the first is taken, a cancelled consumer takes nothing, and what is offered
to the closed queue comes back. -/
theorem first_in_first_out_closed :
    let job : Nat → TrackedJob := fun internal => .ofRequest internal 0 ⟨0, .a, false, []⟩ 0
    let t := (start .requests).run [.enqueues (job 0), .clones, .enqueues (job 1),
      .dequeues true, .tries, .closes, .enqueues (job 2)]
    t.handedOut = [job 0] ∧ t.inside = [job 1] ∧ t.refused = [job 2] ∧ t.halves.length = 1 ∧
      ∃ c e, t.halves.dequeue false = (.job (job 1), c, [e]) ∧ c.queue.jobs = [] := by
  intro job t
  have hhanded : t.handedOut = [job 0] := by decide
  have hinside : t.inside = [job 1] := by decide
  have hrefused : t.refused = [job 2] := by decide
  obtain ⟨-, -, -, -, -, hfront, -, hlength, -⟩ := first_in_first_out .requests
    [.enqueues (job 0), .clones, .enqueues (job 1), .dequeues true, .tries, .closes,
      .enqueues (job 2)]
  obtain ⟨c, e, -, hdequeue, hempty⟩ := hfront (job 1) [] hinside
  refine ⟨hhanded, hinside, hrefused, ?_, c, e, hdequeue, hempty⟩
  exact hlength.trans (congrArg (fun jobs : List TrackedJob => (jobs.length : Int)) hinside)

end Traffic
end JobBroker
