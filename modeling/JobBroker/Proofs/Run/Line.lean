import JobBroker.Broker
import JobBroker.Proofs.Run.Balance
import Mathlib.Data.List.Induction

/-! The line of jobs in front of the scheduler: the parked job, and behind it the queue of requests.
Jobs join at the end and leave at the front, to a worker or because they have waited too long. -/
namespace JobBroker

inductive Exit where
  | assigned (worker : Nat)
  | failed
  deriving DecidableEq, Repr

namespace Event

def taken? : Event → Option Nat
  | jobDequeued .requests id => some id
  | _ => none

/-- Which job leaves the scheduler, and how. When a worker goes away its jobs are rejected too, for
another reason. -/
def exit? : Event → Option (Nat × Exit)
  | jobEnqueued (.worker worker) id => some (id, .assigned worker)
  | jobRejected id reason => if reason = noWorkerAvailable then some (id, .failed) else none
  | _ => none

/-- An event that tells nothing of the line. -/
structure IsAside (e : Event) : Prop where
  requested : e.requested? = none
  taken : e.taken? = none
  exit : e.exit? = none

theorem isAside_disconnection (job : TrackedJob) :
    ∀ e ∈ Directory.rejection workerDisconnected job, e.IsAside := by
  have hother : workerDisconnected ≠ noWorkerAvailable := by decide
  simp only [Directory.rejection, List.forall_mem_cons]
  exact ⟨⟨rfl, rfl, rfl⟩, ⟨rfl, rfl, by simp [exit?, hother]⟩, List.forall_mem_nil _⟩

theorem isAside_drained {q : JobQueue} (h : q.name ≠ .requests) :
    ∀ e ∈ Directory.drained q, e.IsAside := by
  intro e he
  obtain ⟨job, -, rfl⟩ := List.mem_map.1 (List.mem_reverse.1 he)
  refine ⟨rfl, ?_, rfl⟩
  cases hname : q.name with
  | requests => exact absurd hname h
  | _ => rfl

theorem isAside_undelivered (id : Nat) (jobs : List TrackedJob) :
    ∀ e ∈ Directory.undelivered id jobs, e.IsAside := by
  intro e he
  obtain ⟨job, -, rfl⟩ := List.mem_map.1 (List.mem_reverse.1 he)
  exact ⟨rfl, rfl, rfl⟩

end Event

/-! What the log tells, latest first. -/

def takenIn (log : List Event) : List Nat := log.filterMap Event.taken?

def exitsIn (log : List Event) : List (Nat × Exit) := log.filterMap Event.exit?

/-- What a move does to the line and to the clock. -/
inductive LineMove (s t : System) : Prop
  | aside (es : List Event) (log : t.directory.log = es ++ s.directory.log)
      (quiet : ∀ e ∈ es, e.IsAside)
      (requests : t.directory.requests.jobs = s.directory.requests.jobs)
      (scheduler : t.scheduler = s.scheduler) (clock : s.directory.now ≤ t.directory.now)
  | joins (job : TrackedJob) (submitted : job.submittedAt = s.directory.now)
      (log : t.directory.log = .jobEnqueued .requests job.internal :: s.directory.log)
      (requests : t.directory.requests.jobs = s.directory.requests.jobs ++ [job])
      (scheduler : t.scheduler = s.scheduler) (clock : t.directory.now = s.directory.now)
  | loads (job : TrackedJob) (idle : s.scheduler.parked = none)
      (log : t.directory.log = .jobDequeued .requests job.internal :: s.directory.log)
      (requests : s.directory.requests.jobs = job :: t.directory.requests.jobs)
      (scheduler : t.scheduler.parked = some job) (clock : t.directory.now = s.directory.now)
  | leaves (job : TrackedJob) (exit : Exit) (e : Event) (parked : s.scheduler.parked = some job)
      (others : List Event) (log : t.directory.log = others ++ e :: s.directory.log)
      (quiet : ∀ e ∈ others, e.IsAside) (requested : e.requested? = none) (taken : e.taken? = none)
      (told : e.exit? = some (job.internal, exit))
      (requests : t.directory.requests.jobs = s.directory.requests.jobs)
      (scheduler : t.scheduler = {}) (clock : t.directory.now = s.directory.now)

theorem Move.inLine {s t : System} (h : Move s s.directory t) (hd : s.directory.Wired) :
    LineMove s t := by
  cases h with
  | submits requester request =>
    exact .joins (.ofRequest s.directory.ids.nextJob requester request s.directory.now) rfl rfl rfl
      rfl rfl
  | loads job rest idle first => exact .loads job idle rfl first rfl rfl
  | assigns job id w parked =>
    exact .leaves job (.assigned id) _ parked [] rfl nofun rfl rfl rfl rfl rfl rfl
  | starves job parked =>
    exact .leaves job .failed (.jobRejected job.internal noWorkerAvailable) parked
      [.jobEnqueued .completions job.internal] rfl
      (List.forall_mem_singleton.2 ⟨rfl, rfl, rfl⟩) rfl rfl (by simp [Event.exit?]) rfl rfl rfl
  | delivers job rest o r =>
    refine .aside [_, _, _] rfl ?_ rfl rfl (Nat.le_refl _)
    simp only [List.forall_mem_cons]
    exact ⟨⟨rfl, rfl, rfl⟩, ⟨rfl, rfl, rfl⟩, ⟨rfl, rfl, rfl⟩, List.forall_mem_nil _⟩
  | loses job rest o =>
    refine .aside [_, _] rfl ?_ rfl rfl (Nat.le_refl _)
    simp only [List.forall_mem_cons]
    exact ⟨⟨rfl, rfl, rfl⟩, ⟨rfl, rfl, rfl⟩, List.forall_mem_nil _⟩
  | jobQueue id w q es place name dequeued =>
    refine .aside es rfl (fun e he => ?_) rfl rfl (Nat.le_refl _)
    obtain ⟨job, rfl⟩ := dequeued e he
    exact ⟨rfl, rfl, rfl⟩
  | workerLeaves id w place =>
    refine .aside _ rfl (fun e he => ?_) rfl rfl (Nat.le_refl _)
    obtain rfl | he := List.mem_cons.1 he
    · exact ⟨rfl, rfl, rfl⟩
    obtain he | he := List.mem_append.1 he
    · obtain ⟨job, -, hjob⟩ := List.mem_flatMap.1 he
      exact Event.isAside_disconnection job e hjob
    · exact Event.isAside_drained (by rw [(hd.worker id w place).2]; nofun) e he
  | requesterLeaves id r place =>
    refine .aside _ rfl (fun e he => ?_) rfl rfl (Nat.le_refl _)
    obtain rfl | he := List.mem_cons.1 he
    · exact ⟨rfl, rfl, rfl⟩
    obtain he | he := List.mem_append.1 he
    · exact Event.isAside_undelivered id _ e he
    · exact Event.isAside_drained (by rw [(hd.requester id r place).2]; nofun) e he
  | requesterJoins | workerJoins | reports | strands | takesResult =>
    exact .aside [_] rfl (List.forall_mem_singleton.2 ⟨rfl, rfl, rfl⟩) rfl rfl (Nat.le_refl _)
  | misreports | closesResults | writes => exact .aside [] rfl nofun rfl rfl (Nat.le_refl _)
  | waits span => exact .aside [] rfl nofun rfl rfl (Nat.le_add_right _ _)

theorem takenIn_append {es : List Event} (h : ∀ e ∈ es, e.taken? = none) (log : List Event) :
    takenIn (es ++ log) = takenIn log := by
  rw [takenIn, List.filterMap_append, List.filterMap_eq_nil_iff.2 h, List.nil_append, takenIn]

theorem exitsIn_append {es : List Event} (h : ∀ e ∈ es, e.exit? = none) (log : List Event) :
    exitsIn (es ++ log) = exitsIn log := by
  rw [exitsIn, List.filterMap_append, List.filterMap_eq_nil_iff.2 h, List.nil_append, exitsIn]

namespace System
variable {s t : System}

def line (s : System) : List TrackedJob := s.scheduler.parked.toList ++ s.directory.requests.jobs

/-- What was accepted waits in the queue or was taken, and what was taken is parked or has left, all
in the order of acceptance. -/
structure Lined (s : System) : Prop where
  accepted : requestedIn s.directory.log =
    (s.directory.requests.jobs.map (·.internal)).reverse ++ takenIn s.directory.log
  taken : takenIn s.directory.log =
    s.scheduler.parked.toList.map (·.internal) ++ (exitsIn s.directory.log).map Prod.fst

theorem lined_move (h : LineMove s t) (hs : s.Lined) : t.Lined := by
  cases h with
  | aside es log quiet requests scheduler =>
    have htaken := takenIn_append (fun e he => (quiet e he).taken) s.directory.log
    constructor
    · rw [log, requestedIn_append fun e he => (quiet e he).requested, htaken, requests, hs.accepted]
    · rw [log, htaken, exitsIn_append fun e he => (quiet e he).exit, scheduler, hs.taken]
  | joins job submitted log requests scheduler =>
    constructor
    · have hjoined : requestedIn t.directory.log =
          job.internal :: requestedIn s.directory.log := by rw [log]; rfl
      have htaken : takenIn t.directory.log = takenIn s.directory.log := by rw [log]; rfl
      rw [hjoined, htaken, requests, hs.accepted]
      simp
    · rw [log, scheduler]
      exact hs.taken
  | loads job idle log requests scheduler =>
    have htaken : takenIn t.directory.log = job.internal :: takenIn s.directory.log := by
      rw [log]; rfl
    constructor
    · have haccepted : requestedIn t.directory.log = requestedIn s.directory.log := by rw [log]; rfl
      rw [haccepted, hs.accepted, htaken, requests]
      simp
    · have hexits : exitsIn t.directory.log = exitsIn s.directory.log := by rw [log]; rfl
      rw [htaken, hexits, hs.taken, scheduler, idle]
      rfl
  | leaves job exit e parked others log quiet requested taken told requests scheduler =>
    have htaken : takenIn t.directory.log = takenIn s.directory.log := by
      rw [log, takenIn_append fun e he => (quiet e he).taken, takenIn,
        List.filterMap_cons_none taken, takenIn]
    have hexits : exitsIn t.directory.log = (job.internal, exit) :: exitsIn s.directory.log := by
      rw [log, exitsIn_append fun e he => (quiet e he).exit, exitsIn,
        List.filterMap_cons_some told, exitsIn]
    constructor
    · rw [htaken, requests, ← hs.accepted, log,
        requestedIn_append fun e he => (quiet e he).requested, requestedIn,
        List.filterMap_cons_none requested, requestedIn]
    · rw [htaken, hexits, scheduler, hs.taken, parked]
      rfl

theorem run_lined (build : Build) (scheduling : Scheduling) (now : Millis)
    (steps : List Step) :
    ((start build scheduling now).run steps).Lined :=
  run_invariant build scheduling now steps ⟨rfl, rfl⟩ fun _ _ hd _ hmove hs =>
    lined_move (hmove.inLine hd) hs

/-- Since the moment `r` the clock has not gone back, and what joined the line since then was
submitted no earlier. -/
structure Since (r s : System) : Prop where
  clock : r.directory.now ≤ s.directory.now
  waiting : ∀ job ∈ s.line, job.internal ∈ requestedIn r.directory.log ∨
    r.directory.now ≤ job.submittedAt

theorem since_move {r : System} (h : LineMove s t) (hs : Since r s) : Since r t := by
  cases h with
  | aside es log quiet requests scheduler clock =>
    refine ⟨Nat.le_trans hs.clock clock, fun job hjob => hs.waiting job ?_⟩
    rwa [line, scheduler, requests] at hjob
  | joins job submitted log requests scheduler clock =>
    refine ⟨by rw [clock]; exact hs.clock, fun job' hjob => ?_⟩
    rw [line, scheduler, requests, ← List.append_assoc, List.mem_append] at hjob
    obtain hold | hnew := hjob
    · exact hs.waiting job' hold
    · rw [List.mem_singleton.1 hnew, submitted]
      exact .inr hs.clock
  | loads job idle log requests scheduler clock =>
    refine ⟨by rw [clock]; exact hs.clock, fun job' hjob => hs.waiting job' ?_⟩
    rw [line, idle, requests]
    rwa [line, scheduler] at hjob
  | leaves job exit e parked others log quiet requested taken told requests scheduler clock =>
    refine ⟨by rw [clock]; exact hs.clock, fun job' hjob => hs.waiting job' ?_⟩
    rw [line, scheduler, requests] at hjob
    exact List.mem_append_right _ hjob

/-- What a job that leaves in an iteration of the scheduler from `s` to `t` leaves for. -/
inductive Leaves (s t : System) (job : TrackedJob) : Exit → Prop
  | assigned (id : Nat) (w : Worker) (place : s.directory.workers[id]? = some w)
      (connected : w.connected = true) (accepting : w.isAccepting = true)
      (given : t.directory.workers =
        s.directory.workers.set id (Directory.assignedTo w (job.withWorker id))) :
      Leaves s t job (.assigned id)
  | failed (nobody : ∀ w ∈ s.directory.connectedWorkers, w.isAccepting = false)
      (limited : s.directory.scheduling.starvationMillis ≠ 0)
      (waited : job.submittedAt + s.directory.scheduling.starvationMillis.toNat ≤ s.directory.now)
      (rejected : t.directory.completions.jobs = s.directory.completions.jobs ++
        [job.withOutcome false (Text.bytes noWorkerAvailable)]) : Leaves s t job .failed

theorem idle_of_line (h : s.line = []) : s.scheduler.parked = none := by
  rw [line, List.append_eq_nil_iff, Option.toList_eq_nil_iff] at h
  exact h.1

theorem load_cases (hd : s.directory.Wired) :
    (s.line = [] ∧ s.load = s) ∨
    ∃ job requests log, s.line.head? = some job ∧ s.load.scheduler.parked = some job ∧
      s.load.directory = { s.directory with requests := requests, log := log } ∧
      exitsIn log = exitsIn s.directory.log := by
  cases hparked : s.scheduler.parked with
  | some job =>
    have hload : s.load = s := by rw [load, hparked]
    exact .inr ⟨job, _, _, by rw [line, hparked]; rfl, by rw [hload, hparked], by rw [hload], rfl⟩
  | none =>
    obtain ⟨hempty, htake⟩ | ⟨job, rest, hfirst, htake⟩ := Directory.takeRequest_cases hd
    · exact .inl ⟨by rw [line, hparked, hempty]; rfl, by simp only [load, hparked, htake]⟩
    · have hload : s.load = { s with scheduler := { parked := some job } }.goOn []
          ((s.directory.withRequests rest).tell [.jobDequeued .requests job.internal]) := by
        simp only [load, hparked, htake]
      exact .inr ⟨job, { s.directory.requests with jobs := rest },
        .jobDequeued .requests job.internal :: s.directory.log,
        by rw [line, hparked, hfirst]; rfl, by rw [hload]; rfl, by rw [hload]; rfl, rfl⟩

theorem overloaded_load (hd : s.directory.Wired) :
    s.load.directory.Overloaded ↔ s.directory.Overloaded := by
  obtain ⟨-, hload⟩ | ⟨job, requests, log, -, -, hload, -⟩ := load_cases hd
  · rw [hload]
  · rw [hload]
    rfl

/-- What an iteration of the scheduler from `s` to `t` does: the first job in line leaves, or it
stays because no worker takes jobs and its time is not over. With checks the scheduler fails over a
worker that takes jobs and has more to do than can be reckoned. -/
inductive Iteration (s t : System) : Prop
  | rests (empty : s.line = []) (same : t = s)
  | lets (job : TrackedJob) (exit : Exit) (first : s.line.head? = some job)
      (leaves : Leaves s t job exit)
      (told : exitsIn t.directory.log = (job.internal, exit) :: exitsIn s.directory.log)
  | keeps (job : TrackedJob) (first : s.line.head? = some job)
      (nobody : ∀ w ∈ s.directory.connectedWorkers, w.isAccepting = false)
      (early : s.directory.scheduling.starvationMillis ≠ 0 →
        s.directory.now < job.submittedAt + s.directory.scheduling.starvationMillis.toNat)
      (parked : t.scheduler.parked = some job)
      (told : exitsIn t.directory.log = exitsIn s.directory.log)
  | fails (overloaded : s.directory.Overloaded)
      (panics : s.scheduler.step s.directory = .error .addOverflow) (same : t = s)

theorem schedules_iteration (hd : s.directory.Wired) (ha : s.directory.Attended) :
    Iteration s (s.step .schedules) := by
  have hd' := (load_moves hd).moves.wired hd
  have ha' := (load_moves hd).moves.attended ha
  obtain ⟨hempty, hload⟩ | ⟨job, requests, log, hfirst, hparked, hload, hlog⟩ := load_cases hd
  · have hidle : s.load.scheduler.parked = none := by
      rw [hload]
      exact idle_of_line hempty
    exact .rests hempty ((step_placed (scheduler_idle hidle)).trans (goOn_same s))
  · -- The job is placed where it was loaded, among the same workers and by the same clock.
    have hstep := scheduler_loaded hparked
    obtain ⟨hover, hcase⟩ | ⟨id, w, hw, hconnected, haccepting, hcase⟩ |
        ⟨hnobody, ⟨hdue, hcase⟩ | ⟨hearly, hcase⟩⟩ := Directory.place_cases hd' ha' job
    all_goals rw [hcase] at hstep
    · exact .fails ((overloaded_load hd).1 hover) hstep (by simp only [step, hstep])
    · rw [hload] at hw hstep
      rw [step_placed hstep]
      exact .lets job (.assigned id) hfirst (.assigned id w hw hconnected haccepting rfl)
        (hlog ▸ rfl)
    · rw [hload] at hnobody hdue hstep
      obtain ⟨hlimited, hwaited⟩ := (Directory.isOverdue_iff _ job).1 hdue
      rw [step_placed hstep]
      refine .lets job .failed hfirst (.failed hnobody hlimited hwaited rfl) ?_
      rw [← hlog]
      simp [goOn, exitsIn, Directory.rejection, Event.exit?, List.filterMap_cons]
    · rw [hload] at hnobody hearly hstep
      rw [step_placed hstep]
      refine .keeps job hfirst hnobody (fun hlimited => ?_) rfl hlog
      rw [← Bool.not_eq_true, Directory.isOverdue_iff] at hearly
      exact Nat.not_le.1 fun hwaited => hearly ⟨hlimited, hwaited⟩

theorem scheduler_fails_iff (hd : s.directory.Wired) :
    s.scheduler.step s.directory = .error .addOverflow ↔
      s.line ≠ [] ∧ s.directory.Overloaded := by
  obtain ⟨hempty, hload⟩ | ⟨job, requests, log, hfirst, hparked, -, -⟩ := load_cases hd
  · have hidle : s.load.scheduler.parked = none := by
      rw [hload]
      exact idle_of_line hempty
    rw [scheduler_idle hidle]
    exact iff_of_false nofun fun h => h.1 hempty
  · have hsome : s.line ≠ [] := by
      rintro hempty
      rw [hempty] at hfirst
      cases hfirst
    rw [scheduler_loaded hparked, Directory.place_fails_iff ((load_moves hd).moves.wired hd),
      overloaded_load hd, and_iff_right hsome]

theorem exits_step (hd : s.directory.Wired) (ha : s.directory.Attended) {x : Step}
    (hx : x ≠ .schedules) :
    exitsIn (s.step x).directory.log = exitsIn s.directory.log := by
  have hscheduler : (s.step x).scheduler = s.scheduler := by
    cases x with
    | schedules => exact absurd rfl hx
    | routes =>
      rw [step]
      cases s.directory.routeNext <;> rfl
    | takes peer =>
      rw [step, take]
      cases s.directory.takeFor peer with
      | none => rfl
      | some taken => cases peer <;> rfl
    | submits | writes | leaves =>
      simp only [step, submit, write, leave]
      repeat' split
      all_goals rfl
    | _ => rfl
  have hmoved := step_moved hd ha hx
  generalize s.step x = t at hmoved hscheduler
  cases hmoved with
  | refl => rfl
  | single hmove =>
    cases hmove.inLine hd with
    | aside es log quiet => rw [log, exitsIn_append fun e he => (quiet e he).exit]
    | joins job submitted log => rw [log]; rfl
    | loads job idle log => rw [log]; rfl
    | leaves job exit e parked others log quiet requested taken told requests scheduler =>
      -- The scheduler would have let go of its parked job.
      rw [scheduler] at hscheduler
      rw [← hscheduler] at parked
      cases parked

theorem scheduling_move (h : Move s s.directory t) :
    t.directory.scheduling = s.directory.scheduling := by
  cases h <;> rfl

theorem build_move (h : Move s s.directory t) : t.directory.build = s.directory.build := by
  cases h <;> rfl

theorem Lined.mem_requestedIn (hs : s.Lined) {job : TrackedJob} (h : job ∈ s.line) :
    job.internal ∈ requestedIn s.directory.log := by
  rw [hs.accepted, hs.taken]
  obtain hparked | hqueue := List.mem_append.1 h
  · exact List.mem_append_right _ (List.mem_append_left _ (List.mem_map_of_mem hparked))
  · exact List.mem_append_left _ (List.mem_reverse.2 (List.mem_map_of_mem hqueue))

theorem run_since (build : Build) (scheduling : Scheduling) (now : Millis)
    (earlier later : List Step) :
    Since ((start build scheduling now).run earlier)
      ((start build scheduling now).run (earlier ++ later)) := by
  obtain ⟨hd, ha⟩ := run_sound build scheduling now earlier
  have hlined := run_lined build scheduling now earlier
  rw [run_append]
  refine (moves_run hd ha later).keeps (fun s t hd _ hmove hs => since_move (hmove.inLine hd) hs)
    hd ha ⟨Nat.le_refl _, fun job hjob => .inl (hlined.mem_requestedIn hjob)⟩

/-- A job left in the iteration behind the steps `before`: it was the first in line, and it was
submitted no earlier than any moment at which it had not been accepted yet. -/
structure LeftAfter (s : System) (before : List Step) (job : TrackedJob) (exit : Exit) : Prop where
  first : (s.run before).line.head? = some job
  leaves : Leaves (s.run before) (s.run (before ++ [.schedules])) job exit
  told : exitsIn (s.run (before ++ [.schedules])).directory.log =
    (job.internal, exit) :: exitsIn (s.run before).directory.log
  submitted : ∀ earlier, earlier <+: before →
    job.internal ∉ requestedIn (s.run earlier).directory.log →
      (s.run earlier).directory.now ≤ job.submittedAt

theorem exit_iteration (build : Build) (scheduling : Scheduling) (now : Millis)
    (steps : List Step) :
    ∀ out ∈ exitsIn ((start build scheduling now).run steps).directory.log,
      ∃ before after job, steps = before ++ .schedules :: after ∧ job.internal = out.1 ∧
        (start build scheduling now).LeftAfter before job out.2 := by
  induction steps using List.reverseRecOn with
  | nil => exact fun _ h => (List.not_mem_nil h).elim
  | append_singleton steps x ih =>
    intro out hout
    obtain ⟨hd, ha⟩ := run_sound build scheduling now steps
    have hearlier (hold : out ∈ exitsIn ((start build scheduling now).run steps).directory.log) :
        ∃ before after job, steps ++ [x] = before ++ .schedules :: after ∧
          job.internal = out.1 ∧ (start build scheduling now).LeftAfter before job out.2 := by
      obtain ⟨before, after, job, rfl, hid, hleft⟩ := ih out hold
      exact ⟨before, after ++ [x], job, by simp, hid, hleft⟩
    rw [run_concat] at hout
    by_cases hx : x = .schedules
    · subst hx
      cases schedules_iteration hd ha with
      | rests _ same | fails _ _ same =>
        rw [same] at hout
        exact hearlier hout
      | keeps job first nobody early parked told =>
        rw [told] at hout
        exact hearlier hout
      | lets job exit hfirst hleaves htold =>
        rw [htold] at hout
        obtain rfl | hold := List.mem_cons.1 hout
        · rw [← run_concat] at hleaves htold
          refine ⟨steps, [], job, rfl, rfl, hfirst, hleaves, htold, ?_⟩
          rintro earlier ⟨later, rfl⟩ hnew
          have hline := List.mem_of_mem_head? (Option.mem_def.2 hfirst)
          exact ((run_since build scheduling now earlier later).waiting job hline).resolve_left hnew
        · exact hearlier hold
    · rw [exits_step hd ha hx] at hout
      exact hearlier hout

/-- The scheduler works step by step until it has to wait, or fails. -/
theorem scheduler_run (hd : s.directory.Wired) (ha : s.directory.Attended) (n : Nat) :
    ∃ count,
      let t := s.run (List.replicate count .schedules)
      s.scheduler.run n s.directory = .ok (t.scheduler, t.directory) ∨
        s.scheduler.run n s.directory = .error .addOverflow ∧ t.line ≠ [] ∧
          t.directory.Overloaded := by
  induction n generalizing s with
  | zero => exact ⟨0, .inl rfl⟩
  | succ n ih =>
    cases hstep : s.scheduler.step s.directory with
    | error panic =>
      cases panic
      exact ⟨0, .inr ⟨by rw [Scheduler.run, hstep], (scheduler_fails_iff hd).1 hstep⟩⟩
    | ok placed =>
      obtain ⟨scheduler, d⟩ := placed
      have hmoves := step_moves hd ha .schedules
      obtain ⟨count, hcount⟩ := ih (hmoves.wired hd) (hmoves.attended ha)
      have hplaced := step_placed hstep
      rw [Scheduler.run, hstep]
      rcases scheduler with ⟨_ | job⟩
      · rw [hplaced] at hcount
        exact ⟨count + 1, by rw [List.replicate_succ, run, List.foldl_cons, hplaced]; exact hcount⟩
      · exact ⟨1, .inl (by rw [List.replicate_one, run, List.foldl_cons, hplaced]; rfl)⟩

theorem schedule_eq (hd : s.directory.Wired) (ha : s.directory.Attended) {b : Broker}
    (hdirectory : b.directory = s.directory) (hscheduler : b.scheduler = .running s.scheduler) :
    if b.stopping then
      b.schedule = .ok (.finished, b.endScheduler) ∧
        b.endScheduler.directory = { s.directory with requests := s.directory.requests.drop }
    else ∃ count,
      let t := s.run (List.replicate count .schedules)
      b.schedule =
          .ok (.waiting, { b with directory := t.directory, scheduler := .running t.scheduler }) ∨
        b.schedule = .error .addOverflow ∧ t.line ≠ [] ∧ t.directory.Overloaded := by
  cases hstopping : b.stopping with
  | true =>
    rw [if_pos rfl, ← hdirectory]
    exact ⟨by simp only [Broker.schedule, hscheduler, hstopping, if_true], rfl⟩
  | false =>
    rw [if_neg Bool.false_ne_true]
    obtain ⟨count, hcount | ⟨hfails, hover⟩⟩ :=
      scheduler_run hd ha (s.directory.requests.length + 1)
    · have hmoves := moves_run hd ha (List.replicate count .schedules)
      have hopen :
          (s.run (List.replicate count .schedules)).directory.requests.isClosed = false := by
        rw [JobQueue.isClosed, (hmoves.attended ha).requests]
        rfl
      refine ⟨count, .inl ?_⟩
      simp only [Broker.schedule, hscheduler, hstopping, Scheduler.settle, hdirectory, hcount,
        hopen, Bool.and_false, Bool.false_eq_true, if_false]
    · refine ⟨count, .inr ⟨?_, hover⟩⟩
      simp only [Broker.schedule, hscheduler, hstopping, Scheduler.settle, hdirectory, hfails,
        Bool.false_eq_true, if_false]

theorem run_scheduling (build : Build) (scheduling : Scheduling) (now : Millis)
    (steps : List Step) :
    ((start build scheduling now).run steps).directory.scheduling = scheduling :=
  run_invariant (motive := fun s => s.directory.scheduling = scheduling) build scheduling now steps
    rfl fun _ _ _ _ hmove hs => (scheduling_move hmove).trans hs

theorem run_build (build : Build) (scheduling : Scheduling) (now : Millis) (steps : List Step) :
    ((start build scheduling now).run steps).directory.build = build :=
  run_invariant (motive := fun s => s.directory.build = build) build scheduling now steps rfl
    fun _ _ _ _ hmove hs => (build_move hmove).trans hs

theorem nodup_requestedIn (build : Build) (scheduling : Scheduling) (now : Millis)
    (steps : List Step) :
    (requestedIn ((start build scheduling now).run steps).directory.log).Nodup := by
  obtain ⟨hconserved, -, hsettled⟩ := run_settled build scheduling now steps
  rw [hsettled.requested, List.nodup_iff_count]
  intro id
  rw [hconserved.issued]
  split <;> omega

/-- Every job that was accepted is in its place in line or has left, in the order of acceptance, and
a job is taken only when the one before it has left. In the next iteration of the scheduler the
first in line leaves unless no worker takes jobs and its time is not over. Whatever has left did so
once, in such an iteration: it was given to a worker that took jobs, or it was failed because no
worker did and it had waited too long since it was submitted. The scheduler works in iterations
until the broker stops; then the parked job is dropped, and what was not taken is left in the queue,
while nothing is told of either. All of this ends, if the program was built with checks, when there
is a job to place and a worker that takes jobs has more to do than can be reckoned; and only then.
-/
theorem jobs_leave_in_order (build : Build) (scheduling : Scheduling) (now : Millis)
    (steps : List Step) :
    let s := (start build scheduling now).run steps
    s.directory.scheduling = scheduling ∧ s.directory.build = build ∧ s.Lined ∧
      (requestedIn s.directory.log).Nodup ∧
      Iteration s (s.step .schedules) ∧
      (s.scheduler.step s.directory = .error .addOverflow ↔
        s.line ≠ [] ∧ s.directory.Overloaded) ∧
      (∀ out ∈ exitsIn s.directory.log, ∃ before after job, steps = before ++ .schedules :: after ∧
        job.internal = out.1 ∧ (start build scheduling now).LeftAfter before job out.2) ∧
      ∀ b : Broker, b.directory = s.directory → b.scheduler = .running s.scheduler →
        if b.stopping then
          b.schedule = .ok (.finished, b.endScheduler) ∧
            b.endScheduler.directory = { s.directory with requests := s.directory.requests.drop }
        else ∃ count,
          let t := s.run (List.replicate count .schedules)
          b.schedule = .ok
              (.waiting, { b with directory := t.directory, scheduler := .running t.scheduler }) ∨
            b.schedule = .error .addOverflow ∧ t.line ≠ [] ∧ t.directory.Overloaded := by
  obtain ⟨hd, ha⟩ := run_sound build scheduling now steps
  exact ⟨run_scheduling build scheduling now steps, run_build build scheduling now steps,
    run_lined build scheduling now steps, nodup_requestedIn build scheduling now steps,
    schedules_iteration hd ha, scheduler_fails_iff hd, exit_iteration build scheduling now steps,
    fun _ hdirectory hscheduler => schedule_eq hd ha hdirectory hscheduler⟩

/-- Without a worker the first of two jobs is failed when its time is over; the second goes to the
worker that joins then. -/
theorem jobs_leave_in_order_starved :
    let steps : List Step := [.requesterJoins "", .submits 0 ⟨7, .a, false, []⟩,
      .submits 0 ⟨8, .b, false, []⟩, .schedules, .waits 30000, .schedules, .workerJoins "" .a,
      .schedules]
    let s := (start .checked {} 0).run steps
    exitsIn s.directory.log = [(1, .assigned 0), (0, .failed)] ∧
      ∃ before after job, steps = before ++ .schedules :: after ∧ job.internal = 0 ∧
        (start .checked {} 0).LeftAfter before job .failed := by
  intro steps s
  have hexits : exitsIn s.directory.log = [(1, .assigned 0), (0, .failed)] := by
    decide +kernel
  have hfailed : (0, Exit.failed) ∈ exitsIn s.directory.log := by
    rw [hexits]
    decide
  obtain ⟨-, -, -, -, -, -, hleft, -⟩ := jobs_leave_in_order .checked {} 0 steps
  exact ⟨hexits, hleft _ hfailed⟩

/-- With three jobs of the longest time that a configuration file can say, a worker still takes
jobs; but with checks the scheduler fails over the fourth, which neither is given to the worker nor
comes out as failed. -/
theorem scheduler_fails_over_fourth :
    let submission : Step := .submits 0 ⟨7, .a, false, []⟩
    let s := (start .checked { slow := 9223372036854775807 } 0).run
      ([.requesterJoins "", .workerJoins "" .b] ++ List.replicate 4 submission ++
        List.replicate 3 .schedules)
    s.directory.workers.map (fun w => (w.isAccepting, w.outstanding.map (·.internal))) =
      [(true, [0, 1, 2])] ∧
    s.line.map (·.internal) = [3] ∧ s.scheduler.step s.directory = .error .addOverflow := by
  decide +kernel

end System

end JobBroker
