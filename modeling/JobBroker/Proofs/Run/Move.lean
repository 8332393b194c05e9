import JobBroker.Proofs.Run.Effects
import Mathlib.Logic.Relation

/-! Every step of a run is a chain of moves. A move changes the record of a broker in one way that
its constructor spells out, so that an invariant has to look at the moves only. -/
namespace JobBroker

@[simp] def System.moveTo (s : System) (call : List Entry) (d : Directory) (es : List Event) :
    System :=
  { s with directory := d.tell es, history := es.map .event ++ call ++ s.history }

open Directory in
/-- One change of a broker `s` with the directory `d`. -/
inductive Move (s : System) (d : Directory) : System → Prop
  | requesterJoins (peer : String) :
      Move s d (s.moveTo [] (d.joinedRequester peer) [.requesterAdded d.ids.nextRequester peer])
  | workerJoins (peer : String) (specialty : JobType) :
      Move s d (s.moveTo [] (d.joinedWorker peer specialty)
        [.workerAdded d.ids.nextWorker peer specialty])
  | submits (requester : Nat) (request : Job) (joined : requester < d.requesters.length) :
      Move s d (s.moveTo [.submission d.ids.nextJob requester request]
        (d.submitted requester request) [.jobEnqueued .requests d.ids.nextJob])
  | loads (job : TrackedJob) (rest : List TrackedJob) (idle : s.scheduler.parked = none)
      (first : d.requests.jobs = job :: rest) :
      Move s d ({ s with scheduler := { parked := some job } }.moveTo []
        (d.withRequests rest) [.jobDequeued .requests job.internal])
  | assigns (job : TrackedJob) (id : Nat) (w : Worker) (parked : s.scheduler.parked = some job)
      (place : d.workers[id]? = some w) (connected : w.connected = true) :
      Move s d ({ s with scheduler := {} }.moveTo []
        (d.withWorker id (assignedTo w (job.withWorker id)))
        [.jobEnqueued (.worker id) job.internal])
  | starves (job : TrackedJob) (parked : s.scheduler.parked = some job)
      (overdue : d.isOverdue job = true) :
      Move s d ({ s with scheduler := {} }.moveTo []
        (d.withCompletions (d.completions.jobs ++
          [job.withOutcome false (Text.bytes noWorkerAvailable)]))
        (rejection noWorkerAvailable job))
  | reports (id : Nat) (report : Job) (w : Worker) (job : TrackedJob)
      (place : d.workers[id]? = some w)
      (found : w.outstanding.find? (fun j => j.internal == job.internal) = some job)
      (named : job.internal = report.id.toNat) :
      Move s d (s.moveTo [.report id report]
        ((d.withWorker id
          (reportedBy w (job.withOutcome report.succeeded report.result))).withCompletions
            (d.completions.jobs ++ [job.withOutcome report.succeeded report.result]))
        [.jobEnqueued .completions job.internal])
  | misreports (id : Nat) (report : Job)
      (unknown : ∀ w, d.workers[id]? = some w → ∀ j ∈ w.outstanding, j.internal ≠ report.id.toNat) :
      Move s d (s.moveTo [.report id report] d [])
  | delivers (job : TrackedJob) (rest : List TrackedJob) (o : Owner) (r : Requester)
      (first : d.completions.jobs = job :: rest) (owner : d.owner? job.internal = some o)
      (place : d.requesters[o.requester]? = some r) (connected : r.connected = true) :
      Move s d (s.moveTo []
        (((d.withCompletions rest).withoutOwners [job.internal]).withRequester o.requester
          (withResult r job))
        [.jobDelivered job.internal o.requester,
          .jobEnqueued (.requester o.requester) job.internal,
          .jobDequeued .completions job.internal])
  | loses (job : TrackedJob) (rest : List TrackedJob) (o : Owner)
      (first : d.completions.jobs = job :: rest) (owner : d.owner? job.internal = some o) :
      Move s d (s.moveTo [] ((d.withCompletions rest).withoutOwners [job.internal])
        [.jobUndeliverable job.internal o.requester, .jobDequeued .completions job.internal])
  /-- The router finds no owner of a result. -/
  | strands (job : TrackedJob) (rest : List TrackedJob)
      (first : d.completions.jobs = job :: rest) (owner : d.owner? job.internal = none) :
      Move s d (s.moveTo [] (d.withCompletions rest) [.jobDequeued .completions job.internal])
  /-- The session of a worker takes a job to be written, or closes its queue. -/
  | jobQueue (id : Nat) (w : Worker) (q : JobQueue) (es : List Event)
      (place : d.workers[id]? = some w) (name : q.name = w.jobs.name)
      (dequeued : ∀ e ∈ es, ∃ job, e = .jobDequeued (.worker id) job) :
      Move s d (s.moveTo [] (d.withWorker id { w with jobs := q }) es)
  | takesResult (id : Nat) (r : Requester) (job : TrackedJob) (rest : List TrackedJob)
      (place : d.requesters[id]? = some r) (first : r.results.jobs = job :: rest) :
      Move s d ({ s with held := s.held ++ [(id, job)] }.moveTo []
        (d.withRequester id { r with results := r.results.withJobs rest })
        [.jobDequeued (.requester id) job.internal])
  | closesResults (id : Nat) (r : Requester) (place : d.requesters[id]? = some r) :
      Move s d (s.moveTo [] (d.withRequester id { r with results := r.results.close }) [])
  | writes (id : Nat) (h : Nat × TrackedJob) (first : s.held.find? (fun h => h.1 == id) = some h) :
      Move s d ({ s with
        held := s.held.eraseP fun h => h.1 == id
        written := h :: s.written }.moveTo []
        (d.modifyRequester id Requester.recordDelivery) [])
  | workerLeaves (id : Nat) (w : Worker) (place : d.workers[id]? = some w)
      (connected : w.connected = true) :
      Move s d (s.moveTo []
        ((d.withWorker id (departedWorker w)).withCompletions (d.completions.jobs ++
          w.outstanding.map fun job => job.withOutcome false (Text.bytes workerDisconnected)))
        (Event.workerRemoved id w.outstanding.length ::
          w.outstanding.reverse.flatMap (rejection workerDisconnected) ++ drained w.jobs))
  | requesterLeaves (id : Nat) (r : Requester) (place : d.requesters[id]? = some r)
      (connected : r.connected = true) :
      Move s d ({ s with held := s.heldWithout (.requester id) }.moveTo []
        ((d.withRequester id (departedRequester r)).withoutOwners
          ((s.heldBy (.requester id) ++ r.results.jobs).map TrackedJob.internal))
        (Event.requesterRemoved id :: undelivered id (s.heldBy (.requester id) ++ r.results.jobs) ++
          drained r.results))
  | waits (span : Millis) : Move s d (s.moveTo [] { d with now := d.now + span } [])

namespace Move
variable {s t : System} {d : Directory}

theorem wired (h : Move s d t) (hd : d.Wired) : t.directory.Wired := by
  cases h with
  | requesterJoins peer => exact (hd.joinedRequester peer).tell _
  | workerJoins peer specialty => exact (hd.joinedWorker peer specialty).tell _
  | submits requester request => exact (hd.submitted requester request).tell _
  | loads job rest => exact (hd.withRequests rest).tell _
  | assigns job id w parked place => exact (hd.withWorker place (by rfl) (by rfl)).tell _
  | starves => exact (hd.withCompletions _).tell _
  | reports id report w job place =>
    exact ((hd.withWorker place (by rfl) (by rfl)).withCompletions _).tell _
  | misreports => exact hd.tell _
  | delivers job rest o r first owner place =>
    exact (((hd.withCompletions rest).withoutOwners _).withRequester place (by rfl) (by rfl)).tell _
  | loses job rest => exact ((hd.withCompletions rest).withoutOwners _).tell _
  | strands job rest => exact (hd.withCompletions rest).tell _
  | jobQueue id w q es place name => exact (hd.withWorker place (by rfl) (by exact name)).tell _
  | takesResult id r job rest place => exact (hd.withRequester place (by rfl) (by rfl)).tell _
  | closesResults id r place =>
    exact (hd.withRequester place (by rfl) (by simp)).tell _
  | writes id => exact (hd.modifyRequester id _ (by intro; rfl) (by intro; rfl)).tell _
  | workerLeaves id w place =>
    exact ((hd.withWorker place (by rfl) (by rfl)).withCompletions _).tell _
  | requesterLeaves id r place =>
    exact ((hd.withRequester place (by rfl) (by rfl)).withoutOwners _).tell _
  | waits =>
    exact ⟨hd.worker, hd.requester, hd.nextWorker, hd.nextRequester, hd.requests, hd.completions⟩

theorem attended (h : Move s d t) (hd : d.Attended) : t.directory.Attended := by
  cases h <;> exact ⟨hd.requests, hd.completions⟩

end Move

namespace System

/-- One move, or none. -/
def Moved : System → System → Prop := Relation.ReflGen fun s t => Move s s.directory t

def Moves : System → System → Prop := Relation.ReflTransGen fun s t => Move s s.directory t

theorem Moved.moves {s t : System} (h : Moved s t) : Moves s t := h.to_reflTransGen

theorem Moves.wired {s t : System} (h : Moves s t) (hd : s.directory.Wired) :
    t.directory.Wired := by
  induction h with
  | refl => exact hd
  | tail _ hmove ih => exact hmove.wired ih

theorem Moves.attended {s t : System} (h : Moves s t) (ha : s.directory.Attended) :
    t.directory.Attended := by
  induction h with
  | refl => exact ha
  | tail _ hmove ih => exact hmove.attended ih

theorem Moves.keeps {motive : System → Prop} {s t : System} (h : Moves s t)
    (keep : ∀ s t, s.directory.Wired → s.directory.Attended → Move s s.directory t → motive s →
      motive t)
    (hd : s.directory.Wired) (ha : s.directory.Attended) (hm : motive s) : motive t := by
  induction h with
  | refl => exact hm
  | tail hsome hmove ih =>
    exact keep _ _ (Moves.wired hsome hd) (Moves.attended hsome ha) hmove ih

theorem newsSince_eq {d earlier : Directory} {es : List Event} (h : d.log = es ++ earlier.log) :
    d.newsSince earlier = es := by
  rw [Directory.newsSince, h, List.length_append, Nat.add_sub_cancel, List.take_left]

theorem goOn_tell (s : System) (call : List Entry) (d : Directory) (es : List Event)
    (h : d.log = s.directory.log) : s.goOn call (d.tell es) = s.moveTo call d es := by
  have hnews : (d.tell es).newsSince s.directory = es := newsSince_eq (by rw [← h]; rfl)
  simp only [goOn, hnews, moveTo]

theorem goOn_silent (s : System) (call : List Entry) (d : Directory)
    (h : d.log = s.directory.log) : s.goOn call d = s.moveTo call d [] :=
  goOn_tell s call d [] h

theorem Moved.tell {s base : System} {call : List Entry} {d : Directory} {es : List Event}
    (h : Move s s.directory (base.moveTo call d es)) (hlog : d.log = base.directory.log) :
    Moved s (base.goOn call (d.tell es)) := by
  rw [goOn_tell base call d es hlog]
  exact Relation.ReflGen.single h

theorem Moved.silent {s base : System} {call : List Entry} {d : Directory}
    (h : Move s s.directory (base.moveTo call d [])) (hlog : d.log = base.directory.log) :
    Moved s (base.goOn call d) := Moved.tell h hlog

def load (s : System) : System :=
  match s.scheduler.parked with
  | some _ => s
  | none =>
    match s.directory.takeRequest with
    | none => s
    | some (job, d) => { s with scheduler := { parked := some job } }.goOn [] d

def place (s : System) : System :=
  match s.scheduler.parked with
  | none => s
  | some job =>
    match Scheduler.place s.directory job with
    | .error _ => s
    | .ok (scheduler, d) => { s with scheduler := scheduler }.goOn [] d

variable {s : System}

theorem load_moves (hd : s.directory.Wired) : Moved s s.load := by
  unfold load
  split
  · exact .refl
  rename_i hidle
  obtain ⟨-, htake⟩ | ⟨job, rest, hfirst, htake⟩ := Directory.takeRequest_cases hd
  · rw [htake]
    exact .refl
  · rw [htake]
    exact Moved.tell (.loads job rest hidle hfirst) rfl

theorem place_moves (hd : s.directory.Wired) (ha : s.directory.Attended) : Moved s s.place := by
  unfold place
  split
  · exact .refl
  rename_i job hparked
  obtain ⟨-, hplace⟩ | ⟨id, w, hw, hc, -, hplace⟩ | ⟨-, ⟨hdue, hplace⟩ | ⟨-, hplace⟩⟩ :=
    Directory.place_cases hd ha job
  · rw [hplace]
    exact .refl
  · rw [hplace]
    exact Moved.tell (.assigns job id w hparked hw hc) rfl
  · rw [hplace]
    exact Moved.tell (.starves job hparked hdue) rfl
  · have hsame : { s with scheduler := { parked := some job } } = s := by rw [← hparked]
    rw [hplace]
    dsimp only
    rw [goOn_silent _ _ _ rfl, hsame]
    exact .refl

theorem goOn_goOn (s : System) (call : List Entry) {d d' : Directory} {es es' : List Event}
    (h : d.log = es ++ s.directory.log) (h' : d'.log = es' ++ d.log) :
    (s.goOn call d).goOn [] d' = s.goOn call d' := by
  have hall : d'.newsSince s.directory = es' ++ es :=
    newsSince_eq (by rw [h', h, List.append_assoc])
  simp only [goOn, newsSince_eq h, newsSince_eq h', hall, List.map_append, List.append_assoc,
    List.nil_append]

theorem scheduler_idle (h : s.load.scheduler.parked = none) :
    s.scheduler.step s.directory = .ok (s.scheduler, s.directory) := by
  unfold load at h
  split at h
  · rename_i hparked
    rw [h] at hparked
    cases hparked
  · rename_i hidle
    split at h
    · rename_i htake
      simp only [Scheduler.step, hidle, htake]
    · cases h

theorem scheduler_loaded {job : TrackedJob} (h : s.load.scheduler.parked = some job) :
    s.scheduler.step s.directory = Scheduler.place s.load.directory job := by
  unfold load at h ⊢
  split at h
  · simp only [Scheduler.step, h]
  · rename_i hidle
    split at h
    · rw [hidle] at h
      cases h
    · rename_i htake
      cases h
      simp only [Scheduler.step, hidle, htake]
      rfl

theorem goOn_same (s : System) : s.goOn [] s.directory = s := by
  rw [goOn_silent _ _ _ rfl]
  rfl

theorem load_goOn (hd : s.directory.Wired) :
    s.load = { s with scheduler := s.load.scheduler }.goOn [] s.load.directory ∧
      ∃ es, s.load.directory.log = es ++ s.directory.log := by
  cases hparked : s.scheduler.parked with
  | some job =>
    have hload : s.load = s := by rw [load, hparked]
    rw [hload]
    exact ⟨(goOn_same s).symm, [], rfl⟩
  | none =>
    obtain ⟨-, htake⟩ | ⟨job, rest, -, htake⟩ := Directory.takeRequest_cases hd
    · have hload : s.load = s := by simp only [load, hparked, htake]
      rw [hload]
      exact ⟨(goOn_same s).symm, [], rfl⟩
    · simp only [load, hparked, htake]
      exact ⟨rfl, [.jobDequeued .requests job.internal], rfl⟩

theorem log_place {d d' : Directory} {scheduler : Scheduler} {job : TrackedJob} (hd : d.Wired)
    (ha : d.Attended) (h : Scheduler.place d job = .ok (scheduler, d')) :
    ∃ es, d'.log = es ++ d.log := by
  obtain ⟨-, hplace⟩ | ⟨id, w, -, -, -, hplace⟩ | ⟨-, ⟨-, hplace⟩ | ⟨-, hplace⟩⟩ :=
    Directory.place_cases hd ha job
  all_goals
    rw [hplace] at h
    cases h
  · exact ⟨_, rfl⟩
  · exact ⟨_, rfl⟩
  · exact ⟨[], rfl⟩

theorem step_placed {scheduler : Scheduler} {d : Directory}
    (h : s.scheduler.step s.directory = .ok (scheduler, d)) :
    s.step .schedules = { s with scheduler := scheduler }.goOn [] d := by
  simp only [step, h]

theorem step_schedules (hd : s.directory.Wired) (ha : s.directory.Attended) :
    s.step .schedules = s.load.place ∨ s.step .schedules = s := by
  cases hloaded : s.load.scheduler.parked with
  | none => exact .inr ((step_placed (scheduler_idle hloaded)).trans (goOn_same s))
  | some job =>
    cases hplace : Scheduler.place s.load.directory job with
    | error panic => exact .inr (by simp only [step, scheduler_loaded hloaded, hplace])
    | ok placed =>
      obtain ⟨scheduler, d⟩ := placed
      obtain ⟨hload, es, hes⟩ := load_goOn hd
      have hsome := (load_moves hd).moves
      -- What is told while the job is placed comes on top of what was told when it was taken.
      obtain ⟨es', hes'⟩ := log_place (hsome.wired hd) (hsome.attended ha) hplace
      have htwice : { s.load with scheduler := scheduler }.goOn [] d =
          { s with scheduler := scheduler }.goOn [] d := by
        rw [hload]
        exact goOn_goOn { s with scheduler := scheduler } [] hes hes'
      rw [step_placed ((scheduler_loaded hloaded).trans hplace)]
      simp only [place, hloaded, hplace]
      exact .inl htwice.symm

theorem take_idle (peer : Endpoint) (hempty : (peer.queue s.directory).jobs = []) :
    s.take peer = s := by
  simp [take, Directory.takeFor, JobQueue.tryDequeue, hempty]

theorem take_result_eq (hd : s.directory.Wired) {id : Nat} {r : Requester} {job : TrackedJob}
    {rest : List TrackedJob} (place : s.directory.requesters[id]? = some r)
    (first : r.results.jobs = job :: rest) :
    s.take (.requester id) = { s with held := s.held ++ [(id, job)] }.moveTo []
      (s.directory.withRequester id { r with results := r.results.withJobs rest })
      [.jobDequeued (.requester id) job.internal] := by
  have hname := (hd.requester id r place).2
  have htake : s.directory.takeFor (.requester id) = some (job,
      (s.directory.withRequester id { r with results := r.results.withJobs rest }).tell
        [.jobDequeued (.requester id) job.internal]) := by
    simp [Directory.takeFor, Endpoint.queue, Endpoint.setQueue, place, JobQueue.tryDequeue, first,
      Directory.modify_eq_set _ place, Directory.emit, JobQueue.withJobs, hname]
  simp only [take, htake]
  exact goOn_tell _ _ _ _ rfl

theorem take_moves (hd : s.directory.Wired) (peer : Endpoint) : Moved s (s.take peer) := by
  obtain htake | ⟨job, rest, hfirst, htake⟩ := s.directory.takeFor_cases peer
  · simp only [take, htake]
    exact .refl
  cases peer with
  | worker id =>
    cases hw : s.directory.workers[id]? with
    | none => simp [Endpoint.queue, hw, Endpoint.noQueue] at hfirst
    | some w =>
      have hname := (hd.worker id w hw).2
      simp only [take, htake, Endpoint.queue, Endpoint.setQueue, hw, Option.map_some,
        Option.getD_some, hname, Directory.modify_eq_set _ hw]
      exact Moved.tell (.jobQueue id w (w.jobs.withJobs rest) _ hw rfl (by simp)) rfl
  | requester id =>
    cases hr : s.directory.requesters[id]? with
    | none => simp [Endpoint.queue, hr, Endpoint.noQueue] at hfirst
    | some r =>
      have hresults : r.results.jobs = job :: rest := by simpa [Endpoint.queue, hr] using hfirst
      rw [take_result_eq hd hr hresults]
      exact .single (.takesResult id r job rest hr hresults)

theorem stop_results_eq {id : Nat} {r : Requester}
    (place : s.directory.requesters[id]? = some r) :
    s.goOn [] (s.directory.closeFor (.requester id)) = s.moveTo []
      (s.directory.withRequester id { r with results := r.results.close }) [] := by
  simp only [Directory.closeFor, Endpoint.queue, Endpoint.setQueue, place, Option.map_some,
    Option.getD_some, Directory.modify_eq_set _ place]
  exact goOn_silent _ _ _ rfl

theorem stop_moves (peer : Endpoint) :
    Moved s (s.goOn [] (s.directory.closeFor peer)) := by
  cases peer with
  | worker id =>
    cases hw : s.directory.workers[id]? with
    | none =>
      have hclose : s.directory.closeFor (.worker id) = s.directory := by
        simp [Directory.closeFor, Endpoint.setQueue, Directory.modify_eq_self _ hw]
      rw [hclose, goOn_silent _ _ _ rfl]
      exact .refl
    | some w =>
      simp only [Directory.closeFor, Endpoint.queue, Endpoint.setQueue, hw, Option.map_some,
        Option.getD_some, Directory.modify_eq_set _ hw]
      exact Moved.silent (.jobQueue id w w.jobs.close [] hw (by simp) (by simp)) rfl
  | requester id =>
    cases hr : s.directory.requesters[id]? with
    | none =>
      have hclose : s.directory.closeFor (.requester id) = s.directory := by
        simp [Directory.closeFor, Endpoint.setQueue, Directory.modify_eq_self _ hr]
      rw [hclose, goOn_silent _ _ _ rfl]
      exact .refl
    | some r =>
      rw [stop_results_eq hr]
      exact .single (.closesResults id r hr)

theorem leave_requester_eq (hd : s.directory.Wired) {id : Nat} {r : Requester}
    (place : s.directory.requesters[id]? = some r) (connected : r.connected = true) :
    s.leave (.requester id) = { s with held := s.heldWithout (.requester id) }.moveTo []
      ((s.directory.withRequester id (Directory.departedRequester r)).withoutOwners
        ((s.heldBy (.requester id) ++ r.results.jobs).map TrackedJob.internal))
      (Event.requesterRemoved id ::
        Directory.undelivered id (s.heldBy (.requester id) ++ r.results.jobs) ++
          Directory.drained r.results) := by
  have hconnected : s.directory.isConnected (.requester id) = true := by
    simp [Directory.isConnected, Directory.requester?, place, connected]
  rw [leave, if_pos hconnected, Directory.leave_requester_eq hd place connected]
  exact goOn_tell _ _ _ _ rfl

theorem leave_moves (hd : s.directory.Wired) (ha : s.directory.Attended) (peer : Endpoint) :
    Moved s (s.leave peer) := by
  by_cases hconnected : s.directory.isConnected peer = true
  · cases peer with
    | worker id =>
      obtain ⟨w, hw⟩ := Option.isSome_iff_exists.1 hconnected
      obtain ⟨hget, hc⟩ := Directory.worker?_some hw
      rw [leave, if_pos hconnected, Directory.leave_worker_eq hd ha hget hc]
      exact Moved.tell (.workerLeaves id w hget hc) rfl
    | requester id =>
      obtain ⟨r, hr⟩ := Option.isSome_iff_exists.1 hconnected
      obtain ⟨hget, hc⟩ := Directory.requester?_some hr
      rw [leave_requester_eq hd hget hc]
      exact .single (.requesterLeaves id r hget hc)
  · rw [leave, if_neg hconnected]
    exact .refl

theorem route_moves (hd : s.directory.Wired) : Moved s (s.step .routes) := by
  obtain ⟨-, htake⟩ | ⟨job, rest, hfirst, htake⟩ := Directory.takeCompletion_cases hd
  · simp only [step, Directory.routeNext, htake]
    exact .refl
  have hd' := (hd.withCompletions rest).tell [.jobDequeued .completions job.internal]
  simp only [step, Directory.routeNext, htake, Option.map_some, Option.getD_some]
  obtain ⟨howner, hroute⟩ | ⟨o, howner, hroute⟩ | ⟨o, r, howner, hr, hc, hroute⟩ :=
    Directory.route_cases hd' job
  · rw [hroute]
    exact Moved.tell (.strands job rest hfirst howner) rfl
  · have h : Moved s (s.goOn [] (((s.directory.withCompletions rest).withoutOwners
        [job.internal]).tell _)) := Moved.tell (.loses job rest o hfirst howner) rfl
    rw [hroute]
    exact h
  · have h : Moved s (s.goOn [] ((((s.directory.withCompletions rest).withoutOwners
        [job.internal]).withRequester o.requester (Directory.withResult r job)).tell _)) :=
      Moved.tell (.delivers job rest o r hfirst howner hr hc) rfl
    rw [hroute]
    exact h

theorem report_moves (hd : s.directory.Wired) (ha : s.directory.Attended) (id : Nat)
    (report : Job) : Moved s (s.step (.reports id report)) := by
  simp only [step]
  obtain ⟨hreport, hunknown⟩ | ⟨w, job, hw, hjob, hid, hreport⟩ :=
    Directory.complete_cases hd ha id report
  · rw [hreport]
    exact Moved.silent (.misreports id report hunknown) rfl
  · rw [hreport]
    exact Moved.tell (.reports id report w job hw hjob hid) rfl

theorem submit_moves (hd : s.directory.Wired) (ha : s.directory.Attended) (requester : Nat)
    (request : Job) : Moved s (s.submit requester request) := by
  unfold submit
  split
  · rename_i hjoined
    rw [Directory.submit_eq hd ha]
    exact Moved.tell (.submits requester request hjoined) rfl
  · exact .refl

theorem write_moves (requester : Nat) : Moved s (s.write requester) := by
  unfold write
  split
  · exact .refl
  · rename_i h hfirst
    exact Moved.silent (.writes requester h hfirst) rfl

theorem step_moved (hd : s.directory.Wired) (ha : s.directory.Attended) {x : Step}
    (hx : x ≠ .schedules) : Moved s (s.step x) := by
  cases x with
  | requesterJoins peer => exact Moved.tell (.requesterJoins peer) rfl
  | workerJoins peer specialty => exact Moved.tell (.workerJoins peer specialty) rfl
  | submits requester request => exact submit_moves hd ha requester request
  | schedules => exact absurd rfl hx
  | reports worker report => exact report_moves hd ha worker report
  | routes => exact route_moves hd
  | takes peer => exact take_moves hd peer
  | writes requester => exact write_moves requester
  | stops peer => exact stop_moves peer
  | leaves peer => exact leave_moves hd ha peer
  | waits span => exact Moved.silent (.waits span) rfl

theorem step_moves (hd : s.directory.Wired) (ha : s.directory.Attended) (x : Step) :
    Moves s (s.step x) := by
  by_cases hx : x = .schedules
  · have hload := (load_moves hd).moves
    have hplace := (place_moves (hload.wired hd) (hload.attended ha)).moves
    obtain hstep | hstep := step_schedules hd ha
    · rw [hx, hstep]
      exact hload.trans hplace
    · rw [hx, hstep]
      exact .refl
  · exact (step_moved hd ha hx).moves

theorem moves_run (hd : s.directory.Wired) (ha : s.directory.Attended) (steps : List Step) :
    Moves s (s.run steps) := by
  induction steps generalizing s with
  | nil => exact .refl
  | cons x steps ih =>
    have hstep := step_moves hd ha x
    exact hstep.trans (ih (hstep.wired hd) (hstep.attended ha))

theorem start_wired (build : Build) (scheduling : Scheduling) (now : Millis) :
    (start build scheduling now).directory.Wired :=
  ⟨by simp [start], by simp [start], rfl, rfl, rfl, rfl⟩

theorem start_attended (build : Build) (scheduling : Scheduling) (now : Millis) :
    (start build scheduling now).directory.Attended := ⟨rfl, rfl⟩

/-- What every move keeps while the directory is wired and attended holds in every run. -/
theorem run_invariant {motive : System → Prop} (build : Build) (scheduling : Scheduling)
    (now : Millis) (steps : List Step) (base : motive (start build scheduling now))
    (keep : ∀ s t, s.directory.Wired → s.directory.Attended → Move s s.directory t → motive s →
      motive t) :
    motive ((start build scheduling now).run steps) := by
  have hall : ((start build scheduling now).run steps).directory.Wired ∧
      ((start build scheduling now).run steps).directory.Attended ∧
        motive ((start build scheduling now).run steps) := by
    refine run_induction (motive := fun s => s.directory.Wired ∧ s.directory.Attended ∧ motive s) _
      steps ⟨start_wired build scheduling now, start_attended build scheduling now, base⟩ ?_
    rintro s x ⟨hd, ha, hm⟩
    have hmoves := step_moves hd ha x
    exact ⟨hmoves.wired hd, hmoves.attended ha, hmoves.keeps keep hd ha hm⟩
  exact hall.2.2

theorem run_sound (build : Build) (scheduling : Scheduling) (now : Millis) (steps : List Step) :
    ((start build scheduling now).run steps).directory.Wired ∧
      ((start build scheduling now).run steps).directory.Attended :=
  run_invariant (motive := fun s => s.directory.Wired ∧ s.directory.Attended) build scheduling now
    steps
    ⟨start_wired build scheduling now, start_attended build scheduling now⟩
    fun _ _ hd ha hmove _ => ⟨hmove.wired hd, hmove.attended ha⟩

end System
end JobBroker
