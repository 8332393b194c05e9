import JobBroker.Proofs.Run.Move

/-! Conservation of jobs: in every run, every number that a submission returned is found in exactly
one place and there once, and the owners on record are those of the jobs that were not routed. -/
namespace JobBroker

inductive Place where
  | requests
  | parked
  | outstanding (worker : Nat)
  | completions
  /-- In the queue of results for a requester. -/
  | results (requester : Nat)
  /-- With the session of a requester, not yet written. -/
  | held (requester : Nat)
  | written (requester : Nat)
  | undeliverable (requester : Nat)
  deriving DecidableEq, Repr

namespace Place

def isInFlight : Place → Bool
  | requests | parked | outstanding _ | completions => true
  | results _ | held _ | written _ | undeliverable _ => false

/-- The place, once for each of these records of a job. -/
def marks (p : Place) (id : Nat) (jobs : List TrackedJob) : List Place :=
  (jobs.filter fun j => j.internal == id).map fun _ => p

def ofEvent (id : Nat) : Event → List Place
  | .jobUndeliverable job requester => if job = id then [undeliverable requester] else []
  | _ => []

end Place

def tally (id : Nat) (jobs : List TrackedJob) : Nat := jobs.countP fun j => j.internal == id

def losses (id : Nat) (log : List Event) : Nat := (log.flatMap (Place.ofEvent id)).length

namespace System

def issued (s : System) : List Nat :=
  s.history.filterMap fun
    | .submission id _ _ => some id
    | _ => none

/-- Where a job is before it is routed, with one entry for each record of it. -/
def inFlightAt (s : System) (id : Nat) : List Place :=
  Place.requests.marks id s.directory.requests.jobs ++
  Place.parked.marks id s.scheduler.parked.toList ++
  s.directory.workers.flatMap (fun w => (Place.outstanding w.id).marks id w.outstanding) ++
  Place.completions.marks id s.directory.completions.jobs

/-- Where a job is once it was routed, with one entry for each record of it or, when its result was
lost, for each event that tells so. -/
def routedAt (s : System) (id : Nat) : List Place :=
  s.directory.requesters.flatMap (fun r => (Place.results r.id).marks id r.results.jobs) ++
  s.held.flatMap (fun h => (Place.held h.1).marks id [h.2]) ++
  s.written.flatMap (fun h => (Place.written h.1).marks id [h.2]) ++
  s.directory.log.flatMap (Place.ofEvent id)

def inFlightJobs (s : System) : List TrackedJob :=
  s.directory.requests.jobs ++ s.scheduler.parked.toList ++
    s.directory.workers.flatMap (·.outstanding) ++ s.directory.completions.jobs

def whereabouts (s : System) (id : Nat) : List Place := s.inFlightAt id ++ s.routedAt id

end System

section Tally
variable (id : Nat)

@[simp] theorem tally_nil : tally id [] = 0 := rfl

@[simp] theorem tally_cons (job : TrackedJob) (jobs : List TrackedJob) :
    tally id (job :: jobs) = tally id jobs + (job.internal == id).toNat := by
  rw [tally, List.countP_cons, tally]
  cases job.internal == id <;> rfl

@[simp] theorem tally_append (jobs more : List TrackedJob) :
    tally id (jobs ++ more) = tally id jobs + tally id more := by
  simp [tally]

theorem tally_map (jobs : List TrackedJob) (f : TrackedJob → TrackedJob)
    (h : ∀ j, (f j).internal = j.internal) : tally id (jobs.map f) = tally id jobs := by
  simp [tally, List.countP_map, Function.comp_def, h]

@[simp] theorem length_marks (p : Place) (jobs : List TrackedJob) :
    (p.marks id jobs).length = tally id jobs := by
  simp [Place.marks, tally, List.countP_eq_length_filter]

theorem tally_perm {jobs jobs' : List TrackedJob} (h : jobs.Perm jobs') :
    tally id jobs = tally id jobs' := h.countP_eq _

theorem tally_pos_of_mem {job : TrackedJob} {jobs : List TrackedJob} (h : job ∈ jobs) :
    0 < tally job.internal jobs := by
  rw [tally, List.countP_pos_iff]
  exact ⟨job, h, by simp⟩

@[simp] theorem losses_append (es log : List Event) :
    losses id (es ++ log) = losses id es + losses id log := by
  simp [losses]

@[simp] theorem losses_cons (e : Event) (log : List Event) :
    losses id (e :: log) = (Place.ofEvent id e).length + losses id log := by
  simp [losses]

theorem losses_undelivered (requester : Nat) (jobs : List TrackedJob) :
    losses id (Directory.undelivered requester jobs) = tally id jobs := by
  induction jobs with
  | nil => rfl
  | cons job jobs ih =>
    have hcons : Directory.undelivered requester (job :: jobs) =
        Directory.undelivered requester jobs ++ [.jobUndeliverable job.internal requester] := by
      simp [Directory.undelivered]
    rw [hcons, losses_append, ih, tally_cons]
    by_cases h : job.internal = id <;> simp [losses, Place.ofEvent, h]

theorem losses_eq_zero {es : List Event} (h : ∀ e ∈ es, Place.ofEvent id e = []) :
    losses id es = 0 := by
  induction es with
  | nil => rfl
  | cons e es ih =>
    rw [losses_cons, h e (List.mem_cons_self ..), ih fun e he => h e (List.mem_cons_of_mem _ he)]
    rfl

end Tally

theorem perm_eraseP_of_find? {α : Type} {p : α → Bool} {l : List α} {a : α}
    (h : l.find? p = some a) : (a :: l.eraseP p).Perm l := by
  induction l with
  | nil => cases h
  | cons x l ih =>
    by_cases hx : p x = true
    · rw [List.find?_cons_of_pos hx] at h
      cases h
      rw [List.eraseP_cons_of_pos hx]
    · rw [List.find?_cons_of_neg hx] at h
      rw [List.eraseP_cons_of_neg hx]
      exact (List.Perm.swap x a _).trans ((ih h).cons x)

theorem flatMap_modify_eq {α β : Type} (f : α → List β) (g : α → α) (l : List α) (i : Nat)
    (h : ∀ a, f (g a) = f a) : (l.modify i g).flatMap f = l.flatMap f := by
  induction l generalizing i with
  | nil => simp
  | cons x l ih =>
    cases i with
    | zero => simp [h]
    | succ i => simp [ih]

theorem tally_flatMap_set {α : Type} (id : Nat) (f : α → List TrackedJob) {l : List α} {i : Nat}
    {a : α} (b : α) (h : l[i]? = some a) :
    tally id ((l.set i b).flatMap f) + tally id (f a) =
      tally id (l.flatMap f) + tally id (f b) := by
  induction l generalizing i with
  | nil => cases h
  | cons x l ih =>
    cases i with
    | zero =>
      cases h
      simp only [List.set_cons_zero, List.flatMap_cons, tally_append]
      omega
    | succ i =>
      have hrest := ih (i := i) (by simpa using h)
      simp only [List.set_cons_succ, List.flatMap_cons, tally_append]
      omega

theorem length_flatMap_marks {α : Type} (id : Nat) (p : α → Place) (f : α → List TrackedJob)
    (l : List α) : (l.flatMap fun a => (p a).marks id (f a)).length = tally id (l.flatMap f) := by
  induction l with
  | nil => rfl
  | cons a l ih =>
    rw [List.flatMap_cons, List.length_append, ih, length_marks, List.flatMap_cons, tally_append]

namespace System
variable {s t : System}

theorem length_inFlightAt (s : System) (id : Nat) : (s.inFlightAt id).length =
    tally id s.directory.requests.jobs + tally id s.scheduler.parked.toList +
      tally id (s.directory.workers.flatMap (·.outstanding)) +
      tally id s.directory.completions.jobs := by
  simp only [inFlightAt, List.length_append, length_marks, length_flatMap_marks]

theorem length_routedAt (s : System) (id : Nat) : (s.routedAt id).length =
    tally id (s.directory.requesters.flatMap (·.results.jobs)) +
      tally id (s.held.map (·.2)) + tally id (s.written.map (·.2)) +
      losses id s.directory.log := by
  simp only [routedAt, List.length_append, length_flatMap_marks, losses, List.map_eq_flatMap]

/-- Every number issued is in one place, and those not routed have an owner. -/
structure Conserved (s : System) : Prop where
  issued : ∀ id, s.issued.count id = if id < s.directory.ids.nextJob then 1 else 0
  placed : ∀ id, (s.inFlightAt id).length + (s.routedAt id).length = s.issued.count id
  owned : ∀ id, (s.directory.owners.map (·.1)).count id = (s.inFlightAt id).length

/-- A move that takes jobs from place to place, but routes none. -/
theorem Conserved.shift (hs : s.Conserved) (hissued : t.issued = s.issued)
    (hnext : t.directory.ids.nextJob = s.directory.ids.nextJob)
    (howners : t.directory.owners = s.directory.owners)
    (hin : ∀ id, (t.inFlightAt id).length = (s.inFlightAt id).length)
    (hrouted : ∀ id, (t.routedAt id).length = (s.routedAt id).length) : t.Conserved where
  issued id := by rw [hissued, hnext]; exact hs.issued id
  placed id := by rw [hissued, hin, hrouted]; exact hs.placed id
  owned id := by rw [howners, hin]; exact hs.owned id

theorem Conserved.one_place (hs : s.Conserved) (id : Nat) :
    (s.inFlightAt id).length + (s.routedAt id).length ≤ 1 := by
  rw [hs.placed, hs.issued]
  split <;> omega

theorem Conserved.route (hs : s.Conserved) (job : Nat) (hissued : t.issued = s.issued)
    (hnext : t.directory.ids.nextJob = s.directory.ids.nextJob)
    (howners : t.directory.owners = (s.directory.withoutOwners [job]).owners)
    (hin : ∀ id, (s.inFlightAt id).length = (t.inFlightAt id).length + (job == id).toNat)
    (hrouted : ∀ id, (t.routedAt id).length = (s.routedAt id).length + (job == id).toNat) :
    t.Conserved where
  issued id := by rw [hissued, hnext]; exact hs.issued id
  placed id := by
    have hplaced := hs.placed id
    have hleft := hin id
    have hcame := hrouted id
    rw [hissued]
    omega
  owned id := by
    have howned := hs.owned id
    have hleft := hin id
    have hone := hs.one_place id
    rw [howners, Directory.count_withoutOwners]
    by_cases h : job = id
    · subst h
      simp only [beq_self_eq_true, Bool.toNat_true, List.mem_singleton, if_true] at hleft ⊢
      omega
    · simp only [beq_eq_false_iff_ne.2 h, Bool.toNat_false, List.mem_singleton,
        if_neg (Ne.symm h)] at hleft ⊢
      omega

theorem Conserved.issue (hs : s.Conserved)
    (hissued : t.issued = s.directory.ids.nextJob :: s.issued)
    (hnext : t.directory.ids.nextJob = s.directory.ids.nextJob + 1)
    (howners : t.directory.owners.map (·.1) =
      s.directory.ids.nextJob :: s.directory.owners.map (·.1))
    (hin : ∀ id, (t.inFlightAt id).length =
      (s.inFlightAt id).length + (s.directory.ids.nextJob == id).toNat)
    (hrouted : ∀ id, (t.routedAt id).length = (s.routedAt id).length) : t.Conserved := by
  have hcount (l : List Nat) (n id : Nat) :
      (n :: l).count id = l.count id + (n == id).toNat := by
    rw [List.count_cons]
    cases n == id <;> rfl
  refine ⟨fun id => ?_, fun id => ?_, fun id => ?_⟩
  · rw [hissued, hcount, hs.issued, hnext]
    by_cases h : s.directory.ids.nextJob = id
    · subst h
      simp
    · have hlt : id < s.directory.ids.nextJob + 1 ↔ id < s.directory.ids.nextJob := by omega
      simp [h, hlt]
  · rw [hissued, hcount, hin, hrouted, ← hs.placed]
    omega
  · rw [howners, hcount, hin, hs.owned]

theorem Conserved.owners_of_owner (hs : s.Conserved) {id : Nat} {o : Owner}
    (h : s.directory.owner? id = some o) :
    s.directory.owners.Perm ((id, o) :: (s.directory.withoutOwners [id]).owners) := by
  have hmem : (id, o) ∈ s.directory.owners.filter fun entry => entry.1 ∈ [id] :=
    List.mem_filter.2 ⟨Directory.owner?_mem h, by simp⟩
  have hone : (s.directory.owners.filter fun entry => entry.1 ∈ [id]).length ≤ 1 := by
    have hle := hs.one_place id
    have hcount : (s.directory.owners.filter fun entry => entry.1 ∈ [id]).length =
        (s.directory.owners.map (·.1)).count id := by
      simp [← List.countP_eq_length_filter, List.count_eq_countP, List.countP_map,
        Function.comp_def, Bool.beq_eq_decide_eq]
    rw [hcount, hs.owned]
    omega
  have hentry : s.directory.owners.filter (fun entry => entry.1 ∈ [id]) = [(id, o)] := by
    obtain ⟨entry, hentry⟩ := List.length_eq_one_iff.1
      (Nat.le_antisymm hone (List.length_pos_of_mem hmem))
    rw [hentry, List.mem_singleton] at hmem
    rw [hentry, hmem]
  have hsplit := List.filter_append_perm (fun entry : Nat × Owner => decide (entry.1 ∈ [id]))
    s.directory.owners
  rw [hentry] at hsplit
  simpa [Directory.withoutOwners] using hsplit.symm

theorem Conserved.withoutOwners_routed (hs : s.Conserved) {ids : List Nat}
    (hids : ∀ id ∈ ids, 0 < (s.routedAt id).length) :
    (s.directory.withoutOwners ids).owners = s.directory.owners := by
  refine List.filter_eq_self.2 fun entry hentry => ?_
  have hpos : 0 < (s.directory.owners.map (·.1)).count entry.1 :=
    List.count_pos_iff.2 (List.mem_map_of_mem hentry)
  rw [hs.owned] at hpos
  have hone := hs.one_place entry.1
  refine decide_eq_true fun hid => ?_
  have hrouted := hids _ hid
  omega

theorem tally_held (s : System) (requester id : Nat) :
    tally id (s.held.map (·.2)) = tally id (s.heldBy (.requester requester)) +
      tally id ((s.heldWithout (.requester requester)).map (·.2)) := by
  simp only [heldBy, heldWithout]
  induction s.held with
  | nil => rfl
  | cons h held ih =>
    by_cases hr : h.1 = requester
    · simp [hr, ih]
      omega
    · simp [hr, ih]
      omega

theorem unsent_routed {id : Nat} {r : Requester} (place : s.directory.requesters[id]? = some r) :
    ∀ k ∈ (s.heldBy (.requester id) ++ r.results.jobs).map TrackedJob.internal,
      0 < (s.routedAt k).length := by
  intro k hk
  obtain ⟨job, hjob, rfl⟩ := List.mem_map.1 hk
  have hpos := tally_pos_of_mem hjob
  have hheld := s.tally_held id job.internal
  have hqueue := tally_flatMap_set job.internal (·.results.jobs) (Directory.departedRequester r)
    place
  rw [Directory.departedRequester_jobs, tally_nil] at hqueue
  rw [tally_append] at hpos
  rw [length_routedAt]
  omega

theorem losses_drained (id : Nat) (q : JobQueue) : losses id (Directory.drained q) = 0 := by
  refine losses_eq_zero id fun e he => ?_
  simp only [Directory.drained, List.mem_reverse, List.mem_map] at he
  obtain ⟨job, -, rfl⟩ := he
  rfl

theorem losses_rejections (id : Nat) (reason : String) (jobs : List TrackedJob) :
    losses id (jobs.flatMap (Directory.rejection reason)) = 0 := by
  refine losses_eq_zero id fun e he => ?_
  simp only [Directory.rejection, List.mem_flatMap, List.mem_cons, List.not_mem_nil,
    or_false] at he
  obtain ⟨job, -, rfl | rfl⟩ := he <;> rfl

theorem conserved_move (h : Move s s.directory t) (hs : s.Conserved) :
    t.Conserved := by
  cases h with
  | requesterJoins peer =>
    refine hs.shift rfl rfl rfl (fun k => ?_) (fun k => ?_)
    · simp only [length_inFlightAt]
      rfl
    · simp [length_routedAt, Directory.joinedRequester, Place.ofEvent]
  | workerJoins peer specialty =>
    refine hs.shift rfl rfl rfl (fun k => ?_) (fun k => ?_)
    · simp [length_inFlightAt, Directory.joinedWorker]
    · simp [length_routedAt, Directory.joinedWorker, Place.ofEvent]
  | submits requester request joined =>
    have hsame := flatMap_modify_eq (fun r : Requester => r.results.jobs)
      Requester.recordRequest s.directory.requesters requester (fun _ => rfl)
    refine hs.issue rfl rfl rfl (fun k => ?_) (fun k => ?_)
    · simp [length_inFlightAt, Directory.submitted]
      omega
    · simp [length_routedAt, Directory.submitted, hsame, Place.ofEvent]
  | loads job rest idle first =>
    refine hs.shift rfl rfl rfl (fun k => ?_) (fun k => ?_)
    · simp [length_inFlightAt, idle, first]
    · simp [length_routedAt, Place.ofEvent]
  | assigns job id w parked place =>
    refine hs.shift rfl rfl rfl (fun k => ?_) (fun k => ?_)
    · have hsum := tally_flatMap_set k (·.outstanding)
        (Directory.assignedTo w (job.withWorker id)) place
      simp only [Directory.assignedTo_outstanding, tally_append, tally_cons, tally_nil,
        TrackedJob.withWorker_internal] at hsum
      simp [length_inFlightAt, parked]
      omega
    · simp [length_routedAt, Place.ofEvent]
  | starves job parked =>
    refine hs.shift rfl rfl rfl (fun k => ?_) (fun k => ?_)
    · simp [length_inFlightAt, parked]
      omega
    · simp [length_routedAt, Place.ofEvent, Directory.rejection]
  | reports id report w job place found =>
    refine hs.shift rfl rfl rfl (fun k => ?_) (fun k => ?_)
    · have hsum := tally_flatMap_set k (·.outstanding)
        (Directory.reportedBy w (job.withOutcome report.succeeded report.result)) place
      have htaken := tally_perm k (perm_eraseP_of_find? found)
      simp only [Directory.reportedBy_outstanding, TrackedJob.withOutcome_internal] at hsum
      rw [tally_cons] at htaken
      simp [length_inFlightAt]
      omega
    · simp [length_routedAt, Place.ofEvent]
  | misreports id report =>
    refine hs.shift rfl rfl rfl (fun k => ?_) (fun k => ?_)
    · simp [length_inFlightAt]
    · simp [length_routedAt]
  | delivers job rest o r first owner place =>
    refine hs.route job.internal rfl rfl rfl (fun k => ?_) (fun k => ?_)
    · simp [length_inFlightAt, first]
      omega
    · have hsum := tally_flatMap_set k (·.results.jobs) (Directory.withResult r job) place
      simp only [Directory.withResult_jobs, tally_append, tally_cons, tally_nil] at hsum
      simp [length_routedAt, Place.ofEvent]
      omega
  | loses job rest o first owner =>
    refine hs.route job.internal rfl rfl rfl (fun k => ?_) (fun k => ?_)
    · simp [length_inFlightAt, first]
      omega
    · by_cases h : job.internal = k <;> simp [length_routedAt, Place.ofEvent, h]
      omega
  | strands job rest first owner =>
    -- A finished job is in flight, so that it has an owner.
    have howned := hs.owned job.internal
    rw [(Directory.owner?_eq_none_iff _ _).1 owner, length_inFlightAt, first] at howned
    simp at howned
  | jobQueue id w q es place name dequeued =>
    refine hs.shift (by simp [issued]) rfl rfl (fun k => ?_) (fun k => ?_)
    · have hsum := tally_flatMap_set k (·.outstanding) { w with jobs := q } place
      dsimp only at hsum
      simp [length_inFlightAt]
      omega
    · have hes : losses k es = 0 := losses_eq_zero k fun e he => by
        obtain ⟨job, rfl⟩ := dequeued e he
        rfl
      simp [length_routedAt, hes]
  | takesResult id r job rest place first =>
    refine hs.shift rfl rfl rfl (fun k => ?_) (fun k => ?_)
    · simp [length_inFlightAt]
    · have hsum := tally_flatMap_set k (·.results.jobs)
        { r with results := r.results.withJobs rest } place
      simp only [first, tally_cons, JobQueue.withJobs_jobs] at hsum
      simp [length_routedAt, Place.ofEvent]
      omega
  | closesResults id r place =>
    refine hs.shift rfl rfl rfl (fun k => ?_) (fun k => ?_)
    · simp [length_inFlightAt]
    · have hsum := tally_flatMap_set k (·.results.jobs)
        { r with results := r.results.close } place
      simp only [JobQueue.close_jobs] at hsum
      simp [length_routedAt]
      omega
  | writes id h first =>
    refine hs.shift rfl rfl rfl (fun k => ?_) (fun k => ?_)
    · simp [length_inFlightAt, Directory.modifyRequester]
    · have hsame := flatMap_modify_eq (fun r : Requester => r.results.jobs)
        Requester.recordDelivery s.directory.requesters id (fun _ => rfl)
      have htaken := tally_perm k ((perm_eraseP_of_find? first).map (·.2))
      simp only [List.map_cons, tally_cons] at htaken
      simp [length_routedAt, Directory.modifyRequester, hsame]
      omega
  | workerLeaves id w place =>
    refine hs.shift (by simp [issued]) rfl rfl (fun k => ?_) (fun k => ?_)
    · have hsum := tally_flatMap_set k (·.outstanding) (Directory.departedWorker w) place
      simp only [Directory.departedWorker_outstanding, tally_nil] at hsum
      have hmap := tally_map k w.outstanding
        (fun job => job.withOutcome false (Text.bytes workerDisconnected)) (fun _ => rfl)
      simp [length_inFlightAt, hmap]
      omega
    · simp [length_routedAt, Place.ofEvent, losses_rejections, losses_drained]
  | requesterLeaves id r place =>
    refine hs.shift (by simp [issued]) rfl (hs.withoutOwners_routed (unsent_routed place))
      (fun k => ?_) (fun k => ?_)
    · simp [length_inFlightAt]
    · have hheld := s.tally_held id k
      have hsum := tally_flatMap_set k (·.results.jobs) (Directory.departedRequester r) place
      simp only [Directory.departedRequester_jobs, tally_nil] at hsum
      simp [length_routedAt, Place.ofEvent, losses_undelivered, losses_drained]
      omega
  | waits span =>
    refine hs.shift rfl rfl rfl (fun k => ?_) (fun k => ?_)
    · simp [length_inFlightAt]
    · simp [length_routedAt]

theorem run_conserved (build : Build) (scheduling : Scheduling) (now : Millis) (steps : List Step) :
    ((start build scheduling now).run steps).Conserved := by
  refine run_invariant build scheduling now steps ?_ fun s t _ _ h hs => conserved_move h hs
  exact ⟨fun id => by simp [start, issued], fun id => rfl, fun id => rfl⟩

theorem tally_inFlightJobs (s : System) (id : Nat) :
    tally id s.inFlightJobs = (s.inFlightAt id).length := by
  simp only [inFlightJobs, tally_append, length_inFlightAt]

theorem Conserved.owners_perm (hs : s.Conserved) :
    (s.directory.owners.map (·.1)).Perm (s.inFlightJobs.map (·.internal)) := by
  rw [List.perm_iff_count]
  intro id
  rw [hs.owned, ← tally_inFlightJobs, tally, List.count_eq_countP, List.countP_map]
  rfl

theorem Conserved.route_known (hd : s.directory.Wired) (hs : s.Conserved) {outcome : Routing}
    {d : Directory} (h : s.directory.routeNext = some (outcome, d)) : outcome ≠ .unknown := by
  obtain ⟨-, htake⟩ | ⟨job, rest, hfirst, htake⟩ := Directory.takeCompletion_cases hd
  · simp [Directory.routeNext, htake] at h
  simp only [Directory.routeNext, htake, Option.map_some, Option.some.injEq] at h
  have hd' := (hd.withCompletions rest).tell [.jobDequeued .completions job.internal]
  obtain ⟨howner, -⟩ | ⟨o, -, hroute⟩ | ⟨o, r, -, -, -, hroute⟩ :=
    Directory.route_cases hd' job
  · have howned := hs.owned job.internal
    rw [(Directory.owner?_eq_none_iff s.directory _).1 howner, length_inFlightAt, hfirst] at howned
    simp at howned
  · rw [hroute] at h
    cases h
    simp
  · rw [hroute] at h
    cases h
    simp

theorem mem_marks {p q : Place} {id : Nat} {jobs : List TrackedJob} (h : q ∈ p.marks id jobs) :
    q = p := by
  obtain ⟨-, -, rfl⟩ := List.mem_map.1 h
  rfl

theorem mem_inFlightAt {s : System} {id : Nat} {p : Place} (h : p ∈ s.inFlightAt id) :
    p.isInFlight = true := by
  simp only [inFlightAt, List.mem_append, List.mem_flatMap] at h
  obtain ((h | h) | ⟨w, -, h⟩) | h := h <;> rw [mem_marks h] <;> rfl

theorem mem_routedAt {s : System} {id : Nat} {p : Place} (h : p ∈ s.routedAt id) :
    p.isInFlight = false := by
  simp only [routedAt, List.mem_append, List.mem_flatMap] at h
  obtain ((⟨r, -, h⟩ | ⟨x, -, h⟩) | ⟨x, -, h⟩) | ⟨e, -, h⟩ := h
  · rw [mem_marks h]
    rfl
  · rw [mem_marks h]
    rfl
  · rw [mem_marks h]
    rfl
  · cases e with
    | jobUndeliverable job requester =>
      simp only [Place.ofEvent] at h
      split at h
      · rw [List.mem_singleton.1 h]
        rfl
      · cases h
    | _ => cases h

theorem Conserved.whereabouts_eq (hs : s.Conserved) {id : Nat} (h : id ∈ s.issued) :
    ∃ p, s.whereabouts id = [p] ∧ ((s.directory.owner? id).isSome ↔ p.isInFlight) := by
  have hone : (s.inFlightAt id).length + (s.routedAt id).length = 1 := by
    have hpos := List.count_pos_iff.2 h
    have hle := hs.one_place id
    rw [← hs.placed] at hpos
    omega
  have howner : (s.directory.owner? id).isSome ↔ (s.inFlightAt id).length ≠ 0 := by
    rw [Option.isSome_iff_ne_none, ne_eq, Directory.owner?_eq_none_iff, hs.owned]
  rw [howner, whereabouts]
  by_cases hin : (s.inFlightAt id).length = 0
  · obtain ⟨p, hp⟩ := List.length_eq_one_iff.1 (show (s.routedAt id).length = 1 by omega)
    have hplace : p.isInFlight = false := mem_routedAt (by rw [hp]; exact List.mem_singleton_self p)
    rw [List.length_eq_zero_iff.1 hin, hp]
    exact ⟨p, rfl, by simp [hplace]⟩
  · obtain ⟨p, hp⟩ := List.length_eq_one_iff.1 (show (s.inFlightAt id).length = 1 by omega)
    have hplace : p.isInFlight = true :=
      mem_inFlightAt (by rw [hp]; exact List.mem_singleton_self p)
    rw [List.length_eq_zero_iff.1 (show (s.routedAt id).length = 0 by omega), hp]
    exact ⟨p, rfl, by simp [hplace]⟩

theorem Conserved.nowhere (hs : s.Conserved) {id : Nat} (h : id ∉ s.issued) :
    s.whereabouts id = [] ∧ s.directory.owner? id = none := by
  have hnone := hs.placed id
  rw [List.count_eq_zero.2 h] at hnone
  have hin : (s.inFlightAt id).length = 0 := by omega
  have hrouted : (s.routedAt id).length = 0 := by omega
  rw [Directory.owner?_eq_none_iff, hs.owned]
  exact ⟨by rw [whereabouts, List.length_eq_zero_iff.1 hin, List.length_eq_zero_iff.1 hrouted,
    List.nil_append], hin⟩

/-- In every run, every number that was issued is in exactly one place and there once; its owner is
on record exactly as long as it was not routed. The owners on record are counted by the jobs before
routing, and the router never meets a job without an owner. -/
theorem each_job_in_one_place (build : Build) (scheduling : Scheduling) (now : Millis)
    (steps : List Step) :
    let s := (start build scheduling now).run steps
    s.issued.Nodup ∧
    (∀ id ∈ s.issued, ∃ p, s.whereabouts id = [p] ∧
      ((s.directory.owner? id).isSome ↔ p.isInFlight)) ∧
    (∀ id, id ∉ s.issued → s.whereabouts id = [] ∧ s.directory.owner? id = none) ∧
    s.directory.inFlight = s.inFlightJobs.length ∧
    ∀ outcome d, s.directory.routeNext = some (outcome, d) → outcome ≠ .unknown := by
  intro s
  have hs : s.Conserved := run_conserved build scheduling now steps
  have hd : s.directory.Wired := (run_sound build scheduling now steps).1
  refine ⟨?_, ?_, ?_, ?_, fun outcome d h => hs.route_known hd h⟩
  · rw [List.nodup_iff_count]
    intro id
    rw [hs.issued]
    split <;> omega
  · exact fun id h => hs.whereabouts_eq h
  · exact fun id h => hs.nowhere h
  · rw [Directory.inFlight, ← List.length_map (·.1), hs.owners_perm.length_eq, List.length_map]

end System
end JobBroker
