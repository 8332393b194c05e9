import JobBroker.Proofs.Run.Fate

/-! The balance of the counters. A result counts as delivered once it is queued for its requester,
and as undeliverable if it is still unwritten when the session of that requester ends, so that one
job can count as both. In every run that is the only way, and the balance is out by as many. -/
namespace JobBroker

namespace Event

def requested? : Event → Option Nat
  | jobEnqueued .requests id => some id
  | _ => none

def delivered? : Event → Option Nat
  | jobDelivered id _ => some id
  | _ => none

def lost? : Event → Option Nat
  | jobUndeliverable id _ => some id
  | _ => none

/-- An event that begins no job, and neither delivers nor loses one. -/
structure IsQuiet (e : Event) : Prop where
  requested : e.requested? = none
  delivered : e.delivered? = none
  lost : e.lost? = none

theorem isQuiet_rejection (reason : String) (job : TrackedJob) :
    ∀ e ∈ Directory.rejection reason job, e.IsQuiet := by
  simp only [Directory.rejection, List.forall_mem_cons]
  exact ⟨⟨rfl, rfl, rfl⟩, ⟨rfl, rfl, rfl⟩, List.forall_mem_nil _⟩

theorem isQuiet_drained (q : JobQueue) : ∀ e ∈ Directory.drained q, e.IsQuiet := by
  intro e he
  obtain ⟨job, -, rfl⟩ := List.mem_map.1 (List.mem_reverse.1 he)
  exact ⟨rfl, rfl, rfl⟩

end Event

def requestedIn (log : List Event) : List Nat := log.filterMap Event.requested?

def deliveredIn (log : List Event) : List Nat := log.filterMap Event.delivered?

def lostIn (log : List Event) : List Nat := log.filterMap Event.lost?

/-- The jobs that count as delivered and as undeliverable. -/
def recalledIn (log : List Event) : List Nat := (deliveredIn log).filter (· ∈ lostIn log)

/-- The job was delivered to this requester, and was among what was given up when it left. -/
def Recalled (log : List Event) (id requester : Nat) : Prop :=
  ∃ later others older,
    log = later ++ .requesterRemoved requester ::
      (others ++ .jobUndeliverable id requester :: older) ∧
    (∀ e ∈ others, ∃ job, e = .jobUndeliverable job requester) ∧
    .jobDelivered id requester ∈ older

theorem Recalled.append {log : List Event} {id requester : Nat} (h : Recalled log id requester)
    (es : List Event) : Recalled (es ++ log) id requester := by
  obtain ⟨later, others, older, rfl, hothers, hbefore⟩ := h
  exact ⟨es ++ later, others, older, by rw [List.append_assoc], hothers, hbefore⟩

theorem mem_deliveredIn {log : List Event} {id : Nat} :
    id ∈ deliveredIn log ↔ ∃ requester, .jobDelivered id requester ∈ log := by
  rw [deliveredIn, List.mem_filterMap]
  constructor
  · rintro ⟨e, he, hid⟩
    cases e <;> cases hid
    exact ⟨_, he⟩
  · rintro ⟨requester, h⟩
    exact ⟨_, h, rfl⟩

theorem mem_lostIn {log : List Event} {id : Nat} :
    id ∈ lostIn log ↔ ∃ requester, .jobUndeliverable id requester ∈ log := by
  rw [lostIn, List.mem_filterMap]
  constructor
  · rintro ⟨e, he, hid⟩
    cases e <;> cases hid
    exact ⟨_, he⟩
  · rintro ⟨requester, h⟩
    exact ⟨_, h, rfl⟩

theorem requestedIn_append {es : List Event} (h : ∀ e ∈ es, e.requested? = none)
    (log : List Event) : requestedIn (es ++ log) = requestedIn log := by
  rw [requestedIn, List.filterMap_append, List.filterMap_eq_nil_iff.2 h, List.nil_append,
    requestedIn]

theorem deliveredIn_append {es : List Event} (h : ∀ e ∈ es, e.delivered? = none)
    (log : List Event) : deliveredIn (es ++ log) = deliveredIn log := by
  rw [deliveredIn, List.filterMap_append, List.filterMap_eq_nil_iff.2 h, List.nil_append,
    deliveredIn]

theorem count_lostIn (log : List Event) (id : Nat) : (lostIn log).count id = losses id log := by
  induction log with
  | nil => rfl
  | cons e log ih =>
    rw [losses_cons, ← ih, lostIn, List.filterMap_cons, ← lostIn]
    cases e with
    | jobUndeliverable job requester =>
      by_cases h : job = id <;> simp [Event.lost?, Place.ofEvent, h, Nat.add_comm]
    | _ => simp [Event.lost?, Place.ofEvent]

namespace Stats

theorem ofLog_cons (e : Event) (log : List Event) : ofLog (e :: log) = (ofLog log).count e := by
  simp [ofLog, List.foldl_append]

theorem ofLog_counter {counter : Stats → Nat} {read? : Event → Option Nat} (hzero : counter {} = 0)
    (hcount : ∀ s e, counter (s.count e) = counter s + (read? e).toList.length)
    (log : List Event) : counter (ofLog log) = (log.filterMap read?).length := by
  induction log with
  | nil => exact hzero
  | cons e log ih =>
    rw [ofLog_cons, hcount, ih, List.filterMap_cons]
    cases read? e <;> rfl

theorem ofLog_requested (log : List Event) : (ofLog log).requested = (requestedIn log).length := by
  refine ofLog_counter rfl (fun s e => ?_) log
  cases e with
  | jobEnqueued queue => cases queue <;> rfl
  | _ => rfl

theorem ofLog_delivered (log : List Event) : (ofLog log).delivered = (deliveredIn log).length := by
  refine ofLog_counter rfl (fun s e => ?_) log
  cases e with
  | jobEnqueued queue => cases queue <;> rfl
  | _ => rfl

theorem ofLog_undeliverable (log : List Event) :
    (ofLog log).undeliverable = (lostIn log).length := by
  refine ofLog_counter rfl (fun s e => ?_) log
  cases e with
  | jobEnqueued queue => cases queue <;> rfl
  | _ => rfl

end Stats

namespace System
variable {s t : System}

/-- What is queued for a requester, held by its session or written was told to be delivered. -/
def Told (s : System) : Prop :=
  ∀ requester, ∀ job ∈ s.jobsAt (.delivered requester),
    .jobDelivered job.internal requester ∈ s.directory.log

theorem log_grows (h : Move s s.directory t) : ∃ es, t.directory.log = es ++ s.directory.log := by
  cases h <;> exact ⟨_, rfl⟩

theorem delivered_before (h : Move s s.directory t) {requester : Nat} {job : TrackedJob}
    (hjob : job ∈ t.jobsAt (.delivered requester)) : job ∈ s.jobsAt (.delivered requester) ∨
      .jobDelivered job.internal requester ∈ t.directory.log := by
  cases h with
  | requesterJoins peer =>
    rw [jobsAt, ← Directory.resultsFor_joinedRequester peer]
    exact .inl hjob
  | submits id request =>
    have hsame := Directory.resultsFor_modifyRequester (d := s.directory) id Requester.recordRequest
      (fun _ => rfl) requester
    rw [jobsAt, ← hsame]
    exact .inl hjob
  | delivers job' rest o r first owner place =>
    rw [mem_delivered] at hjob ⊢
    obtain hqueue | hlater := hjob
    · obtain ⟨rfl, hmem⟩ | ⟨-, hmem⟩ := Directory.mem_resultsFor_withRequester place hqueue
      · obtain hold | hnew := List.mem_append.1 hmem
        · rw [Directory.resultsFor_eq place]
          exact .inl (.inl hold)
        · rw [List.mem_singleton.1 hnew]
          exact .inr (List.mem_cons_self ..)
      · exact .inl (.inl hmem)
    · exact .inl (.inr hlater)
  | takesResult id r job' rest place first =>
    rw [mem_delivered] at hjob ⊢
    obtain hqueue | hheld | hwritten := hjob
    · obtain ⟨rfl, hmem⟩ | ⟨-, hmem⟩ := Directory.mem_resultsFor_withRequester place hqueue
      · rw [Directory.resultsFor_eq place, first]
        exact .inl (.inl (List.mem_cons_of_mem _ hmem))
      · exact .inl (.inl hmem)
    · obtain hold | hnew := List.mem_append.1 hheld
      · exact .inl (.inr (.inl hold))
      · cases List.mem_singleton.1 hnew
        rw [Directory.resultsFor_eq place, first]
        exact .inl (.inl (List.mem_cons_self ..))
    · exact .inl (.inr (.inr hwritten))
  | closesResults id r place =>
    rw [mem_delivered] at hjob ⊢
    refine .inl (hjob.imp_left fun hqueue => ?_)
    obtain ⟨rfl, hmem⟩ | ⟨-, hmem⟩ := Directory.mem_resultsFor_withRequester place hqueue
    · rw [JobQueue.close_jobs] at hmem
      rwa [Directory.resultsFor_eq place]
    · exact hmem
  | writes id h first =>
    rw [mem_delivered] at hjob ⊢
    obtain hqueue | hheld | hwritten := hjob
    · rw [← Directory.resultsFor_modifyRequester id Requester.recordDelivery (fun _ => rfl)]
      exact .inl (.inl hqueue)
    · exact .inl (.inr (.inl (List.mem_of_mem_eraseP hheld)))
    · obtain hnew | hold := List.mem_cons.1 hwritten
      · rw [hnew]
        exact .inl (.inr (.inl (List.mem_of_find?_eq_some first)))
      · exact .inl (.inr (.inr hold))
  | requesterLeaves id r place =>
    rw [mem_delivered] at hjob ⊢
    obtain hqueue | hheld | hwritten := hjob
    · obtain ⟨-, hmem⟩ | ⟨-, hmem⟩ := Directory.mem_resultsFor_withRequester place hqueue
      · cases hmem
      · exact .inl (.inl hmem)
    · exact .inl (.inr (.inl (List.mem_of_mem_filter hheld)))
    · exact .inl (.inr (.inr hwritten))
  | workerJoins | loads | assigns | starves | reports | misreports | loses | strands | jobQueue |
      workerLeaves | waits => exact .inl hjob

theorem told_move (h : Move s s.directory t) (hs : s.Told) : t.Told := by
  intro requester job hjob
  obtain hold | hnew := delivered_before h hjob
  · obtain ⟨es, hes⟩ := log_grows h
    rw [hes]
    exact List.mem_append_right _ (hs requester job hold)
  · exact hnew

/-- What was submitted was requested, each delivery was told once and of a job without an owner, and
what was told lost after that was recalled. -/
structure Settled (s : System) : Prop where
  requested : requestedIn s.directory.log = s.issued
  once : (deliveredIn s.directory.log).Nodup
  disowned : ∀ id ∈ deliveredIn s.directory.log,
    id < s.directory.ids.nextJob ∧ s.directory.owner? id = none
  recalled : ∀ id requester, .jobUndeliverable id requester ∈ s.directory.log →
    id ∈ deliveredIn s.directory.log → Recalled s.directory.log id requester

theorem Settled.keep (hs : s.Settled) (es : List Event)
    (hlog : t.directory.log = es ++ s.directory.log) (hissued : t.issued = s.issued)
    (hrequested : ∀ e ∈ es, e.requested? = none) (hdelivered : ∀ e ∈ es, e.delivered? = none)
    (hlost : ∀ id requester, .jobUndeliverable id requester ∈ es →
      id ∈ deliveredIn s.directory.log → Recalled (es ++ s.directory.log) id requester)
    (hnext : t.directory.ids.nextJob = s.directory.ids.nextJob)
    (howners : t.directory.owners.Sublist s.directory.owners) : t.Settled := by
  have hsame := deliveredIn_append hdelivered s.directory.log
  refine ⟨?_, ?_, fun id hid => ?_, fun id r htold hid => ?_⟩
  · rw [hlog, requestedIn_append hrequested, hissued, hs.requested]
  · rw [hlog, hsame]
    exact hs.once
  · rw [hlog, hsame] at hid
    obtain ⟨hlt, hnone⟩ := hs.disowned id hid
    rw [Directory.owner?_eq_none_iff] at hnone ⊢
    have hle := (howners.map (·.1)).count_le id
    rw [hnext]
    exact ⟨hlt, by omega⟩
  · rw [hlog, hsame] at hid
    rw [hlog] at htold ⊢
    obtain hnew | hold := List.mem_append.1 htold
    · exact hlost id r hnew hid
    · exact (hs.recalled id r hold hid).append es

theorem Settled.quiet (hs : s.Settled) (es : List Event)
    (hlog : t.directory.log = es ++ s.directory.log) (hissued : t.issued = s.issued)
    (hquiet : ∀ e ∈ es, e.IsQuiet) (hnext : t.directory.ids.nextJob = s.directory.ids.nextJob)
    (howners : t.directory.owners = s.directory.owners) : t.Settled :=
  hs.keep es hlog hissued (fun e he => (hquiet e he).requested)
    (fun e he => (hquiet e he).delivered) (fun _ _ hlost => nomatch (hquiet _ hlost).lost) hnext
    (howners ▸ List.Sublist.refl _)

theorem settled_submits (hs : s.Settled) (requester : Nat) (request : Job) :
    (s.moveTo [.submission s.directory.ids.nextJob requester request]
      (s.directory.submitted requester request)
      [.jobEnqueued .requests s.directory.ids.nextJob]).Settled := by
  refine ⟨congrArg _ hs.requested, hs.once, fun id hid => ?_, fun id r htold hid => ?_⟩
  · obtain ⟨hlt, hnone⟩ := hs.disowned id hid
    refine ⟨Nat.lt_succ_of_lt hlt, ?_⟩
    rw [Directory.owner?_eq_none_iff] at hnone ⊢
    have hne : s.directory.ids.nextJob ≠ id := Nat.ne_of_gt hlt
    simpa [Directory.submitted, List.count_cons, hne] using hnone
  · have hold := (List.mem_cons.1 htold).resolve_left (by simp)
    exact (hs.recalled id r hold hid).append [_]

theorem settled_delivers (hs : s.Settled) (hc : s.Conserved) {job : TrackedJob}
    {rest : List TrackedJob} {o : Owner} {r : Requester}
    (first : s.directory.completions.jobs = job :: rest)
    (owner : s.directory.owner? job.internal = some o) :
    (s.moveTo [] (((s.directory.withCompletions rest).withoutOwners [job.internal]).withRequester
      o.requester (Directory.withResult r job))
      [.jobDelivered job.internal o.requester, .jobEnqueued (.requester o.requester) job.internal,
        .jobDequeued .completions job.internal]).Settled := by
  -- A finished job is in flight, so that it is neither delivered nor lost.
  have hfinished : 0 < (s.inFlightAt job.internal).length := by
    rw [length_inFlightAt, first, tally_cons, beq_self_eq_true, Bool.toNat_true]
    omega
  have hknown : job.internal < s.directory.ids.nextJob := by
    have hplaced := hc.placed job.internal
    rw [hc.issued] at hplaced
    split at hplaced
    · assumption
    · omega
  have hnew : job.internal ∉ deliveredIn s.directory.log := by
    intro hold
    rw [(hs.disowned _ hold).2] at owner
    cases owner
  have hkept : job.internal ∉ lostIn s.directory.log := by
    have hone := hc.one_place job.internal
    rw [length_routedAt] at hone
    rw [← List.count_eq_zero, count_lostIn]
    omega
  refine ⟨hs.requested, List.nodup_cons.2 ⟨hnew, hs.once⟩, fun id hid => ?_,
    fun id q htold hid => ?_⟩
  · rw [Directory.owner?_eq_none_iff]
    have hcount := s.directory.count_withoutOwners [job.internal] id
    obtain rfl | hold := List.mem_cons.1 hid
    · rw [if_pos (List.mem_singleton_self _)] at hcount
      exact ⟨hknown, hcount⟩
    · obtain ⟨hlt, hnone⟩ := hs.disowned id hold
      rw [Directory.owner?_eq_none_iff] at hnone
      rw [hnone, ite_self] at hcount
      exact ⟨hlt, hcount⟩
  · have hlost : .jobUndeliverable id q ∈ s.directory.log := by
      have h := (List.mem_cons.1 htold).resolve_left (by simp)
      have h := (List.mem_cons.1 h).resolve_left (by simp)
      exact (List.mem_cons.1 h).resolve_left (by simp)
    obtain rfl | hold := List.mem_cons.1 hid
    · exact absurd (mem_lostIn.2 ⟨q, hlost⟩) hkept
    · exact (hs.recalled id q hlost hold).append [_, _, _]

theorem settled_requesterLeaves (hs : s.Settled) (htold : s.Told) {id : Nat} {r : Requester}
    (place : s.directory.requesters[id]? = some r) :
    ({ s with held := s.heldWithout (.requester id) }.moveTo []
      ((s.directory.withRequester id (Directory.departedRequester r)).withoutOwners
        ((s.heldBy (.requester id) ++ r.results.jobs).map TrackedJob.internal))
      (Event.requesterRemoved id ::
        Directory.undelivered id (s.heldBy (.requester id) ++ r.results.jobs) ++
          Directory.drained r.results)).Settled := by
  set unsent := s.heldBy (.requester id) ++ r.results.jobs with hunsent
  -- Every unsent result was delivered to the requester that leaves.
  have hours : ∀ job ∈ unsent, .jobDelivered job.internal id ∈ s.directory.log := by
    intro job hjob
    refine htold id job ((mem_delivered _ _ _).2 ?_)
    obtain hheld | hqueue := List.mem_append.1 hjob
    · obtain ⟨h, hmem, rfl⟩ := List.mem_map.1 hheld
      obtain ⟨hheld, hid⟩ := List.mem_filter.1 hmem
      rw [← beq_iff_eq.1 hid]
      exact .inr (.inl hheld)
    · rw [Directory.resultsFor_eq place]
      exact .inl hqueue
  have hnews : ∀ e ∈ Event.requesterRemoved id :: Directory.undelivered id unsent ++
      Directory.drained r.results, e = .requesterRemoved id ∨
        (∃ job ∈ unsent, e = .jobUndeliverable job.internal id) ∨
          ∃ job, e = .jobDequeued r.results.name job := by
    intro e he
    simp only [Directory.undelivered, Directory.drained, List.mem_append, List.mem_cons,
      List.mem_reverse, List.mem_map] at he
    obtain (rfl | ⟨job, hjob, rfl⟩) | ⟨job, -, rfl⟩ := he
    · exact .inl rfl
    · exact .inr (.inl ⟨job, hjob, rfl⟩)
    · exact .inr (.inr ⟨_, rfl⟩)
  refine hs.keep (t := System.moveTo _ _ _ _) _ rfl (by simp [issued]) ?_ ?_ ?_ rfl
    List.filter_sublist
  · intro e he
    obtain rfl | ⟨_, _, rfl⟩ | ⟨_, rfl⟩ := hnews e he <;> rfl
  · intro e he
    obtain rfl | ⟨_, _, rfl⟩ | ⟨_, rfl⟩ := hnews e he <;> rfl
  · intro k q htold hid
    obtain hkind | ⟨job, hjob, hkind⟩ | ⟨_, hkind⟩ := hnews _ htold
    · cases hkind
    · cases hkind
      have hmem : .jobUndeliverable job.internal id ∈ Directory.undelivered id unsent :=
        List.mem_reverse.2 (List.mem_map_of_mem hjob)
      obtain ⟨others, before, hsplit⟩ := List.append_of_mem hmem
      refine ⟨[], others, before ++ (Directory.drained r.results ++ s.directory.log), ?_, ?_, ?_⟩
      · rw [hsplit]
        simp
      · intro e he
        have hlost : e ∈ Directory.undelivered id unsent := by
          rw [hsplit]
          exact List.mem_append_left _ he
        obtain ⟨j, -, rfl⟩ := List.mem_map.1 (List.mem_reverse.1 hlost)
        exact ⟨_, rfl⟩
      · exact List.mem_append_right _ (List.mem_append_right _ (hours job hjob))
    · cases hkind

theorem settled_move (h : Move s s.directory t) (hc : s.Conserved) (htold : s.Told)
    (hs : s.Settled) : t.Settled := by
  cases h with
  | submits requester request => exact settled_submits hs requester request
  | delivers job rest o r first owner => exact settled_delivers hs hc first owner
  | loses job rest o first owner =>
    have hnew : job.internal ∉ deliveredIn s.directory.log := by
      intro hold
      rw [(hs.disowned _ hold).2] at owner
      cases owner
    refine hs.keep [_, _] rfl rfl (by simp [Event.requested?]) (by simp [Event.delivered?])
      (fun id requester hlost hid => ?_) rfl List.filter_sublist
    obtain hkind | hlost := List.mem_cons.1 hlost
    · cases hkind
      exact absurd hid hnew
    · simp at hlost
  | requesterLeaves id r place => exact settled_requesterLeaves hs htold place
  | requesterJoins | workerJoins | loads | assigns | reports | strands | takesResult =>
    exact hs.quiet [_] rfl rfl (List.forall_mem_singleton.2 ⟨rfl, rfl, rfl⟩) rfl rfl
  | misreports | closesResults | writes | waits => exact hs.quiet [] rfl rfl (by simp) rfl rfl
  | starves job => exact hs.quiet _ rfl rfl (Event.isQuiet_rejection _ job) rfl rfl
  | jobQueue id w q es place name dequeued =>
    refine hs.quiet es rfl (by simp [issued]) (fun e he => ?_) rfl rfl
    obtain ⟨job, rfl⟩ := dequeued e he
    exact ⟨rfl, rfl, rfl⟩
  | workerLeaves id w place =>
    refine hs.quiet _ rfl (by simp [issued]) (fun e he => ?_) rfl rfl
    obtain hfailed | hdrained := List.mem_append.1 he
    · obtain rfl | hfailed := List.mem_cons.1 hfailed
      · exact ⟨rfl, rfl, rfl⟩
      · obtain ⟨job, -, hrejected⟩ := List.mem_flatMap.1 hfailed
        exact Event.isQuiet_rejection _ job e hrejected
    · exact Event.isQuiet_drained _ e hdrained

theorem run_settled (build : Build) (scheduling : Scheduling) (now : Millis) (steps : List Step) :
    let s := (start build scheduling now).run steps
    s.Conserved ∧ s.Told ∧ s.Settled := by
  refine run_invariant (motive := fun s => s.Conserved ∧ s.Told ∧ s.Settled) build scheduling now
    steps ⟨run_conserved build scheduling now [], ?_, ?_⟩ fun s t _ _ h hs =>
      ⟨conserved_move h hs.1, told_move h hs.2.1, settled_move h hs.1 hs.2.1 hs.2.2⟩
  · intro requester job hjob
    simp [mem_delivered, start, Directory.resultsFor] at hjob
  · exact ⟨rfl, List.nodup_nil, fun _ h => (List.not_mem_nil h).elim,
      fun _ _ h => (List.not_mem_nil h).elim⟩

theorem Told.mem_deliveredIn (hs : s.Told) {id : Nat}
    (hkept : 0 < tally id (s.directory.requesters.flatMap (·.results.jobs)) +
      tally id (s.held.map (·.2)) + tally id (s.written.map (·.2))) :
    id ∈ deliveredIn s.directory.log := by
  have hrecord : ∃ requester, ∃ job ∈ s.jobsAt (.delivered requester), job.internal = id := by
    have hsome : 0 < tally id (s.directory.requesters.flatMap (·.results.jobs) ++
        (s.held ++ s.written).map (·.2)) := by
      rw [List.map_append, tally_append, tally_append]
      omega
    obtain ⟨job, hjob, hid⟩ := List.countP_pos_iff.1 hsome
    obtain hqueue | hlater := List.mem_append.1 hjob
    · obtain ⟨r, hr, hmem⟩ := List.mem_flatMap.1 hqueue
      obtain ⟨i, hplace⟩ := List.mem_iff_getElem?.1 hr
      refine ⟨i, job, (mem_delivered _ _ _).2 (.inl ?_), beq_iff_eq.1 hid⟩
      rwa [Directory.resultsFor_eq hplace]
    · obtain ⟨h, hmem, rfl⟩ := List.mem_map.1 hlater
      exact ⟨h.1, h.2, (mem_delivered _ _ _).2 (.inr (List.mem_append.1 hmem)), beq_iff_eq.1 hid⟩
  obtain ⟨requester, job, hjob, rfl⟩ := hrecord
  exact JobBroker.mem_deliveredIn.2 ⟨requester, hs requester job hjob⟩

theorem Conserved.nodup_lostIn (hc : s.Conserved) : (lostIn s.directory.log).Nodup := by
  rw [List.nodup_iff_count]
  intro id
  have hone := hc.one_place id
  rw [length_routedAt] at hone
  rw [count_lostIn]
  omega

theorem Settled.count_balance (hs : s.Settled) (hc : s.Conserved) (htold : s.Told) (id : Nat) :
    s.issued.count id + (recalledIn s.directory.log).count id =
      (s.directory.owners.map (·.1)).count id + (deliveredIn s.directory.log).count id +
        (lostIn s.directory.log).count id := by
  have hplaced := hc.placed id
  have hone := hc.one_place id
  have honce := List.nodup_iff_count.1 hs.once id
  rw [length_routedAt, ← count_lostIn] at hplaced hone
  rw [hc.owned id]
  by_cases hdelivered : id ∈ deliveredIn s.directory.log
  · -- It has no owner, so it is in flight no more, and counts twice exactly if it was lost too.
    obtain ⟨hlt, hnone⟩ := hs.disowned id hdelivered
    have hissued := hc.issued id
    rw [if_pos hlt] at hissued
    rw [Directory.owner?_eq_none_iff, hc.owned id] at hnone
    have hpos := List.count_pos_iff.2 hdelivered
    have hrecalled : (recalledIn s.directory.log).count id =
        (lostIn s.directory.log).count id := by
      by_cases hlost : id ∈ lostIn s.directory.log
      · have hsome := List.count_pos_iff.2 hlost
        rw [recalledIn, List.count_filter (by simpa using hlost)]
        omega
      · rw [List.count_eq_zero.2 hlost, List.count_eq_zero]
        intro hboth
        exact hlost (by simpa using (List.mem_filter.1 hboth).2)
    omega
  · -- Nothing of it is kept anywhere, so it is in flight or lost, and not recalled.
    have hkept := mt htold.mem_deliveredIn hdelivered
    have hrecalled : id ∉ recalledIn s.directory.log := fun hboth =>
      hdelivered (List.mem_filter.1 hboth).1
    rw [List.count_eq_zero.2 hdelivered, List.count_eq_zero.2 hrecalled]
    omega

theorem Settled.balance (hs : s.Settled) (hc : s.Conserved) (htold : s.Told) :
    s.directory.stats.requested + (recalledIn s.directory.log).length =
      s.directory.inFlight + s.directory.stats.delivered + s.directory.stats.undeliverable := by
  have hperm : (s.issued ++ recalledIn s.directory.log).Perm
      (s.directory.owners.map (·.1) ++ deliveredIn s.directory.log ++
        lostIn s.directory.log) := by
    rw [List.perm_iff_count]
    intro id
    rw [List.count_append, List.count_append, List.count_append]
    exact hs.count_balance hc htold id
  have hlength := hperm.length_eq
  rw [List.length_append, List.length_append, List.length_append, List.length_map] at hlength
  rw [Directory.stats, Stats.ofLog_requested, Stats.ofLog_delivered, Stats.ofLog_undeliverable,
    hs.requested, Directory.inFlight]
  exact hlength

theorem Conserved.whereabouts_lost (hc : s.Conserved) {id requester : Nat}
    (h : .jobUndeliverable id requester ∈ s.directory.log) :
    s.whereabouts id = [.undeliverable requester] := by
  have hmem : .undeliverable requester ∈ s.whereabouts id := by
    refine List.mem_append_right _ (List.mem_append_right _ (List.mem_flatMap.2 ⟨_, h, ?_⟩))
    rw [Place.ofEvent, if_pos rfl]
    exact List.mem_singleton_self _
  have hone := hc.one_place id
  rw [← List.length_append] at hone
  have hpos := List.length_pos_of_mem hmem
  obtain ⟨p, hp⟩ := List.length_eq_one_iff.1 (show (s.whereabouts id).length = 1 from by
    rw [whereabouts] at hpos ⊢
    omega)
  rw [hp, List.mem_singleton] at hmem
  rw [hp, hmem]

/-- In every run, each job is delivered at most once and lost at most once. A job that is both was
delivered first, and lost when its requester left before the result was written. The jobs requested
are those in flight, those delivered and those lost, of which some count as both. -/
theorem outcomes_balance (build : Build) (scheduling : Scheduling) (now : Millis)
    (steps : List Step) :
    let s := (start build scheduling now).run steps
    let log := s.directory.log
    (deliveredIn log).Nodup ∧ (lostIn log).Nodup ∧
    (∀ id ∈ deliveredIn log, ∀ requester, .jobUndeliverable id requester ∈ log →
      Recalled log id requester ∧ s.whereabouts id = [.undeliverable requester]) ∧
    s.directory.stats.requested + (recalledIn log).length =
      s.directory.inFlight + s.directory.stats.delivered + s.directory.stats.undeliverable := by
  intro s log
  obtain ⟨hc, htold, hs⟩ := run_settled build scheduling now steps
  refine ⟨hs.once, hc.nodup_lostIn, fun id hid requester hlost => ?_, hs.balance hc htold⟩
  exact ⟨hs.recalled id requester hlost hid, hc.whereabouts_lost hlost⟩

/-- A requester that leaves before its result is written makes it count twice. -/
theorem outcomes_counted_twice :
    let s := (start .checked {} 0).run [.requesterJoins "", .workerJoins "" .a,
      .submits 0 ⟨7, .a, false, []⟩, .schedules, .reports 0 ⟨0, .a, true, [1]⟩, .routes,
      .takes (.requester 0), .leaves (.requester 0)]
    deliveredIn s.directory.log = [0] ∧ lostIn s.directory.log = [0] ∧
      s.directory.stats.requested ≠
        s.directory.inFlight + s.directory.stats.delivered + s.directory.stats.undeliverable := by
  decide +kernel

end System
end JobBroker
