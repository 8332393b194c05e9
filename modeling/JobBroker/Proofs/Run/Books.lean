import JobBroker.Proofs.Run.Balance

/-! The books of a requester. Each of its requests has an owner on record until it is routed; from
then on its result waits in the queue of the requester or with the session, was written, or was
given up. Every requester is accounted for by itself, also after it has left. -/
namespace JobBroker

namespace Event

def lostFor? : Event → Option Nat
  | jobUndeliverable _ requester => some requester
  | _ => none

theorem lostFor?_eq_none {e : Event} (h : e.lost? = none) : e.lostFor? = none := by
  cases e with
  | jobUndeliverable => cases h
  | _ => rfl

end Event

def missedIn (log : List Event) : List Nat := log.filterMap Event.lostFor?

@[simp] theorem missedIn_cons (e : Event) (log : List Event) :
    missedIn (e :: log) = e.lostFor?.toList ++ missedIn log := by
  rw [missedIn, List.filterMap_cons, missedIn]
  cases e.lostFor? <;> rfl

theorem missedIn_append {es : List Event} (h : ∀ e ∈ es, e.lost? = none) (log : List Event) :
    missedIn (es ++ log) = missedIn log := by
  have hnone : es.filterMap Event.lostFor? = [] :=
    List.filterMap_eq_nil_iff.2 fun e he => Event.lostFor?_eq_none (h e he)
  rw [missedIn, List.filterMap_append, hnone, List.nil_append, missedIn]

theorem missedIn_undelivered (requester : Nat) (jobs : List TrackedJob) :
    missedIn (Directory.undelivered requester jobs) = List.replicate jobs.length requester := by
  have hmap : (jobs.map fun job => Event.jobUndeliverable job.internal requester).filterMap
      Event.lostFor? = List.replicate jobs.length requester := by
    induction jobs with
    | nil => rfl
    | cons job jobs ih => exact congrArg (requester :: ·) ih
  rw [missedIn, Directory.undelivered, List.filterMap_reverse, hmap, List.reverse_replicate]

theorem missedIn_departure (requester : Nat) (jobs : List TrackedJob) (q : JobQueue)
    (log : List Event) :
    missedIn (.requesterRemoved requester :: Directory.undelivered requester jobs ++
      Directory.drained q ++ log) = List.replicate jobs.length requester ++ missedIn log := by
  have hdrained := missedIn_append (fun e he => (Event.isQuiet_drained q e he).lost) log
  rw [List.append_assoc, List.cons_append, missedIn_cons, missedIn, List.filterMap_append,
    ← missedIn, ← missedIn, hdrained, missedIn_undelivered]
  rfl

namespace Directory
variable {d : Directory}

def figure (d : Directory) (f : Requester → Nat) (id : Nat) : Nat :=
  (d.requesters[id]?.map f).getD 0

def ownersNamed (d : Directory) : List Nat := d.owners.map fun entry => entry.2.requester

theorem figure_eq {f : Requester → Nat} {id : Nat} {r : Requester}
    (h : d.requesters[id]? = some r) : d.figure f id = f r := by
  rw [figure, h]
  rfl

theorem modifyRequester_eq (f : Requester → Requester) {id : Nat} {r : Requester}
    (h : d.requesters[id]? = some r) : d.modifyRequester id f = d.withRequester id (f r) := by
  rw [modifyRequester, modify_eq_set f h, withRequester]

end Directory

namespace Requester

/-- The results of a requester that its books show: those it waits for in its queue, and those that
were written. -/
def shown (r : Requester) : Nat := r.results.jobs.length + r.completed

@[simp] theorem requested_recordRequest (r : Requester) :
    r.recordRequest.requested = r.requested + 1 := rfl

@[simp] theorem requested_recordDelivery (r : Requester) :
    r.recordDelivery.requested = r.requested := rfl

@[simp] theorem requested_withResult (r : Requester) (job : TrackedJob) :
    (Directory.withResult r job).requested = r.requested := rfl

@[simp] theorem shown_recordRequest (r : Requester) : r.recordRequest.shown = r.shown := rfl

@[simp] theorem shown_recordDelivery (r : Requester) : r.recordDelivery.shown = r.shown + 1 := rfl

@[simp] theorem shown_withResult (r : Requester) (job : TrackedJob) :
    (Directory.withResult r job).shown = r.shown + 1 := by
  rw [shown, Directory.withResult_jobs, List.length_append, List.length_singleton, shown]
  exact Nat.add_right_comm ..

@[simp] theorem shown_departed (r : Requester) :
    (Directory.departedRequester r).shown = r.completed := Nat.zero_add _

end Requester

namespace System
variable {s t : System}

/-- What became of the requests of a requester outside of its own books. -/
def elsewhere (s : System) (id : Nat) : Nat :=
  s.directory.ownersNamed.count id + (s.held.map (·.1)).count id +
    (missedIn s.directory.log).count id

def Balanced (s : System) : Prop :=
  ∀ id, s.directory.figure (·.requested) id =
    s.directory.figure Requester.shown id + s.elsewhere id

theorem elsewhere_quiet (id : Nat) (howners : t.directory.owners = s.directory.owners)
    (hheld : t.held = s.held) (es : List Event) (hlog : t.directory.log = es ++ s.directory.log)
    (hquiet : ∀ e ∈ es, e.lost? = none) : t.elsewhere id = s.elsewhere id := by
  rw [elsewhere, Directory.ownersNamed, howners, hheld, hlog, missedIn_append hquiet]
  rfl

theorem Balanced.keep (hs : s.Balanced)
    (hrequesters : t.directory.requesters = s.directory.requesters)
    (helse : ∀ id, t.elsewhere id = s.elsewhere id) : t.Balanced := by
  intro id
  rw [helse, Directory.figure, Directory.figure, hrequesters]
  exact hs id

theorem Balanced.quiet (hs : s.Balanced)
    (hrequesters : t.directory.requesters = s.directory.requesters)
    (howners : t.directory.owners = s.directory.owners) (hheld : t.held = s.held)
    (es : List Event) (hlog : t.directory.log = es ++ s.directory.log)
    (hquiet : ∀ e ∈ es, e.lost? = none) : t.Balanced :=
  hs.keep hrequesters fun id => elsewhere_quiet id howners hheld es hlog hquiet

/-- A move that writes in the books of one requester, by which `came` more of its requests, and
`gone` fewer, are accounted for elsewhere. -/
theorem Balanced.entry (hs : s.Balanced) {id : Nat} {r r' : Requester}
    (place : s.directory.requesters[id]? = some r)
    (hrequesters : t.directory.requesters = s.directory.requesters.set id r') (came gone : Nat)
    (hbooks : r'.requested + r.shown + gone = r.requested + r'.shown + came)
    (helse : ∀ k, t.elsewhere k + (if id = k then gone else 0) =
      s.elsewhere k + if id = k then came else 0) : t.Balanced := by
  have hfigure (f : Requester → Nat) (k : Nat) :
      t.directory.figure f k = if k = id then f r' else s.directory.figure f k := by
    rw [Directory.figure, hrequesters]
    exact Directory.getD_set f r' place k
  intro k
  have hafter := helse k
  have hbefore := hs k
  rw [hfigure, hfigure]
  by_cases hk : k = id
  · subst hk
    rw [Directory.figure_eq place, Directory.figure_eq place] at hbefore
    rw [if_pos rfl, if_pos rfl] at hafter ⊢
    omega
  · rw [if_neg (Ne.symm hk), if_neg (Ne.symm hk)] at hafter
    rw [if_neg hk, if_neg hk]
    omega

theorem Conserved.count_ownersNamed (hc : s.Conserved) {job : Nat} {o : Owner}
    (h : s.directory.owner? job = some o) (id : Nat) :
    s.directory.ownersNamed.count id =
      (s.directory.withoutOwners [job]).ownersNamed.count id +
        if o.requester = id then 1 else 0 := by
  have hperm := (hc.owners_of_owner h).map fun entry => entry.2.requester
  rw [Directory.ownersNamed, hperm.count_eq, List.map_cons, List.count_cons,
    Directory.ownersNamed]
  simp

theorem Balanced.registered (hs : s.Balanced) {h : Nat × TrackedJob} (held : h ∈ s.held) :
    ∃ r, s.directory.requesters[h.1]? = some r := by
  rw [← Option.isSome_iff_exists, Option.isSome_iff_ne_none]
  intro hnone
  have hbooks := hs h.1
  have hpos : 0 < (s.held.map (·.1)).count h.1 :=
    List.count_pos_iff.2 (List.mem_map_of_mem held)
  simp only [Directory.figure, hnone, Option.map_none, Option.getD_none, elsewhere] at hbooks
  omega

theorem count_held (s : System) (id : Nat) :
    (s.held.map (·.1)).count id = (s.heldBy (.requester id)).length := by
  rw [heldBy, List.length_map, ← List.countP_eq_length_filter, List.count_eq_countP,
    List.countP_map]
  rfl

theorem count_heldWithout (s : System) (id k : Nat) :
    ((s.heldWithout (.requester id)).map (·.1)).count k =
      if k = id then 0 else (s.held.map (·.1)).count k := by
  simp only [heldWithout]
  induction s.held with
  | nil => simp
  | cons h held ih =>
    by_cases hid : h.1 = id
    · by_cases hk : k = id
      · simp [hid, hk] at ih ⊢
        exact ih
      · simp [hid, hk, Ne.symm hk] at ih ⊢
        exact ih
    · by_cases hk : k = id
      · simp [hid, hk] at ih ⊢
        exact ih
      · simp [hid, hk, List.count_cons] at ih ⊢
        exact ih

theorem balanced_move (h : Move s s.directory t) (hc : s.Conserved) (hs : s.Balanced) :
    t.Balanced := by
  cases h with
  | requesterJoins peer =>
    intro id
    have hrequested : (s.directory.joinedRequester peer).figure (·.requested) id =
        s.directory.figure (·.requested) id := Directory.getD_concat _ _ (by rfl) id
    have hshown : (s.directory.joinedRequester peer).figure Requester.shown id =
        s.directory.figure Requester.shown id := Directory.getD_concat _ _ (by rfl) id
    have hbooks := hs id
    rw [← hrequested, ← hshown] at hbooks
    exact hbooks
  | submits id request joined =>
    have place := List.getElem?_eq_getElem joined
    refine hs.entry place (congrArg Directory.requesters (Directory.modifyRequester_eq _ place))
      1 0 (by simp; omega) fun k => ?_
    simp [elsewhere, Directory.ownersNamed, Directory.submitted, List.count_cons, Event.lostFor?]
    omega
  | delivers job rest o r first owner place =>
    refine hs.entry place rfl 0 1 (by simp; omega) fun k => ?_
    have hnamed := hc.count_ownersNamed owner k
    simp [elsewhere, Directory.ownersNamed, Event.lostFor?] at hnamed ⊢
    omega
  | loses job rest o first owner =>
    refine hs.keep rfl fun k => ?_
    have hnamed := hc.count_ownersNamed owner k
    simp [elsewhere, Directory.ownersNamed, Event.lostFor?, List.count_cons] at hnamed ⊢
    omega
  | takesResult id r job rest place first =>
    refine hs.entry place rfl 1 0 (by simp [Requester.shown, first]; omega) fun k => ?_
    simp [elsewhere, Directory.ownersNamed, Event.lostFor?, List.count_cons]
    omega
  | closesResults id r place =>
    exact hs.entry place rfl 0 0 (by simp [Requester.shown]) fun _ => rfl
  | writes id h first =>
    have hid : h.1 = id := by simpa using List.find?_some first
    obtain ⟨r, place⟩ := hs.registered (List.mem_of_find?_eq_some first)
    rw [hid] at place
    refine hs.entry place (congrArg Directory.requesters (Directory.modifyRequester_eq _ place))
      0 1 (by simp; omega) fun k => ?_
    have hheld := ((perm_eraseP_of_find? first).map (·.1)).count_eq k
    simp [elsewhere, Directory.ownersNamed, Directory.modifyRequester, List.count_cons,
      hid] at hheld ⊢
    omega
  | requesterLeaves id r place =>
    have hbooks : r.requested + r.shown + 0 =
        r.requested + (Directory.departedRequester r).shown + r.results.jobs.length := by
      rw [Requester.shown_departed, Requester.shown]
      omega
    refine hs.entry place rfl r.results.jobs.length 0 hbooks fun k => ?_
    have howners := hc.withoutOwners_routed (unsent_routed place)
    have hheld := s.count_held id
    simp only [elsewhere, moveTo, Directory.tell, Directory.ownersNamed, count_heldWithout,
      missedIn_departure, List.count_append, List.count_replicate, beq_iff_eq, List.length_append,
      Directory.withoutOwners, Directory.withRequester] at howners ⊢
    rw [howners]
    by_cases hk : id = k
    · subst hk
      simp [hheld]
      omega
    · simp [hk, Ne.symm hk]
  | workerJoins | loads | assigns | reports | strands =>
    exact hs.quiet rfl rfl rfl [_] rfl (List.forall_mem_singleton.2 rfl)
  | misreports | waits => exact hs.quiet rfl rfl rfl [] rfl (List.forall_mem_nil _)
  | starves job =>
    exact hs.quiet rfl rfl rfl _ rfl fun e he => (Event.isQuiet_rejection _ job e he).lost
  | jobQueue id w q es place name dequeued =>
    refine hs.quiet rfl rfl rfl es rfl fun e he => ?_
    obtain ⟨job, rfl⟩ := dequeued e he
    rfl
  | workerLeaves id w place =>
    refine hs.quiet rfl rfl rfl _ rfl fun e he => ?_
    obtain hfailed | hdrained := List.mem_append.1 he
    · obtain rfl | hfailed := List.mem_cons.1 hfailed
      · rfl
      · obtain ⟨job, -, hrejected⟩ := List.mem_flatMap.1 hfailed
        exact (Event.isQuiet_rejection _ job e hrejected).lost
    · exact (Event.isQuiet_drained _ e hdrained).lost

theorem run_balanced (build : Build) (scheduling : Scheduling) (now : Millis) (steps : List Step) :
    let s := (start build scheduling now).run steps
    s.Conserved ∧ s.Balanced :=
  run_invariant (motive := fun s => s.Conserved ∧ s.Balanced) build scheduling now steps
    ⟨run_conserved build scheduling now [], fun _ => rfl⟩ fun _ _ _ _ h hs =>
      ⟨conserved_move h hs.1, balanced_move h hs.1 hs.2⟩

/-- In every run, and for every requester that ever joined, its requests are those that have its
name with an owner on record, and those whose results wait in its queue, are with its session,
were written, or were given up. So no more was written than requested. -/
theorem books_balance (build : Build) (scheduling : Scheduling) (now : Millis) (steps : List Step) :
    let s := (start build scheduling now).run steps
    ∀ id r, s.directory.requesters[id]? = some r →
      r.requested = s.directory.ownersNamed.count id + r.results.jobs.length +
        (s.heldBy (.requester id)).length + r.completed + (missedIn s.directory.log).count id ∧
      r.completed ≤ r.requested := by
  intro s id r place
  have hs : s.Balanced := (run_balanced build scheduling now steps).2
  have hbooks := hs id
  rw [Directory.figure_eq place, Directory.figure_eq place, Requester.shown, elsewhere,
    count_held] at hbooks
  have hrequested : r.requested = s.directory.ownersNamed.count id + r.results.jobs.length +
      (s.heldBy (.requester id)).length + r.completed + (missedIn s.directory.log).count id := by
    omega
  exact ⟨hrequested, by omega⟩

/-! A session that ends stops, drains its queue and leaves. The directory may be asked for other
things in between, so that these are steps of their own in a run. -/

theorem leave_after (hd : s.directory.Wired) {id : Nat} {r : Requester}
    (place : s.directory.requesters[id]? = some r) (connected : r.connected = true)
    (q : JobQueue) (held : List (Nat × TrackedJob)) (es : List Event)
    (ht : t = { s with held := held }.moveTo []
      (s.directory.withRequester id { r with results := q }) es)
    (hspent : q.spent = r.results.spent)
    (hunsent : t.heldBy (.requester id) ++ q.jobs = s.heldBy (.requester id) ++ r.results.jobs)
    (hkept : t.heldWithout (.requester id) = s.heldWithout (.requester id))
    (htold : Directory.drained q ++ es = Directory.drained r.results) :
    t.leave (.requester id) = s.leave (.requester id) := by
  have hlt := (List.getElem?_eq_some_iff.1 place).1
  have hdeparted : Directory.departedRequester { r with results := q } =
      Directory.departedRequester r := by
    rw [Directory.departedRequester, hspent, Directory.departedRequester]
  have hname : q.name = r.results.name := (JobQueue.mk.inj hspent).1
  have place' : t.directory.requesters[id]? = some { r with results := q } := by
    rw [ht]
    exact List.getElem?_set_self hlt
  have hset : (s.directory.withRequester id { r with results := q }).Wired :=
    hd.withRequester place rfl hname
  have hd' : t.directory.Wired := by
    rw [ht]
    exact hset.tell es
  rw [leave_requester_eq hd' place' connected, leave_requester_eq hd place connected, hdeparted,
    hunsent, hkept, ht]
  simp [← htold]

theorem leave_stopped (hd : s.directory.Wired) {id : Nat} {r : Requester}
    (place : s.directory.requesters[id]? = some r) (connected : r.connected = true) :
    (s.step (.stops (.requester id))).leave (.requester id) = s.leave (.requester id) := by
  have hstop : s.step (.stops (.requester id)) = s.moveTo [] _ [] := stop_results_eq place
  have hspent : r.results.close.spent = r.results.spent := by
    unfold JobQueue.close
    split <;> rfl
  refine leave_after hd place connected _ s.held [] hstop hspent ?_ ?_ ?_
  · rw [hstop, JobQueue.close_jobs]
    rfl
  · rw [hstop]
    rfl
  · simp [Directory.drained]

theorem leave_taken (hd : s.directory.Wired) {id : Nat} {r : Requester}
    (place : s.directory.requesters[id]? = some r) (connected : r.connected = true) :
    (s.take (.requester id)).leave (.requester id) = s.leave (.requester id) := by
  cases first : r.results.jobs with
  | nil => rw [take_idle _ (by simpa [Endpoint.queue, place] using first)]
  | cons job rest =>
    have htake := take_result_eq hd place first
    refine leave_after hd place connected _ _ _ htake rfl ?_ ?_ ?_
    · rw [htake]
      simp [heldBy, first]
    · rw [htake]
      simp [heldWithout]
    · simp [Directory.drained, first, (hd.requester id r place).2, JobQueue.withJobs]

theorem connected_taken (hd : s.directory.Wired) {id : Nat} {r : Requester}
    (place : s.directory.requesters[id]? = some r) (connected : r.connected = true) :
    ∃ r', (s.take (.requester id)).directory.requesters[id]? = some r' ∧ r'.connected = true := by
  cases first : r.results.jobs with
  | nil =>
    rw [take_idle _ (by simpa [Endpoint.queue, place] using first)]
    exact ⟨r, place, connected⟩
  | cons job rest =>
    rw [take_result_eq hd place first]
    exact ⟨_, List.getElem?_set_self (List.getElem?_eq_some_iff.1 place).1, connected⟩

theorem leave_takes (hd : s.directory.Wired) {id : Nat} {r : Requester}
    (place : s.directory.requesters[id]? = some r) (connected : r.connected = true) (n : Nat) :
    (s.run (List.replicate n (.takes (.requester id)))).leave (.requester id) =
      s.leave (.requester id) := by
  induction n generalizing s r with
  | zero => rfl
  | succ n ih =>
    obtain ⟨r', place', connected'⟩ := connected_taken hd place connected
    exact (ih ((take_moves hd _).moves.wired hd) place' connected').trans
      (leave_taken hd place connected)

theorem leave_drained (hd : s.directory.Wired) {id : Nat} {r : Requester}
    (place : s.directory.requesters[id]? = some r) (connected : r.connected = true) (n : Nat) :
    ((s.step (.stops (.requester id))).run (List.replicate n (.takes (.requester id)))).leave
      (.requester id) = s.leave (.requester id) := by
  have place' : (s.step (.stops (.requester id))).directory.requesters[id]? =
      some { r with results := r.results.close } := by
    rw [step, stop_results_eq place]
    exact List.getElem?_set_self (List.getElem?_eq_some_iff.1 place).1
  have hwired : (s.step (.stops (.requester id))).directory.Wired := (stop_moves _).moves.wired hd
  exact (leave_takes hwired place' connected n).trans (leave_stopped hd place connected)

end System
end JobBroker
