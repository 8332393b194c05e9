import JobBroker.Proofs.Run.Basic

/-! Only a submission records an owner, and it does so under a number that was not drawn before.
This does not depend on the queues, so it holds also when nobody takes requests or finished jobs any
more. -/
namespace JobBroker

namespace Directory

/-- The numbers of the owners on record have been drawn. -/
def Numbered (d : Directory) : Prop := ∀ o ∈ d.owners, o.1 < d.ids.nextJob

instance (d : Directory) : Decidable d.Numbered :=
  inferInstanceAs (Decidable (∀ o ∈ d.owners, _))

/-- From `d` to `d'` no owner was recorded and no number of a job drawn. -/
structure NoneRecorded (d d' : Directory) : Prop where
  nextJob : d'.ids.nextJob = d.ids.nextJob
  owners : d'.owners ⊆ d.owners

variable {d d' : Directory}

theorem Numbered.filter_nextJob (h : d.Numbered) :
    d.owners.filter (fun o => o.1 != d.ids.nextJob) = d.owners :=
  List.filter_eq_self.2 fun o ho => bne_iff_ne.2 (Nat.ne_of_lt (h o ho))

theorem Numbered.of_noneRecorded (h : d.Numbered) (hnone : d.NoneRecorded d') : d'.Numbered :=
  fun o ho => hnone.nextJob ▸ h o (hnone.owners ho)

namespace NoneRecorded

theorem of_eq (hids : d'.ids.nextJob = d.ids.nextJob) (howners : d'.owners = d.owners) :
    d.NoneRecorded d' := ⟨hids, howners ▸ List.Subset.refl _⟩

theorem trans {d₁ d₂ d₃ : Directory} (h : d₁.NoneRecorded d₂) (h' : d₂.NoneRecorded d₃) :
    d₁.NoneRecorded d₃ := ⟨h'.nextJob.trans h.nextJob, List.Subset.trans h'.owners h.owners⟩

theorem emit (h : d.NoneRecorded d') (e : Event) : d.NoneRecorded (d'.emit e) :=
  h.trans (of_eq rfl rfl)

theorem rebase {d₀ : Directory} (h : d.NoneRecorded d') (hids : d.ids.nextJob = d₀.ids.nextJob)
    (howners : d.owners = d₀.owners) : d₀.NoneRecorded d' := (of_eq hids howners).trans h

theorem foldl {α : Type} {f : Directory → α → Directory}
    (h : ∀ (d : Directory) (a : α), d.NoneRecorded (f d a)) (l : List α) (d : Directory) :
    d.NoneRecorded (l.foldl f d) := by
  induction l generalizing d with
  | nil => exact of_eq rfl rfl
  | cons a l ih => exact (h d a).trans (ih (f d a))

theorem eraseOwner (d : Directory) (job : Nat) : d.NoneRecorded (d.eraseOwner job) :=
  ⟨rfl, fun _ h => (List.mem_filter.1 h).1⟩

theorem markUndeliverable (d : Directory) (job : TrackedJob) (requester : Nat) :
    d.NoneRecorded (d.markUndeliverable job requester) :=
  (eraseOwner d job.internal).trans (of_eq rfl rfl)

theorem reject (d : Directory) (job : TrackedJob) (reason : String) :
    d.NoneRecorded (d.reject job reason) := by
  rw [Directory.reject]
  split
  · exact of_eq rfl rfl
  · exact (eraseOwner _ job.internal).rebase rfl rfl

theorem deregisterRequester (d : Directory) (id : Nat) (unsent : List TrackedJob) :
    d.NoneRecorded (d.deregisterRequester id unsent) := by
  rw [Directory.deregisterRequester]
  split
  · exact of_eq rfl rfl
  · have hall := foldl (fun d job => markUndeliverable d job id) unsent
    dsimp only
    exact ((hall _).emit _).rebase rfl rfl

theorem deregisterWorker (d : Directory) (id : Nat) :
    d.NoneRecorded (d.deregisterWorker id).2 := by
  rw [Directory.deregisterWorker]
  split
  · exact of_eq rfl rfl
  · have hall := foldl fun d job => reject d job workerDisconnected
    dsimp only
    exact ((hall _ _).emit _).rebase rfl rfl

theorem complete (d : Directory) (worker : Nat) (report : Job) :
    d.NoneRecorded (d.complete worker report).1 := by
  rw [Directory.complete]
  split
  · exact of_eq rfl rfl
  · dsimp only
    split <;> exact of_eq rfl rfl

theorem route (d : Directory) (job : TrackedJob) : d.NoneRecorded (d.route job).2 := by
  rw [Directory.route]
  split
  · exact of_eq rfl rfl
  · have herase := eraseOwner d job.internal
    dsimp only
    split
    · exact herase.trans (markUndeliverable ..)
    · split
      · exact herase.trans (markUndeliverable ..)
      · exact herase.trans (of_eq rfl rfl)

theorem routeNext {outcome : Routing} (h : d.routeNext = some (outcome, d')) :
    d.NoneRecorded d' := by
  rw [Directory.routeNext, takeCompletion] at h
  split at h
  · cases h
  · have hd' := congrArg Prod.snd (Option.some.inj h)
    dsimp only at hd'
    subst hd'
    exact (route _ _).rebase rfl rfl

theorem attempt {workers : List Worker} {job : TrackedJob} {outcome : Except TrackedJob Nat}
    (h : d.attempt workers job = .ok (d', outcome)) : d.NoneRecorded d' := by
  fun_induction Directory.attempt d workers job with
  | case1 => cases h
  | case2 | case3 | case4 =>
    cases h
    exact of_eq rfl rfl
  | case5 workers job figures hfigures id hchosen w hfound back hback ih => exact ih h

theorem place {job : TrackedJob} {scheduler : Scheduler}
    (h : Scheduler.place d job = .ok (scheduler, d')) : d.NoneRecorded d' := by
  rw [Scheduler.place, tryAssign] at h
  split at h
  · cases h
  · cases h
    exact attempt ‹_›
  · have hattempt := attempt ‹_›
    split at h
    · cases h
      exact hattempt.trans (reject ..)
    · cases h
      exact hattempt

theorem schedule {before after : Scheduler} (h : before.step d = .ok (after, d')) :
    d.NoneRecorded d' := by
  rw [Scheduler.step, takeRequest] at h
  split at h
  · exact place h
  · split at h
    · cases h
      exact of_eq rfl rfl
    · rename_i htake
      split at htake
      · cases htake
      · cases htake
        exact (place h).rebase rfl rfl

theorem setQueue (peer : Endpoint) (d : Directory) (q : JobQueue) :
    d.NoneRecorded (peer.setQueue d q) := by
  cases peer <;> exact of_eq rfl rfl

theorem takeFor {peer : Endpoint} {job : TrackedJob} (h : d.takeFor peer = some (job, d')) :
    d.NoneRecorded d' := by
  rw [Directory.takeFor] at h
  split at h
  · cases h
  · cases h
    exact (setQueue peer d _).emit _

theorem drainFor (d : Directory) (peer : Endpoint) : d.NoneRecorded (d.drainFor peer).2 :=
  (setQueue peer d _).trans (foldl (fun _ e => emit (of_eq rfl rfl) e) _ _)

theorem leave (d : Directory) (peer : Endpoint) (held : List TrackedJob) :
    d.NoneRecorded (d.leave peer held) := by
  have hdrain := drainFor d peer
  cases peer with
  | worker id => exact hdrain.trans (deregisterWorker _ id)
  | requester id => exact hdrain.trans (deregisterRequester _ id _)

theorem onSent (d : Directory) (peer : Endpoint) : d.NoneRecorded (d.onSent peer) := by
  cases peer <;> exact of_eq rfl rfl

end NoneRecorded

theorem Numbered.submit (h : d.Numbered) (requester : Nat) (request : Job) :
    (d.submit requester request).1.Numbered := by
  have hdrawn : ∀ o ∈ d.owners, o.1 < d.ids.nextJob + 1 := fun o ho => Nat.lt_succ_of_lt (h o ho)
  rw [Directory.submit]
  dsimp only [Ids.drawJob]
  split
  · intro o ho
    obtain rfl | hold := List.mem_cons.1 (List.mem_filter.1 ho).1
    · exact Nat.lt_succ_self _
    · exact hdrawn o hold
  · intro o ho
    obtain rfl | hold := List.mem_cons.1 ho
    · exact Nat.lt_succ_self _
    · exact hdrawn o hold

end Directory

namespace System
open Directory

theorem step_numbered {s : System} (h : s.directory.Numbered) (x : Step) :
    (s.step x).directory.Numbered := by
  cases x with
  | requesterJoins | workerJoins | waits => exact h
  | submits requester request =>
    have hsubmit := h.submit requester request
    rw [step, System.submit]
    split
    · split
      · rename_i heq
        rw [heq] at hsubmit
        exact hsubmit
      · rename_i heq
        rw [heq] at hsubmit
        exact hsubmit
    · exact h
  | schedules =>
    rw [step]
    split
    · exact h
    · exact h.of_noneRecorded (.schedule ‹_›)
  | reports worker report => exact h.of_noneRecorded (.complete ..)
  | routes =>
    rw [step]
    cases hroute : s.directory.routeNext with
    | none => exact h
    | some routed =>
      obtain ⟨outcome, after⟩ := routed
      exact h.of_noneRecorded (.routeNext hroute)
  | takes peer =>
    rw [step, take]
    split
    · exact h
    · have hnone := NoneRecorded.takeFor ‹_›
      cases peer <;> exact h.of_noneRecorded hnone
  | writes requester =>
    rw [step, write]
    split
    · exact h
    · exact h.of_noneRecorded (.onSent s.directory (.requester requester))
  | stops peer => exact h.of_noneRecorded (.setQueue ..)
  | leaves peer =>
    rw [step, System.leave]
    split
    · exact h.of_noneRecorded (.leave ..)
    · exact h

/-- What runs come to when in between the directory's queues may be closed, given up or emptied. -/
inductive Reached (build : Build) (scheduling : Scheduling) (now : Millis) : System → Prop
  | start : Reached build scheduling now (start build scheduling now)
  | steps (s : System) (x : Step) (before : Reached build scheduling now s) :
      Reached build scheduling now (s.step x)
  | requeues (s : System) (requests completions : JobQueue)
      (before : Reached build scheduling now s) :
      Reached build scheduling now { s with
        directory := { s.directory with requests := requests, completions := completions } }

theorem Reached.numbered {build : Build} {scheduling : Scheduling} {now : Millis} {s : System}
    (h : Reached build scheduling now s) : s.directory.Numbered := by
  induction h with
  | start => nofun
  | steps s x _ ih => exact step_numbered ih x
  | requeues s requests completions _ ih => exact ih

end System
end JobBroker
