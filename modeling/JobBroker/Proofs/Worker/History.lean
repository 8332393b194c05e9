import JobBroker.Proofs.Run.Effects
import Mathlib.Data.List.Induction
import Mathlib.Data.List.Nodup

/-! The books of a worker over its whole history. They are compared with a ledger of the answers
that were given: which jobs were let in, which reports were taken, and which jobs were taken away.
-/
namespace JobBroker

namespace Worker

inductive Deed where
  | assigns (job : TrackedJob)
  | completes (internal : Nat) (succeeded : Bool) (result : Bytes)
  /-- All outstanding jobs are taken away. -/
  | clears
  /-- Its session does something to the queue: takes from it, closes it, or is gone. -/
  | turns (queue : JobQueue)

def Deed.assigned? : Deed → Option TrackedJob
  | assigns job => some job
  | _ => none

structure IsNew (w : Worker) : Prop where
  outstanding : w.outstanding = []
  completed : w.completed = []
  completedTotal : w.completedTotal = 0

end Worker

/-- A worker with the answers it has given so far, each list in order. -/
structure Ledger where
  worker : Worker
  assigned : List TrackedJob := []
  reported : List TrackedJob := []
  taken : List TrackedJob := []

namespace Ledger
open Worker (Deed)

def assign (l : Ledger) (w : Worker) (job : TrackedJob) : Ledger :=
  { l with worker := w, assigned := l.assigned ++ [job] }

def report (l : Ledger) (w : Worker) (done : TrackedJob) : Ledger :=
  { l with worker := w, reported := l.reported ++ [done] }

def take (l : Ledger) (w : Worker) (jobs : List TrackedJob) : Ledger :=
  { l with worker := w, taken := l.taken ++ jobs }

def step (l : Ledger) : Deed → Ledger
  | .assigns job =>
    match l.worker.assign job with
    | .error _ => l
    | .ok (w, _) => l.assign w job
  | .completes internal succeeded result =>
    match l.worker.complete internal succeeded result with
    | none => l
    | some (done, w) => l.report w done
  | .clears => l.take l.worker.takeOutstanding.2 l.worker.takeOutstanding.1
  | .turns queue => { l with worker := { l.worker with jobs := queue } }

def run (l : Ledger) (deeds : List Deed) : Ledger := deeds.foldl step l

theorem run_concat (l : Ledger) (deeds : List Deed) (deed : Deed) :
    l.run (deeds ++ [deed]) = (l.run deeds).step deed := List.foldl_concat ..

def gone (l : Ledger) : List Nat := (l.reported ++ l.taken).map (·.internal)

end Ledger

namespace Worker

theorem filter_other {front back : List TrackedJob} {job : TrackedJob}
    (h : ((front ++ job :: back).map (·.internal)).Nodup) :
    (front ++ job :: back).filter (fun j => j.internal ≠ job.internal) = front ++ back := by
  rw [List.map_append, List.map_cons, List.nodup_middle, List.nodup_cons, ← List.map_append] at h
  have hothers : ∀ j ∈ front ++ back, j.internal ≠ job.internal := fun j hj heq =>
    h.1 (List.mem_map.2 ⟨j, hj, heq⟩)
  rw [List.filter_append, List.filter_cons_of_neg (by simp), ← List.filter_append]
  exact List.filter_eq_self.2 fun j hj => decide_eq_true (hothers j hj)

theorem complete_some {w w' : Worker} {internal : Nat} {succeeded : Bool} {result : Bytes}
    {done : TrackedJob} (h : w.complete internal succeeded result = some (done, w')) :
    ∃ front job back, w.outstanding = front ++ job :: back ∧ job.internal = internal ∧
      done = job.withOutcome succeeded result ∧
      w' = { w with
        outstanding := front ++ back
        completed := remember w.completed done
        completedTotal := w.completedTotal + 1 } := by
  rw [complete] at h
  cases hfind : w.outstanding.find? fun j => j.internal == internal with
  | none => simp [hfind] at h
  | some job =>
    obtain ⟨hjob, front, back, hsplit, hfront⟩ := List.find?_eq_some_iff_append.1 hfind
    have hbefore : ∀ j ∈ front, ¬ (j.internal == internal) = true := fun j hj => by
      simpa using hfront j hj
    have herase : w.outstanding.eraseP (fun j => j.internal == internal) = front ++ back := by
      rw [hsplit, List.eraseP_append_right _ hbefore,
        List.eraseP_cons_of_pos (by simpa using hjob)]
    simp only [hfind, Option.some.injEq, Prod.mk.injEq] at h
    obtain ⟨rfl, rfl⟩ := h
    exact ⟨front, job, back, hsplit, by simpa using hjob, rfl, by rw [herase]⟩

theorem complete_isSome_iff (w : Worker) (internal : Nat) (succeeded : Bool) (result : Bytes) :
    (w.complete internal succeeded result).isSome = true ↔
      internal ∈ w.outstanding.map (·.internal) := by
  rw [complete]
  cases hfind : w.outstanding.find? fun j => j.internal == internal with
  | none =>
    have hnone := List.find?_eq_none.1 hfind
    simpa using hnone
  | some job =>
    have hjob : job.internal = internal := by simpa using List.find?_some hfind
    simpa using ⟨job, List.mem_of_find?_eq_some hfind, hjob⟩

theorem remember_drop (reports : List TrackedJob) (done : TrackedJob) :
    remember (reports.drop (reports.length - historyLimit)) done =
      (reports ++ [done]).drop ((reports ++ [done]).length - historyLimit) := by
  have hlonger : reports.drop (reports.length - historyLimit) ++ [done] =
      (reports ++ [done]).drop (reports.length - historyLimit) :=
    (List.drop_append_of_le_length (Nat.sub_le ..)).symm
  have hlength : (reports ++ [done]).length = reports.length + 1 := List.length_append
  rw [remember, hlonger, List.length_drop, hlength, List.drop_drop]
  split
  · have hfull : reports.length - historyLimit + 1 = reports.length + 1 - historyLimit := by omega
    rw [hfull]
  · have hroom : reports.length - historyLimit = reports.length + 1 - historyLimit := by omega
    rw [hroom]

end Worker

namespace Ledger
open Worker (Deed)
variable {l : Ledger} {deeds : List Deed}

/-- The worker's books agree with the ledger. -/
structure Kept (deeds : List Deed) (l : Ledger) : Prop where
  outstanding : l.worker.outstanding = l.assigned.filter fun j => j.internal ∉ l.gone
  assigned : l.assigned.Sublist (deeds.filterMap Deed.assigned?)
  gone : ∀ internal ∈ l.gone, internal ∈ l.assigned.map (·.internal)
  once : l.gone.Nodup
  reported : ∀ done ∈ l.reported, ∃ job ∈ l.assigned, ∃ succeeded result,
    Deed.completes job.internal succeeded result ∈ deeds ∧
      done = job.withOutcome succeeded result
  total : l.worker.completedTotal = l.reported.length
  recent : l.worker.completed =
    l.reported.drop (l.reported.length - Worker.historyLimit)

theorem Kept.gone_or_outstanding (h : l.Kept deeds) {job : TrackedJob} (hjob : job ∈ l.assigned) :
    job.internal ∈ l.gone ∨ job ∈ l.worker.outstanding := by
  by_cases hgone : job.internal ∈ l.gone
  · exact .inl hgone
  · rw [h.outstanding]
    exact .inr (List.mem_filter.2 ⟨hjob, decide_eq_true hgone⟩)

theorem Kept.nodup_outstanding (h : l.Kept deeds)
    (hdistinct : ((deeds.filterMap Deed.assigned?).map (·.internal)).Nodup) :
    (l.worker.outstanding.map (·.internal)).Nodup := by
  rw [h.outstanding]
  exact hdistinct.sublist ((List.filter_sublist.trans h.assigned).map _)

theorem Kept.later (h : l.Kept deeds) (deed : Deed) : l.Kept (deeds ++ [deed]) where
  outstanding := h.outstanding
  assigned := h.assigned.trans (by rw [List.filterMap_append]; exact List.sublist_append_left ..)
  gone := h.gone
  once := h.once
  reported := by
    intro done hdone
    obtain ⟨job, hjob, succeeded, result, hdeed, heq⟩ := h.reported done hdone
    exact ⟨job, hjob, succeeded, result, List.mem_append_left _ hdeed, heq⟩
  total := h.total
  recent := h.recent

theorem Kept.turn (h : l.Kept deeds) (queue : JobQueue) :
    Kept deeds { l with worker := { l.worker with jobs := queue } } :=
  ⟨h.outstanding, h.assigned, h.gone, h.once, h.reported, h.total, h.recent⟩

theorem Kept.assign (h : l.Kept deeds) {w : Worker} {job : TrackedJob}
    (hnew : job.internal ∉ (deeds.filterMap Deed.assigned?).map (·.internal))
    (houtstanding : w.outstanding = l.worker.outstanding ++ [job])
    (hcompleted : w.completed = l.worker.completed)
    (htotal : w.completedTotal = l.worker.completedTotal) :
    Kept (deeds ++ [.assigns job]) (l.assign w job) where
  outstanding := by
    have hhere : job.internal ∉ l.gone := fun hgone =>
      hnew ((h.assigned.map _).subset (h.gone _ hgone))
    have hgone : (l.assign w job).gone = l.gone := rfl
    have hassigned : (l.assign w job).assigned = l.assigned ++ [job] := rfl
    have hone : [job].filter (fun j => j.internal ∉ l.gone) = [job] :=
      List.filter_eq_self.2 (by simpa using hhere)
    rw [hgone, hassigned, List.filter_append, hone, ← h.outstanding]
    exact houtstanding
  assigned := by
    rw [List.filterMap_append]
    exact h.assigned.append (List.Sublist.refl _)
  gone := by
    intro internal hgone
    have hold := h.gone internal hgone
    rw [Ledger.assign, List.map_append]
    exact List.mem_append_left _ hold
  once := h.once
  reported := by
    intro done hdone
    obtain ⟨other, hother, rest⟩ := (h.later (.assigns job)).reported done hdone
    exact ⟨other, List.mem_append_left _ hother, rest⟩
  total := htotal.trans h.total
  recent := hcompleted.trans h.recent

theorem mem_gone_report (l : Ledger) (w : Worker) (done : TrackedJob) (internal : Nat) :
    internal ∈ (l.report w done).gone ↔ internal ∈ l.gone ∨ internal = done.internal := by
  simp only [gone, report, List.map_append, List.mem_append, List.map_cons, List.map_nil,
    List.mem_singleton]
  exact or_right_comm

theorem nodup_gone_report (w : Worker) {done : TrackedJob} (h : l.gone.Nodup)
    (hnew : done.internal ∉ l.gone) : (l.report w done).gone.Nodup := by
  simp only [gone, List.map_append] at h hnew
  simp only [gone, report, List.map_append, List.map_cons, List.append_assoc, List.singleton_append]
  rw [List.nodup_middle, List.nodup_cons]
  exact ⟨hnew, h⟩

theorem Kept.report (h : l.Kept deeds) {w : Worker} {front back : List TrackedJob}
    {job : TrackedJob} {succeeded : Bool} {result : Bytes}
    (hdistinct : (l.worker.outstanding.map (·.internal)).Nodup)
    (hsplit : l.worker.outstanding = front ++ job :: back)
    (houtstanding : w.outstanding = front ++ back)
    (hcompleted : w.completed =
      Worker.remember l.worker.completed (job.withOutcome succeeded result))
    (htotal : w.completedTotal = l.worker.completedTotal + 1) :
    Kept (deeds ++ [.completes job.internal succeeded result])
      (l.report w (job.withOutcome succeeded result)) := by
  have hjob : job ∈ l.assigned ∧ job.internal ∉ l.gone := by
    have hmem : job ∈ l.worker.outstanding := by simp [hsplit]
    rw [h.outstanding, List.mem_filter] at hmem
    exact ⟨hmem.1, by simpa using hmem.2⟩
  exact {
    outstanding := by
      have hfilter : l.assigned.filter (fun j =>
          j.internal ∉ (l.report w (job.withOutcome succeeded result)).gone) =
            l.worker.outstanding.filter fun j => j.internal ≠ job.internal := by
        rw [h.outstanding, List.filter_filter]
        refine List.filter_congr fun j _ => ?_
        simp [mem_gone_report, and_comm]
      rw [hsplit] at hdistinct hfilter
      rw [Worker.filter_other hdistinct] at hfilter
      exact houtstanding.trans hfilter.symm
    assigned := (h.later _).assigned
    gone := by
      intro internal hmem
      obtain hold | rfl := (l.mem_gone_report w _ internal).1 hmem
      · exact h.gone internal hold
      · exact List.mem_map.2 ⟨job, hjob.1, rfl⟩
    once := nodup_gone_report w h.once hjob.2
    reported := by
      intro done hdone
      obtain hold | hone := List.mem_append.1 hdone
      · exact (h.later _).reported done hold
      · rw [List.mem_singleton] at hone
        exact ⟨job, hjob.1, succeeded, result, List.mem_append_right _ (List.mem_singleton.2 rfl),
          hone⟩
    total := by
      rw [Ledger.report, List.length_append, ← h.total]
      exact htotal
    recent := by
      rw [h.recent, Worker.remember_drop] at hcompleted
      exact hcompleted }

theorem Kept.take (h : l.Kept deeds) {w : Worker}
    (hdistinct : (l.worker.outstanding.map (·.internal)).Nodup) (houtstanding : w.outstanding = [])
    (hcompleted : w.completed = l.worker.completed)
    (htotal : w.completedTotal = l.worker.completedTotal) :
    Kept deeds (l.take w l.worker.outstanding) := by
  have hgone : (l.take w l.worker.outstanding).gone =
      l.gone ++ l.worker.outstanding.map (·.internal) := by
    simp [Ledger.gone, Ledger.take]
  exact {
    outstanding := by
      refine houtstanding.trans (List.filter_eq_nil_iff.2 fun job hjob => ?_).symm
      have hwhere := h.gone_or_outstanding hjob
      have hmem : job.internal ∈ (l.take w l.worker.outstanding).gone := by
        rw [hgone, List.mem_append]
        exact hwhere.imp_right fun hmem => List.mem_map.2 ⟨job, hmem, rfl⟩
      simpa using hmem
    assigned := h.assigned
    gone := by
      intro internal hmem
      rw [hgone, List.mem_append] at hmem
      refine hmem.elim (h.gone internal) fun hmem => ?_
      rw [h.outstanding] at hmem
      exact (List.filter_sublist.map _).subset hmem
    once := by
      rw [hgone, List.nodup_append']
      refine ⟨h.once, hdistinct, fun internal hold hmem => ?_⟩
      rw [h.outstanding] at hmem
      obtain ⟨job, hjob, rfl⟩ := List.mem_map.1 hmem
      exact absurd hold (by simpa using (List.mem_filter.1 hjob).2)
    reported := h.reported
    total := htotal.trans h.total
    recent := hcompleted.trans h.recent }

theorem Kept.step (h : l.Kept deeds) (deed : Deed)
    (hdistinct : (((deeds ++ [deed]).filterMap Deed.assigned?).map (·.internal)).Nodup) :
    Kept (deeds ++ [deed]) (l.step deed) := by
  have hoffered : ((deeds ++ [deed]).filterMap Deed.assigned?).map (·.internal) =
      (deeds.filterMap Deed.assigned?).map (·.internal) ++
        ([deed].filterMap Deed.assigned?).map (·.internal) := by
    rw [List.filterMap_append, List.map_append]
  rw [hoffered, List.nodup_append'] at hdistinct
  obtain ⟨hbefore, -, hapart⟩ := hdistinct
  have hown := h.nodup_outstanding hbefore
  cases deed with
  | assigns job =>
    have hnew : job.internal ∉ (deeds.filterMap Deed.assigned?).map (·.internal) := fun hmem =>
      hapart hmem (List.mem_singleton.2 rfl)
    rw [Ledger.step, Worker.assign]
    cases l.worker.jobs.enqueue job with
    | error back => exact h.later _
    | ok entered => exact h.assign hnew rfl rfl rfl
  | completes internal succeeded result =>
    rw [Ledger.step]
    cases hcomplete : l.worker.complete internal succeeded result with
    | none => exact h.later _
    | some answer =>
      obtain ⟨done, w⟩ := answer
      obtain ⟨front, job, back, hsplit, rfl, rfl, rfl⟩ := Worker.complete_some hcomplete
      exact h.report hown hsplit rfl rfl rfl
  | clears => exact (h.later _).take hown rfl rfl rfl
  | turns queue => exact (h.later _).turn queue

theorem run_kept {w : Worker} (hnew : w.IsNew) (deeds : List Deed)
    (hdistinct : ((deeds.filterMap Deed.assigned?).map (·.internal)).Nodup) :
    Kept deeds (run { worker := w } deeds) := by
  induction deeds using List.reverseRecOn with
  | nil =>
    have hrecent : w.completed = [].drop (0 - Worker.historyLimit) := by
      rw [List.drop_nil, hnew.completed]
    exact ⟨hnew.outstanding, List.Sublist.refl _, nofun, List.nodup_nil, nofun,
      hnew.completedTotal, hrecent⟩
  | append_singleton deeds deed ih =>
    rw [run_concat]
    refine Kept.step (ih (hdistinct.sublist ?_)) deed hdistinct
    rw [List.filterMap_append, List.map_append]
    exact List.sublist_append_left ..

/-- Jobs with different numbers are assigned to a new worker, reported and taken away in any order,
whether its queue takes jobs or not. Outstanding are the jobs that it took and that were neither
reported nor taken away, in the order in which they came. A report is taken if and only if its job
is outstanding; that job alone goes, and comes back with nothing changed but the outcome. No job is
reported twice, the total counts the reports that were taken, and the history has the last of them,
oldest first, with the outcomes that were reported. -/
theorem books_kept {w : Worker} (hnew : w.IsNew) (deeds : List Deed)
    (hdistinct : ((deeds.filterMap Deed.assigned?).map (·.internal)).Nodup) :
    let l := run { worker := w } deeds
    l.worker.outstanding =
      l.assigned.filter (fun j => j.internal ∉ (l.reported ++ l.taken).map (·.internal)) ∧
    (∀ internal succeeded result,
      ((l.worker.complete internal succeeded result).isSome = true ↔
        internal ∈ l.worker.outstanding.map (·.internal)) ∧
      ∀ done w', l.worker.complete internal succeeded result = some (done, w') →
        ∃ front job back, l.worker.outstanding = front ++ job :: back ∧ job.internal = internal ∧
          w'.outstanding = front ++ back ∧ done = job.withOutcome succeeded result) ∧
    (l.reported.map (·.internal)).Nodup ∧
    l.worker.completedTotal = l.reported.length ∧
    l.worker.completed.length = min 256 l.worker.completedTotal ∧
    l.worker.completed <:+ l.reported ∧
    ∀ done ∈ l.reported, ∃ job ∈ l.assigned, ∃ succeeded result,
      Deed.completes job.internal succeeded result ∈ deeds ∧
        done = job.withOutcome succeeded result := by
  intro l
  have h : l.Kept deeds := run_kept hnew deeds hdistinct
  refine ⟨h.outstanding, fun internal succeeded result => ⟨?_, fun done w' hcomplete => ?_⟩, ?_,
    h.total, ?_, ?_, h.reported⟩
  · exact l.worker.complete_isSome_iff internal succeeded result
  · obtain ⟨front, job, back, hsplit, hjob, hdone, rfl⟩ := Worker.complete_some hcomplete
    exact ⟨front, job, back, hsplit, hjob, rfl, hdone⟩
  · have honce := h.once
    rw [gone, List.map_append] at honce
    exact honce.sublist (List.sublist_append_left ..)
  · have hlimit : Worker.historyLimit = 256 := rfl
    rw [h.recent, List.length_drop, h.total, hlimit]
    omega
  · rw [h.recent]
    exact List.drop_suffix ..

def sample (internal : Nat) : TrackedJob := .ofRequest internal 0 ⟨0, .a, false, []⟩ 0

/-- Three jobs are assigned, and a fourth is handed back when the session has closed the queue. The
second job is reported, once more in vain, and then the first. -/
def sampleDeeds : List Deed :=
  [.assigns (sample 0), .assigns (sample 1), .assigns (sample 2), .completes 1 true [7],
    .turns { name := .worker 0, consumer := .closed }, .assigns (sample 3),
    .completes 1 false [], .completes 0 false [8]]

theorem books_kept_refused :
    let w : Worker :=
      { id := 0, peer := "", specialty := .a, scheduling := {}, jobs := { name := .worker 0 } }
    let l := run { worker := w } sampleDeeds
    w.IsNew ∧ ((sampleDeeds.filterMap Deed.assigned?).map (·.internal)).Nodup ∧
      l.worker.outstanding = [sample 2] ∧
      (l.worker.complete 1 true []).isSome = false ∧ (l.worker.complete 2 true []).isSome = true ∧
      l.worker.completed = [(sample 1).withOutcome true [7], (sample 0).withOutcome false [8]] := by
  intro w l
  have hnew : w.IsNew := ⟨rfl, rfl, rfl⟩
  have hdistinct : ((sampleDeeds.filterMap Deed.assigned?).map (·.internal)).Nodup := by decide
  obtain ⟨houtstanding, hcomplete, -, htotal, hlength, hsuffix, -⟩ :=
    books_kept hnew sampleDeeds hdistinct
  have hkept : l.worker.outstanding = [sample 2] := houtstanding.trans (by decide)
  have hreported : l.reported =
      [(sample 1).withOutcome true [7], (sample 0).withOutcome false [8]] := by decide
  refine ⟨hnew, hdistinct, hkept, ?_, ?_, ?_⟩
  · rw [← Bool.not_eq_true, (hcomplete 1 true []).1, hkept]
    decide
  · rw [(hcomplete 2 true []).1, hkept]
    decide
  · rw [← hreported]
    refine hsuffix.eq_of_length ?_
    rw [hlength, htotal, hreported]
    rfl

end Ledger

end JobBroker
