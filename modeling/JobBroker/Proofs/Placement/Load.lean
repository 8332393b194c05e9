import JobBroker.Proofs.Placement.Attempt
import Mathlib.Algebra.Order.BigOperators.Group.List
import Mathlib.Algebra.Order.Ring.Nat

/-! The load of a worker is a sum in 64 bits, and the settings put no limit to the time of a job or
to the number of jobs. It is exact as long as the sum fits. When the sum runs over, it cannot be
reckoned if the program was built with checks, and one more job has made it smaller if not. -/
namespace JobBroker

namespace Worker

inductive Act where
  | assigns (job : TrackedJob)
  | completes (internal : Nat) (succeeded : Bool) (result : Bytes)

def act (w : Worker) : Act → Worker
  | .assigns job =>
    match w.assign job with
    | .error _ => w
    | .ok (w, _) => w
  | .completes internal succeeded result =>
    ((w.complete internal succeeded result).map (·.2)).getD w

def run (w : Worker) (acts : List Act) : Worker := acts.foldl act w

/-- A worker that takes jobs and has its times from the settings `s`. -/
structure Serves (w : Worker) (s : Scheduling) (specialty : JobType) : Prop where
  accepting : w.isAccepting = true
  scheduling : w.scheduling = s
  specialty : w.specialty = specialty

variable {w : Worker} {s : Scheduling} {specialty : JobType}

theorem Serves.assigned (h : w.Serves s specialty) (job : TrackedJob) :
    (Directory.assignedTo w job).Serves s specialty := ⟨h.accepting, h.scheduling, h.specialty⟩

theorem Serves.act (h : w.Serves s specialty) (a : Act) : (w.act a).Serves s specialty := by
  cases a with
  | assigns job =>
    rw [Worker.act, Directory.assign_accepting h.accepting]
    exact h.assigned job
  | completes internal succeeded result =>
    rw [Worker.act, complete]
    split
    · exact h
    · exact ⟨h.accepting, h.scheduling, h.specialty⟩

theorem Serves.run (h : w.Serves s specialty) (acts : List Act) :
    (w.run acts).Serves s specialty := by
  induction acts generalizing w with
  | nil => exact h
  | cons a acts ih => exact ih (h.act a)

theorem Serves.exactLoad_eq (h : w.Serves s specialty) :
    w.exactLoad =
      (w.outstanding.map fun j => (s.serviceTime specialty j.jobType).toNat).sum := by
  simp only [exactLoad, serviceTime, h.scheduling, h.specialty]

theorem Serves.exactLoad_le (h : w.Serves s specialty) (hfast : s.fast ≤ s.slow) :
    w.exactLoad ≤ w.outstanding.length * s.slow.toNat := by
  have hsum := List.sum_le_card_nsmul
    (w.outstanding.map fun j => (s.serviceTime specialty j.jobType).toNat) s.slow.toNat
  rw [List.length_map, Nat.nsmul_eq_mul] at hsum
  rw [h.exactLoad_eq]
  refine hsum fun time htime => ?_
  obtain ⟨j, -, rfl⟩ := List.mem_map.1 htime
  exact Scheduling.serviceTime_le hfast specialty j.jobType

end Worker

theorem Settings.fast_le_of_validate {s : Settings} (h : s.validate = .ok ()) :
    s.scheduling.fast ≤ s.scheduling.slow := by
  unfold validate at h
  split at h
  · cases h
  · split at h
    · cases h
    · split at h
      · cases h
      · rename_i hfast
        exact UInt64.not_lt.1 hfast

namespace Directory

theorem serves_registerWorker {d : Directory} (hd : d.Wired) (peer : String)
    (specialty : JobType) {w : Worker}
    (hw : (d.registerWorker peer specialty).2.worker? (d.registerWorker peer specialty).1 =
      some w) :
    w.Serves d.scheduling specialty := by
  obtain ⟨hplace, -⟩ := worker?_some hw
  have hlast : (d.joinedWorker peer specialty).workers[d.ids.nextWorker]? = some w := hplace
  rw [joinedWorker, hd.nextWorker, List.getElem?_concat_length] at hlast
  cases hlast
  exact ⟨rfl, rfl, rfl⟩

/-- A worker is registered under settings that were found usable, and jobs are assigned to it and
reported by it in any order. Its load is the sum of its times over its outstanding jobs in 64 bits,
and with checks there is none if the sum runs over. So it is exact if and only if the sum fits, as
it does as long as the number of jobs times the slow time does; and one more job leaves a load that
is not smaller if and only if the sum still fits. -/
theorem load_exact_iff {s : Settings} (hs : s.validate = .ok ()) {d : Directory} (hd : d.Wired)
    (hscheduling : d.scheduling = s.scheduling) (peer : String) (specialty : JobType) {w : Worker}
    (hw : (d.registerWorker peer specialty).2.worker? (d.registerWorker peer specialty).1 = some w)
    (acts : List Worker.Act) (build : Build) :
    let time (job : TrackedJob) := (s.scheduling.serviceTime specialty job.jobType).toNat
    let sum := ((w.run acts).outstanding.map time).sum
    let load := (w.run acts).totalLoad build
    load = (if build = .checked ∧ Decimal.maxWord < sum then .error .addOverflow
      else .ok (UInt64.ofNat sum)) ∧
    ((∃ n, load = .ok n ∧ n.toNat = sum) ↔ sum ≤ Decimal.maxWord) ∧
    ((w.run acts).outstanding.length * s.scheduling.slow.toNat ≤ Decimal.maxWord →
      ∃ n, load = .ok n ∧ n.toNat = sum) ∧
    ∀ job, ∃ w' e, (w.run acts).assign job = .ok (w', e) ∧
      w'.outstanding = (w.run acts).outstanding ++ [job] ∧
      ∀ n, load = .ok n →
        ((∃ n', w'.totalLoad build = .ok n' ∧ n ≤ n') ↔ n.toNat + time job ≤ Decimal.maxWord) := by
  intro time sum load
  have hserves := (hscheduling ▸ serves_registerWorker hd peer specialty hw).run acts
  have hsum : (w.run acts).exactLoad = sum := hserves.exactLoad_eq
  have hload : load = if build.Bears sum then .ok (UInt64.ofNat sum) else .error .addOverflow := by
    rw [← hsum]
    exact (w.run acts).totalLoad_eq build
  have hexact : (∃ n, load = .ok n ∧ n.toNat = sum) ↔ sum ≤ Decimal.maxWord := by
    rw [hload]
    constructor
    · rintro ⟨n, -, hn⟩
      exact hn ▸ Nat.le_of_lt_succ n.toNat_lt
    · intro hfits
      exact ⟨_, if_pos (Build.Bears.of_le hfits),
        UInt64.toNat_ofNat_of_lt' (Nat.lt_succ_of_le hfits)⟩
  refine ⟨?_, hexact, fun hfew => hexact.2 ?_, fun job => ?_⟩
  · by_cases hbears : build.Bears sum
    · rw [hload, if_pos hbears, if_neg (mt Build.not_bears_iff.2 (not_not_intro hbears))]
    · rw [hload, if_neg hbears, if_pos (Build.not_bears_iff.1 hbears)]
  · have hle := hserves.exactLoad_le (Settings.fast_le_of_validate hs)
    rw [hsum] at hle
    exact hle.trans hfew
  · refine ⟨_, _, assign_accepting hserves.accepting job, rfl, fun n hn => ?_⟩
    have htime : ((w.run acts).serviceTime job.jobType).toNat = time job := by
      rw [Worker.serviceTime, hserves.scheduling, hserves.specialty]
    rw [totalLoad_assignedTo hn, Build.add_grows_iff, htime]

/-- Usable settings with the longest time that a settings file can give to a job. -/
def slowest : Settings := { scheduling := { slow := 9223372036854775807 } }

/-- A job that does not suit a worker of specialty `b`. -/
def unsuited (internal : Nat) : TrackedJob := .ofRequest internal 0 ⟨0, .a, false, []⟩ 0

/-- A worker is assigned three jobs and reports one of them: the other two still fit, and a further
job does not. -/
theorem load_exact_iff_reported :
    let d := (System.start .checked slowest.scheduling 0).directory
    let acts := [.assigns (unsuited 0), .assigns (unsuited 1), .assigns (unsuited 2),
      .completes 0 true []]
    let time (job : TrackedJob) := (slowest.scheduling.serviceTime .b job.jobType).toNat
    slowest.validate = .ok () ∧ d.Wired ∧ ∃ w,
      (d.registerWorker "" .b).2.worker? (d.registerWorker "" .b).1 = some w ∧
      (w.run acts).totalLoad .checked = .ok 18446744073709551614 ∧
      ((w.run acts).outstanding.map time).sum = 18446744073709551614 ∧
      ∃ w' e, (w.run acts).assign (unsuited 3) = .ok (w', e) ∧
        ¬ ∃ n, w'.totalLoad .checked = .ok n ∧ 18446744073709551614 ≤ n := by
  intro d acts time
  have hs : slowest.validate = .ok () := rfl
  have hd : d.Wired := System.start_wired .checked slowest.scheduling 0
  refine ⟨hs, hd, _, rfl, ?_, by decide, ?_⟩
  · rw [(load_exact_iff hs hd rfl "" .b rfl acts .checked).1]
    decide
  · obtain ⟨hload, -, -, hnext⟩ := load_exact_iff hs hd rfl "" .b rfl acts .checked
    obtain ⟨w', e, hassign, -, hless⟩ := hnext (unsuited 3)
    exact ⟨w', e, hassign, fun hle => absurd ((hless _ hload).1 hle) (by decide)⟩

/-- The load of a worker with three such jobs cannot be reckoned with checks. Without them it is not
their sum, and is less than with two. -/
theorem load_runs_over :
    let d := (System.start .checked slowest.scheduling 0).directory
    let two := [.assigns (unsuited 0), .assigns (unsuited 1)]
    let three := two ++ [.assigns (unsuited 2)]
    slowest.validate = .ok () ∧ ∃ w,
      (d.registerWorker "" .b).2.worker? (d.registerWorker "" .b).1 = some w ∧
      (w.run three).outstanding = (w.run two).outstanding ++ [unsuited 2] ∧
      (w.run three).exactLoad = 27670116110564327421 ∧
      (w.run three).totalLoad .checked = .error .addOverflow ∧
      (w.run two).totalLoad .wrapping = .ok 18446744073709551614 ∧
      (w.run three).totalLoad .wrapping = .ok 9223372036854775805 :=
  ⟨rfl, _, rfl, rfl, by decide, by decide, by decide, by decide⟩

end Directory
end JobBroker
