import JobBroker.Proofs.Placement.Attempt
import JobBroker.Proofs.Placement.Optimum

/-! Loads keep level. Among workers that began without jobs, whatever their specialties, the one
that is chosen would be done with the job before any other would. As no job takes longer than the
slow time, no two loads are ever further apart than that. -/
namespace JobBroker

/-- It can be reckoned what a worker has to do, and this is said of it. -/
def Worker.HasLoad (w : Worker) (build : Build) (p : Nat → Prop) : Prop :=
  ∃ load, w.totalLoad build = .ok load ∧ p load.toNat

theorem Worker.hasLoad_iff {w : Worker} {build : Build} {p : Nat → Prop} :
    w.HasLoad build p ↔ build.Bears w.exactLoad ∧ p w.load.toNat := by
  rw [HasLoad, totalLoad_eq]
  constructor
  · rintro ⟨load, hload, hp⟩
    split at hload
    · cases hload
      exact ⟨‹_›, hp⟩
    · cases hload
  · rintro ⟨hbears, hp⟩
    exact ⟨_, if_pos hbears, hp⟩

instance (w : Worker) (build : Build) (p : Nat → Prop) [DecidablePred p] :
    Decidable (w.HasLoad build p) := decidable_of_iff _ Worker.hasLoad_iff.symm

namespace Directory
open Candidate

def placeAll (d : Directory) (jobs : List TrackedJob) : Directory :=
  jobs.foldl (fun d job => ((d.tryAssign job).toOption.map (·.1)).getD d) d

/-- There are connected workers, all of them take jobs, and their times are those of the directory's
settings. -/
structure InService (d : Directory) : Prop where
  someone : ∃ w, w ∈ d.connectedWorkers
  accepting : ∀ w ∈ d.connectedWorkers, w.isAccepting = true
  times : ∀ w ∈ d.connectedWorkers, w.scheduling = d.scheduling

/-- No load would run over with a job that takes so long. -/
def HasRoom (d : Directory) (time : UInt64) : Prop :=
  ∀ w ∈ d.connectedWorkers, w.HasLoad d.build fun load => load + time.toNat ≤ Decimal.maxWord

/-- No two loads are further apart than the time of such a job. -/
def Level (d : Directory) (time : UInt64) : Prop :=
  ∀ v ∈ d.connectedWorkers, ∀ w ∈ d.connectedWorkers,
    v.HasLoad d.build fun load => w.HasLoad d.build fun load' => load ≤ load' + time.toNat

instance (d : Directory) (time : UInt64) : Decidable (d.HasRoom time) :=
  inferInstanceAs (Decidable (∀ w ∈ d.connectedWorkers, _))

instance (d : Directory) (time : UInt64) : Decidable (d.Level time) :=
  inferInstanceAs (Decidable (∀ v ∈ d.connectedWorkers, ∀ w ∈ d.connectedWorkers, _))

variable {d : Directory}

theorem HasRoom.fits {time : UInt64} (h : d.HasRoom time) : ¬ d.Overloaded := by
  rw [overloaded_iff, Classical.not_not]
  exact fun w hw => (Worker.hasLoad_iff.1 (h w (mem_accepting.1 hw).1)).1

theorem HasRoom.load_add_le {time : UInt64} (h : d.HasRoom time) {w : Worker}
    (hw : w ∈ d.connectedWorkers) : w.load.toNat + time.toNat ≤ Decimal.maxWord :=
  (Worker.hasLoad_iff.1 (h w hw)).2

theorem serviceTime_le {w : Worker} (htimes : w.scheduling = d.scheduling)
    (hfast : d.scheduling.fast ≤ d.scheduling.slow) (t : JobType) :
    (w.serviceTime t).toNat ≤ d.scheduling.slow.toNat := by
  rw [Worker.serviceTime, htimes]
  exact Scheduling.serviceTime_le hfast w.specialty t

theorem mem_figures {job : TrackedJob} {c : Candidate}
    (h : c ∈ d.figures job) :
    ∃ w ∈ d.connectedWorkers, c = ofLoad job w := by
  obtain ⟨w, hw, rfl⟩ := List.mem_map.1 h
  exact ⟨w, (mem_accepting.1 hw).1, rfl⟩

theorem InService.sameTimes (hs : d.InService) (job : TrackedJob) :
    SameTimes (d.figures job) := by
  intro b hb c hc hspecialty
  obtain ⟨v, hv, rfl⟩ := mem_figures hb
  obtain ⟨w, hw, rfl⟩ := mem_figures hc
  have hlike : v.specialty = w.specialty := hspecialty
  simp only [ofLoad, Worker.serviceTime, hs.times v hv, hs.times w hw, hlike]

theorem finish_le_of_chosen (hd : d.Wired) (hs : d.InService)
    (hfast : d.scheduling.fast ≤ d.scheduling.slow) (hroom : d.HasRoom d.scheduling.slow)
    {job : TrackedJob} {id : Nat} {w : Worker}
    (hchosen : selectWorker (d.figures job) = some id)
    (hw : d.workers[id]? = some w) :
    ∀ v ∈ d.connectedWorkers, w.load.toNat + (w.serviceTime job.jobType).toNat ≤
      v.load.toNat + (v.serviceTime job.jobType).toNat := by
  have fits : ∀ c ∈ d.figures job, c.finish ≤ Decimal.maxWord := by
    intro c hc
    obtain ⟨v, hv, rfl⟩ := mem_figures hc
    have htime := serviceTime_le (hs.times v hv) hfast job.jobType
    exact Nat.le_trans (Nat.add_le_add_left htime _) (hroom.load_add_le hv)
  obtain ⟨b, hb, hid, hfirst⟩ := selectWorker_precedes (hs.sameTimes job) fits hchosen
  obtain ⟨u, hu, rfl⟩ := mem_figures hb
  have hsame : u = w := hd.eq_of_id hu hid hw
  subst hsame
  intro v hv
  have hv' : ofLoad job v ∈ d.figures job :=
    List.mem_map_of_mem (mem_accepting.2 ⟨hv, hs.accepting v hv⟩)
  obtain hless | ⟨hequal, -⟩ := hfirst _ hv'
  · exact Nat.le_of_lt hless
  · exact Nat.le_of_eq hequal

theorem mem_connected_withWorker {id : Nat} {w' v : Worker} {es : List Event}
    (h : v ∈ ((d.withWorker id w').tell es).connectedWorkers) :
    v = w' ∨ v ∈ d.connectedWorkers := by
  obtain ⟨place, hplace, hconnected⟩ := mem_connectedWorkers.1 h
  rw [tell, withWorker, List.getElem?_set] at hplace
  split at hplace
  · split at hplace
    · exact .inl (Option.some.inj hplace).symm
    · cases hplace
  · exact .inr (mem_connectedWorkers.2 ⟨place, hplace, hconnected⟩)

theorem hasLoad_assignedTo {w : Worker} (hw : w ∈ d.connectedWorkers)
    (htimes : w.scheduling = d.scheduling) (hfast : d.scheduling.fast ≤ d.scheduling.slow)
    (hroom : d.HasRoom d.scheduling.slow) (job : TrackedJob) :
    (assignedTo w job).HasLoad d.build fun load =>
      load = w.load.toNat + (w.serviceTime job.jobType).toNat := by
  have hload : w.totalLoad d.build = .ok w.load := by
    rw [Worker.totalLoad_eq, if_pos (Worker.hasLoad_iff.1 (hroom w hw)).1]
  have htime := serviceTime_le htimes hfast job.jobType
  have hfits : w.load.toNat + (w.serviceTime job.jobType).toNat ≤ Decimal.maxWord :=
    Nat.le_trans (Nat.add_le_add_left htime _) (hroom.load_add_le hw)
  obtain ⟨load, hadd, hexact⟩ := (d.build.add_exact_iff _ _).2 hfits
  exact ⟨load, (totalLoad_assignedTo hload job).trans hadd, hexact⟩

/-- What placing a job keeps, of workers under the settings `s`. -/
structure Levelled (s : Scheduling) (d : Directory) : Prop where
  wired : d.Wired
  settings : d.scheduling = s
  service : d.InService
  level : d.Level s.slow

theorem Levelled.place {s : Scheduling} (h : d.Levelled s) (hfast : s.fast ≤ s.slow)
    (hroom : d.HasRoom s.slow) (job : TrackedJob) :
    ∃ id d', d.tryAssign job = .ok (d', .ok id) ∧ d'.Levelled s := by
  obtain ⟨hd, rfl, hs, hlevel⟩ := h
  cases placed hd job with
  | panics overloaded => exact absurd overloaded hroom.fits
  | returns nobody =>
    obtain ⟨v, hv⟩ := hs.someone
    have hopen := hs.accepting v hv
    rw [nobody v hv] at hopen
    cases hopen
  | assigns fits id w hw hconnected haccepting hchosen hassign =>
    have hmem : w ∈ d.connectedWorkers := mem_connectedWorkers.2 ⟨id, hw, hconnected⟩
    have htimes := hs.times w hmem
    have hfirst := finish_le_of_chosen hd hs hfast hroom hchosen hw
    obtain ⟨hbears, hload⟩ : d.build.Bears (assignedTo w (job.withWorker id)).exactLoad ∧
        (assignedTo w (job.withWorker id)).load.toNat =
          w.load.toNat + (w.serviceTime job.jobType).toNat :=
      Worker.hasLoad_iff.1 (hasLoad_assignedTo hmem htimes hfast hroom (job.withWorker id))
    have hwired : (d.withWorker id (assignedTo w (job.withWorker id))).Wired :=
      hd.withWorker hw rfl rfl
    have hplace : id < d.workers.length := (List.getElem?_eq_some_iff.1 hw).1
    refine ⟨id, _, hassign, hwired.tell _, rfl, ⟨?_, ?_, ?_⟩, ?_⟩
    · exact ⟨_, mem_connectedWorkers.2 ⟨id, List.getElem?_set_self hplace, hconnected⟩⟩
    · intro v hv
      obtain rfl | hv := mem_connected_withWorker hv
      · exact haccepting
      · exact hs.accepting v hv
    · intro v hv
      obtain rfl | hv := mem_connected_withWorker hv
      · exact htimes
      · exact hs.times v hv
    · have bears : ∀ v ∈ d.connectedWorkers, d.build.Bears v.exactLoad := fun v hv =>
        (Worker.hasLoad_iff.1 (hroom v hv)).1
      have bears' : ∀ v ∈ ((d.withWorker id (assignedTo w (job.withWorker id))).tell
          [.jobEnqueued (.worker id) job.internal]).connectedWorkers,
          d.build.Bears v.exactLoad := by
        intro v hv
        obtain rfl | hv := mem_connected_withWorker hv
        · exact hbears
        · exact bears v hv
      intro v hv u hu
      refine Worker.hasLoad_iff.2 ⟨bears' v hv, Worker.hasLoad_iff.2 ⟨bears' u hu, ?_⟩⟩
      have apart {v u : Worker} (hv : v ∈ d.connectedWorkers) (hu : u ∈ d.connectedWorkers) :
          v.load.toNat ≤ u.load.toNat + d.scheduling.slow.toNat :=
        (Worker.hasLoad_iff.1 (Worker.hasLoad_iff.1 (hlevel v hv u hu)).2).2
      obtain rfl | hv := mem_connected_withWorker hv <;>
        obtain rfl | hu := mem_connected_withWorker hu
      · exact Nat.le_add_right _ _
      · -- The worker chosen would be done no later than the other, which is within the slow time.
        have hlast := hfirst u hu
        have htime := serviceTime_le (hs.times u hu) hfast job.jobType
        omega
      · have hbefore := apart hv hmem
        omega
      · exact apart hv hu

theorem placeAll_concat (d : Directory) (jobs : List TrackedJob) (job : TrackedJob) :
    d.placeAll (jobs ++ [job]) =
      (((d.placeAll jobs).tryAssign job).toOption.map (·.1)).getD (d.placeAll jobs) :=
  List.foldl_concat ..

theorem Levelled.placeAll {s : Scheduling} (h : d.Levelled s) (hfast : s.fast ≤ s.slow)
    {jobs : List TrackedJob}
    (hroom : ∀ n < jobs.length, (d.placeAll (jobs.take n)).HasRoom s.slow) {n : Nat}
    (hn : n ≤ jobs.length) : (d.placeAll (jobs.take n)).Levelled s := by
  induction n with
  | zero => exact h
  | succ n ih =>
    have hjob : jobs[n]? = some jobs[n] := List.getElem?_eq_getElem hn
    obtain ⟨id, d', hassign, hlevelled⟩ :=
      (ih (Nat.le_of_lt hn)).place hfast (hroom n hn) jobs[n]
    rw [List.take_add_one, hjob, Option.toList_some, placeAll_concat, hassign]
    exact hlevelled

/-- Workers in service begin without jobs, and jobs are placed one after the other, as long as every
load has room for one more. Then each job is placed, and between any two jobs no two loads are
further apart than the slow time. -/
theorem loads_stay_level (hd : d.Wired) (hs : d.InService)
    (hidle : ∀ w ∈ d.connectedWorkers, w.outstanding = [])
    (hfast : d.scheduling.fast ≤ d.scheduling.slow) (jobs : List TrackedJob)
    (hroom : ∀ n < jobs.length, (d.placeAll (jobs.take n)).HasRoom d.scheduling.slow) :
    ∀ n ≤ jobs.length, (d.placeAll (jobs.take n)).Level d.scheduling.slow ∧
      ∀ job, jobs[n]? = some job → ∃ id, (d.placeAll (jobs.take n)).tryAssign job =
        .ok (d.placeAll (jobs.take (n + 1)), .ok id) := by
  have hnone : ∀ w ∈ d.connectedWorkers, w.totalLoad d.build = .ok 0 := by
    intro w hw
    rw [Worker.totalLoad, hidle w hw]
    rfl
  have hlevel : d.Level d.scheduling.slow := fun v hv w hw =>
    ⟨0, hnone v hv, 0, hnone w hw, Nat.zero_le _⟩
  have hstart : d.Levelled d.scheduling := ⟨hd, rfl, hs, hlevel⟩
  intro n hn
  have hlevelled := hstart.placeAll hfast hroom hn
  refine ⟨hlevelled.level, fun job hjob => ?_⟩
  have hlt := (List.getElem?_eq_some_iff.1 hjob).1
  obtain ⟨id, d', hassign, -⟩ := hlevelled.place hfast (hroom n hlt) job
  refine ⟨id, ?_⟩
  rw [List.take_add_one, hjob, Option.toList_some, placeAll_concat, hassign]
  rfl

end Directory

namespace System

/-- Three workers, two of one specialty and one of the other. -/
def rested : Directory :=
  ((start .checked { fast := 3 } 0).run
    [.workerJoins "" .a, .workerJoins "" .a, .workerJoins "" .b]).directory

/-- Of seven jobs that suit two of them, the last goes to the third, which then takes one that suits
it as well. -/
theorem loads_stay_level_mixed :
    let jobs := (List.replicate 7 JobType.a ++ [JobType.b]).map fun t =>
      TrackedJob.ofRequest 0 0 ⟨0, t, false, []⟩ 0
    (rested.placeAll jobs).connectedWorkers.map (·.totalLoad .checked) = [.ok 9, .ok 9, .ok 13] ∧
      (rested.placeAll jobs).Level 10 := by
  intro jobs
  have hs : rested.InService :=
    ⟨⟨_, List.mem_cons_self ..⟩, by decide, by decide⟩
  have hall := Directory.loads_stay_level (run_sound _ _ 0 _).1 hs (by decide) (by decide) jobs
    (by decide +kernel)
  exact ⟨by decide +kernel, (hall 8 (Nat.le_refl 8)).1⟩

end System
end JobBroker
