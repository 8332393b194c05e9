import JobBroker.Proofs.Run.Move

/-! A job is placed in one step. The search for a worker goes over the workers connected at its
start and goes on after a refusal; but those who take jobs do not refuse them, so that the first
choice stands. Nothing changes except with the worker chosen, which has the job on both of its
lists; its load goes up by the time of the job as far as that can be reckoned in 64 bits. -/
namespace JobBroker

theorem Scheduling.serviceTime_le {s : Scheduling} (h : s.fast ≤ s.slow)
    (specialty jobType : JobType) : (s.serviceTime specialty jobType).toNat ≤ s.slow.toNat := by
  rw [serviceTime]
  split
  · exact UInt64.le_iff_toNat_le.1 h
  · exact Nat.le_refl _

namespace Directory
variable {d : Directory}

theorem totalLoad_assignedTo {w : Worker} {build : Build} {load : UInt64}
    (h : w.totalLoad build = .ok load) (job : TrackedJob) :
    (assignedTo w job).totalLoad build = build.add load (w.serviceTime job.jobType) := by
  rw [Worker.totalLoad, Build.sum] at h ⊢
  rw [assignedTo_outstanding, List.map_append]
  exact Build.sumFrom_concat h

theorem exists_totalLoad (hfits : ¬ d.Overloaded) {w : Worker} (hw : w ∈ d.connectedWorkers)
    (haccepting : w.isAccepting = true) :
    w.totalLoad d.build = .ok w.load := by
  have hbears :=
    Classical.not_not.1 (mt overloaded_iff.2 hfits) w (mem_accepting.2 ⟨hw, haccepting⟩)
  rw [Worker.totalLoad_eq, if_pos hbears]

/-- Placing a job fails exactly if a worker that takes jobs has more to do than can be reckoned.
Otherwise the job comes back as it was, with nothing changed, exactly if no connected worker takes
jobs; and if one does, one of those that do has it: the job, stamped with the worker's number, is at
the end of its outstanding jobs and of its queue, which tells so, and all else is as it was. The
time of the job is added to the worker's load, which is exact just if the sum fits into 64 bits. -/
theorem placement_atomic (hd : d.Wired) (job : TrackedJob) :
    (d.Overloaded ∧ d.tryAssign job = .error .addOverflow) ∨
    ¬ d.Overloaded ∧ ∃ after outcome, d.tryAssign job = .ok (after, outcome) ∧
      (outcome = .error job ↔ ∀ w ∈ d.connectedWorkers, w.isAccepting = false) ∧
      (∀ back, outcome = .error back → back = job ∧ after = d) ∧
      ∀ id, outcome = .ok id → ∃ w load, d.workers[id]? = some w ∧ w.connected = true ∧
        w.isAccepting = true ∧
        after = (d.withWorker id (assignedTo w (job.withWorker id))).tell
          [.jobEnqueued (.worker id) job.internal] ∧
        w.totalLoad d.build = .ok load ∧
        (assignedTo w (job.withWorker id)).totalLoad d.build =
          d.build.add load (w.serviceTime job.jobType) ∧
        ((∃ load', (assignedTo w (job.withWorker id)).totalLoad d.build = .ok load' ∧
            load'.toNat = load.toNat + (w.serviceTime job.jobType).toNat) ↔
          load.toNat + (w.serviceTime job.jobType).toNat ≤ Decimal.maxWord) := by
  cases placed hd job with
  | panics overloaded result => exact .inl ⟨overloaded, result⟩
  | returns nobody result =>
    refine .inr ⟨not_overloaded_of_nobody nobody, _, _, result, iff_of_true rfl nobody,
      fun back hback => ?_, nofun⟩
    cases hback
    exact ⟨rfl, rfl⟩
  | assigns fits id w place connected accepts chosen result =>
    have hmem := mem_connectedWorkers.2 ⟨id, place, connected⟩
    have hsome : ¬ ∀ w ∈ d.connectedWorkers, w.isAccepting = false := by
      intro hnobody
      rw [hnobody w hmem] at accepts
      cases accepts
    refine .inr ⟨fits, _, _, result, iff_of_false nofun hsome, nofun, fun id' hid => ?_⟩
    cases hid
    have hload := exists_totalLoad fits hmem accepts
    have hadd := totalLoad_assignedTo hload (job.withWorker id)
    refine ⟨w, _, place, connected, accepts, rfl, hload, hadd, ?_⟩
    rw [hadd]
    exact d.build.add_exact_iff _ _

end Directory

namespace System

/-- Four workers. The first takes no more jobs, the second has left, the third has a job and the
fourth, of the other specialty, has none. -/
def mixed : Directory :=
  ((start .checked {} 0).run [.requesterJoins "", .workerJoins "" .a, .workerJoins "" .a,
    .workerJoins "" .a, .workerJoins "" .b, .submits 0 ⟨0, .a, false, []⟩,
    .submits 0 ⟨1, .a, false, []⟩, .submits 0 ⟨2, .a, false, []⟩, .schedules, .schedules,
    .schedules, .stops (.worker 0), .leaves (.worker 1)]).directory

/-- The third of them gets the next job of its kind. -/
theorem placement_atomic_mixed :
    let job := TrackedJob.ofRequest 3 0 ⟨3, .a, false, []⟩ 0
    mixed.Wired ∧ ∃ w, mixed.workers[2]? = some w ∧
      mixed.tryAssign job =
        .ok ((mixed.withWorker 2 (Directory.assignedTo w (job.withWorker 2))).tell
          [.jobEnqueued (.worker 2) 3], .ok 2) ∧
      (Directory.assignedTo w (job.withWorker 2)).totalLoad .checked = .ok 4 := by
  intro job
  have hwired : mixed.Wired := (run_sound .checked {} 0 _).1
  have hchosen : (mixed.tryAssign job).map (fun p =>
      (p.2, p.1.workers.map (·.totalLoad .checked))) =
      .ok (.ok 2, [.ok 2, .ok 0, .ok 4, .ok 0]) := by decide +kernel
  obtain ⟨-, hpanic⟩ | ⟨-, after, outcome, hassign, -, -, hgiven⟩ :=
    Directory.placement_atomic hwired job
  · rw [hpanic] at hchosen
    cases hchosen
  · rw [hassign] at hchosen
    obtain ⟨hid, hloads⟩ := Prod.mk.inj (Except.ok.inj hchosen)
    dsimp only at hid hloads
    obtain ⟨w, load, hw, -, -, hafter, -⟩ := hgiven 2 hid
    refine ⟨hwired, w, hw, ?_, ?_⟩
    · rw [hassign, hid, hafter]
      rfl
    · have hplace := (List.getElem?_eq_some_iff.1 hw).1
      have hthird : (after.workers.map (·.totalLoad .checked))[2]? = some (.ok 4) := by
        rw [hloads]
        rfl
      rw [hafter, Directory.tell, Directory.withWorker, List.getElem?_map,
        List.getElem?_set_self hplace] at hthird
      exact Option.some.inj hthird

/-- A worker with two jobs, each of which takes it as long as a configuration file can say. -/
def burdened (build : Build) : Directory :=
  ((start build { slow := 9223372036854775807 } 0).run [.requesterJoins "", .workerJoins "" .b,
    .submits 0 ⟨1, .a, false, []⟩, .submits 0 ⟨2, .a, false, []⟩, .schedules, .schedules]).directory

/-- What placing a job leaves behind: to whom it went, and how many jobs and which load each worker
has. -/
def leaving (d : Directory) (job : TrackedJob) :
    Except Panic (Except TrackedJob Nat × List (Nat × Except Panic UInt64)) :=
  (d.tryAssign job).map fun p =>
    (p.2, p.1.workers.map fun w => (w.outstanding.length, w.totalLoad d.build))

/-- A third such job goes to the same worker. With checks its load cannot be reckoned any more, and
without them it is less than it was before. -/
theorem placement_lowers_load :
    let job := TrackedJob.ofRequest 2 0 ⟨3, .a, false, []⟩ 0
    (burdened .checked).workers.map (·.totalLoad .checked) = [.ok 18446744073709551614] ∧
    leaving (burdened .checked) job = .ok (.ok 0, [(3, .error .addOverflow)]) ∧
    (burdened .wrapping).workers.map (·.totalLoad .wrapping) = [.ok 18446744073709551614] ∧
    leaving (burdened .wrapping) job = .ok (.ok 0, [(3, .ok 9223372036854775805)]) := by
  decide +kernel

end System
end JobBroker
