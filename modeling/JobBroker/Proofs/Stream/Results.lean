import JobBroker.Endpoint
import JobBroker.Routing
import JobBroker.Scheduler
import JobBroker.Proofs.Job.Report
import JobBroker.Proofs.Stream.Limits

/-! Which results can be brought back to their requesters. The broker takes a result in the chunks
of the worker and sends it on in its own, so a result that came in may be too long to go out. -/
namespace JobBroker

theorem Packet.length_message_lt (p : Packet) : p.message.length < p.body.length := by
  rw [body, List.length_append, List.length_cons]
  omega

namespace TrackedJob

/-- The outcome of the job is written to its requester's connection, and the requester reads one
message, which is about the job that it asked for and has exactly its outcome. -/
def Arrives (job : TrackedJob) (requester chunkSize : Nat) : Prop :=
  ∃ message,
    ((Endpoint.requester requester).render job).1.Arrives
      ((Endpoint.requester requester).render job).2 chunkSize message ∧
    Job.ofResult message = .ok
      { id := job.requestId, jobType := job.jobType, succeeded := job.succeeded,
        result := job.result }

def reports (job : TrackedJob) (chunkSize : Nat) : List Packet :=
  messagePackets job.deliveryJob.resultTemplate job.result chunkSize

variable (job : TrackedJob) (requester chunkSize : Nat)

theorem arrives_iff_message : job.Arrives requester chunkSize ↔
    ∃ message, job.deliveryJob.resultTemplate.Arrives job.result chunkSize message := by
  constructor
  · rintro ⟨message, harrives, -⟩
    exact ⟨message, harrives⟩
  · rintro ⟨message, harrives⟩
    have hfew := Packet.few_of_arrives harrives
    obtain ⟨count, written, hsend, -⟩ := harrives
    have hencodes := (Outlet.sendMessage_ok_iff.1 hsend).1
    exact ⟨_, Packet.arrives_of_few job.deliveryJob.unplaced_resultTemplate hfew hencodes,
      job.deliveryJob.ofResult_report⟩

theorem arrives_iff_reports : job.Arrives requester chunkSize ↔
    (∀ p ∈ job.reports chunkSize, p.body.length ≤ maxBody) ∧
      job.result.length ≤ maxMessagePackets * max chunkSize 1 :=
  (job.arrives_iff_message requester chunkSize).trans
    (Packet.arrives_iff job.deliveryJob.unplaced_resultTemplate
      job.deliveryJob.isClean_resultTemplate)

theorem length_reports_le (hfew : job.result.length ≤ maxMessagePackets * max chunkSize 1)
    {p : Packet} (hp : p ∈ job.reports chunkSize) :
    p.body.length ≤ min job.result.length (max chunkSize 1) + 110 :=
  job.deliveryJob.length_body_le ((length_chunks_le_iff _ _ _).2 hfew) hp

theorem not_arrives_of_large {job : TrackedJob} {requester chunkSize : Nat}
    (h : maxBody ≤ min job.result.length (max chunkSize 1)) :
    ¬ job.Arrives requester chunkSize := by
  have hmax : 0 < maxBody := by decide
  intro harrives
  have hfits := ((job.arrives_iff_reports requester chunkSize).1 harrives).1
  -- The first packet has a full chunk, and its header takes at least one more byte.
  obtain ⟨b, rest, hresult⟩ : ∃ b rest, job.result = b :: rest :=
    List.exists_cons_of_length_pos (by omega)
  have hfirst : job.deliveryJob.resultTemplate.stamped (chunks chunkSize job.result).length 0
      (job.result.take (max chunkSize 1)) ∈ job.reports chunkSize := by
    rw [reports, messagePackets_eq _ (by simp [hresult]), hresult, chunks_cons, List.mapIdx_cons]
    exact List.mem_cons_self ..
  have hsize := hfits _ hfirst
  have hmessage := Packet.length_message_lt
    (job.deliveryJob.resultTemplate.stamped (chunks chunkSize job.result).length 0
      (job.result.take (max chunkSize 1)))
  have hchunk : (job.deliveryJob.resultTemplate.stamped (chunks chunkSize job.result).length 0
      (job.result.take (max chunkSize 1))).message.length =
        min (max chunkSize 1) job.result.length := List.length_take
  omega

theorem not_arrives_of_many {job : TrackedJob} {requester chunkSize : Nat}
    (h : maxMessagePackets * max chunkSize 1 < job.result.length) :
    ¬ job.Arrives requester chunkSize := fun harrives =>
  Nat.not_le.2 h ((job.arrives_iff_reports requester chunkSize).1 harrives).2

/-- The outcome of a job arrives exactly if no packet of it is too large and there are not too many
of them. A chunk that is 110 bytes below the largest body is never too large. -/
theorem outcome_arrives_iff :
    (job.Arrives requester chunkSize ↔
      (∀ p ∈ job.reports chunkSize, p.body.length ≤ maxBody) ∧
        job.result.length ≤ maxMessagePackets * max chunkSize 1) ∧
    (job.result.length ≤ maxMessagePackets * max chunkSize 1 →
      min job.result.length (max chunkSize 1) + 110 ≤ maxBody →
      job.Arrives requester chunkSize) := by
  have hiff := job.arrives_iff_reports requester chunkSize
  refine ⟨hiff, fun hfew hshort => hiff.2 ⟨fun p hp => ?_, hfew⟩⟩
  exact Nat.le_trans (job.length_reports_le chunkSize hfew hp) hshort

theorem outcome_arrives_bytewise :
    ({ internal := 0, requestId := 5, jobType := .a, requester := 0, succeeded := true,
       result := [79, 75] } : TrackedJob).Arrives 0 1 :=
  (outcome_arrives_iff _ 0 1).2 (by decide) (by decide)

end TrackedJob

namespace Directory

def busy : Directory :=
  let d := (registerWorker {} "worker" .a).2
  let d := (d.registerRequester "requester").2
  let d := (d.submit 0 { id := 5, jobType := .a }).1
  ((Scheduler.settle {} d).toOption.map (·.2)).getD d

theorem busy_eq :
    let job : TrackedJob :=
      { internal := 0, requestId := 5, jobType := .a, requester := 0, worker := some 0 }
    busy =
      { ids := ⟨1, 1, 1⟩
        requesters :=
          [{ id := 0, peer := "requester", results := { name := .requester 0 }, requested := 1 }]
        workers :=
          [{ id := 0, peer := "worker", specialty := .a, scheduling := {},
             jobs := { name := .worker 0, jobs := [job] }, outstanding := [job] }]
        owners := [(0, ⟨0, 5, .a⟩)]
        log :=
          [.jobEnqueued (.worker 0) 0, .jobDequeued .requests 0, .jobEnqueued .requests 0,
            .requesterAdded 0 "requester", .workerAdded 0 "worker" .a] } := by
  decide +kernel

/-- With a chunk size that the settings allow, a result is lost that its worker could send in chunks
of the usual size, and that was taken from the worker and routed to the requester. -/
def Loses (chunkSize : UInt64) (result : Bytes) : Prop :=
  Settings.validate { protocol := { chunkSize := chunkSize } } = .ok () ∧
  ∃ message,
    Packet.Arrives
      ({ id := 0, jobType := .a, succeeded := true, result := result } : Job).resultTemplate
      result defaultChunkSize message ∧
    (busy.onWorkerMessage 0 message).2 = .ok () ∧
    ∃ job,
      ((busy.onWorkerMessage 0 message).1.routeAll.requester? 0).map (·.results.jobs) =
        some [job] ∧
      job.result = result ∧ ¬ job.Arrives 0 chunkSize.toNat

theorem loses_of {chunkSize : UInt64} {result : Bytes} (hchunk : chunkSize ≠ 0)
    (hlength : result.length ≤ maxMessagePackets * defaultChunkSize)
    (hlost : ∀ job : TrackedJob, job.result = result → ¬ job.Arrives 0 chunkSize.toNat) :
    Loses chunkSize result := by
  let report : Job := { id := 0, jobType := .a, succeeded := true, result := result }
  let job : TrackedJob :=
    { internal := 0, requestId := 5, jobType := .a, requester := 0, worker := some 0,
      succeeded := true, result := result }
  have hdefault : defaultChunkSize = 100 := rfl
  have hbody : maxBody = 1048576 := rfl
  have hfew : (chunks defaultChunkSize report.result).length ≤ maxMessagePackets :=
    (length_chunks_le_iff ..).2 hlength
  have hencodes : ∀ p ∈ messagePackets report.resultTemplate report.result defaultChunkSize,
      ∃ bytes, p.encode = .ok bytes := by
    intro p hp
    have hsize := report.length_body_le hfew hp
    exact (report.isClean_resultTemplate.messagePackets hp).encodes_iff.2 (by omega)
  have hvalid : Settings.validate { protocol := { chunkSize := chunkSize } } = .ok () := by
    simp only [Settings.validate, hchunk, if_false]
    rfl
  refine ⟨hvalid, _, Packet.arrives_of_few report.unplaced_resultTemplate hfew hencodes, ?_⟩
  rw [onWorkerMessage, report.ofResult_report, busy_eq]
  exact ⟨rfl, job, rfl, rfl, hlost job rfl⟩

end Directory

/-- Small chunks lose a result by the number of its packets, and large ones by their size. -/
theorem Directory.outcomes_lost :
    Loses 1 (List.replicate 65537 120) ∧ Loses 1048576 (List.replicate 1048576 120) := by
  have hdefault : maxMessagePackets * defaultChunkSize = 6553600 := rfl
  have hlimit : maxMessagePackets = 65536 := rfl
  have hbody : maxBody = 1048576 := rfl
  have hsmall : (1 : UInt64).toNat = 1 := rfl
  have hlarge : (1048576 : UInt64).toNat = 1048576 := rfl
  constructor
  · refine loses_of (by decide) (by rw [List.length_replicate, hdefault]; decide) ?_
    intro job hresult
    refine TrackedJob.not_arrives_of_many ?_
    rw [hresult, List.length_replicate, hlimit, hsmall]
    decide
  · refine loses_of (by decide) (by rw [List.length_replicate, hdefault]; decide) ?_
    intro job hresult
    refine TrackedJob.not_arrives_of_large ?_
    rw [hresult, List.length_replicate, hbody, hlarge]
    decide

end JobBroker
