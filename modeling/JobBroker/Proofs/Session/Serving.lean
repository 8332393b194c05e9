import JobBroker.Proofs.Session.Outbound
import Mathlib.Logic.Relation

/-! The ways in which a session is driven: by what arrives, by jobs that are offered, by a peer that
reads and writes, and from its beginning to its end. Each is a run of acts, so that what holds of
all runs holds of them. -/
namespace JobBroker

namespace Connection
variable {c c' c'' : Connection}

/-- Whether acts lead from one state of a session to another. -/
def Reaches (c c' : Connection) : Prop :=
  ∀ j, ∃ acts j', Recorded.run ⟨c, j⟩ acts = ⟨c', j'⟩

theorem Reaches.refl (c : Connection) : c.Reaches c := fun j => ⟨[], j, rfl⟩

theorem Reaches.trans (h : c.Reaches c') (h' : c'.Reaches c'') : c.Reaches c'' := by
  intro j
  obtain ⟨acts, j', hrun⟩ := h j
  obtain ⟨more, j'', hmore⟩ := h' j'
  refine ⟨acts ++ more, j'', ?_⟩
  rw [Recorded.run_append, hrun, hmore]

theorem reaches_act (act : SessionAct)
    (h : ∀ j, Recorded.step ⟨c, j⟩ act = ⟨c', j⟩) : c.Reaches c' :=
  fun j => ⟨[act], j, h j⟩

theorem reaches_onItem (c : Connection) (item : Inbound) : c.Reaches (c.onItem item) :=
  reaches_act (.hears item) fun _ => rfl

theorem reaches_sendStep (h : c.sendStep = some c') : c.Reaches c' := by
  intro j
  refine ⟨[.sends], Recorded.noteStep j c c', ?_⟩
  have hsend : Recorded.send ⟨c, j⟩ = ⟨c', Recorded.noteStep j c c'⟩ := by
    simp only [Recorded.send, h]
  exact hsend

theorem reaches_sendMany (n : Nat) (c : Connection) : c.Reaches (sendMany n c) := by
  induction n generalizing c with
  | zero => exact .refl c
  | succ n ih =>
    rw [sendMany]
    split
    · exact .refl c
    · rename_i c' hstep
      split
      · exact reaches_sendStep hstep
      · exact (reaches_sendStep hstep).trans (ih c')

theorem reaches_send (c : Connection) : c.Reaches c.send := reaches_sendMany _ c

theorem reaches_enqueue {job : TrackedJob} (h : c.enqueue job = .ok c') : c.Reaches c' := by
  unfold enqueue at h
  split at h
  · cases h
  · rename_i q e htaken
    cases h
    refine Reaches.trans (fun j => ?_) (reaches_send _)
    have henqueue : Recorded.enqueue ⟨c, j⟩ job =
        ⟨(c.setOutbound q).emit e, { j with accepted := j.accepted ++ [job] }⟩ := by
      simp only [Recorded.enqueue, htaken]
    exact ⟨[.enqueues job], _, henqueue⟩

theorem reaches_reader (c : Connection) (reader : StreamReader) :
    c.Reaches { c with session := { c.session with reader := reader } } :=
  reaches_act (.reads reader) fun _ => rfl

theorem reaches_outlet (c : Connection) (o : Outlet) : c.Reaches { c with outlet := o } :=
  reaches_act (.turns o) fun _ => rfl

theorem reaches_items (items : List Inbound) (c : Connection) :
    c.Reaches (items.foldl onItem c) := by
  induction items generalizing c with
  | nil => exact .refl c
  | cons item items ih => exact (reaches_onItem c item).trans (ih (c.onItem item))

theorem reaches_onItems (c : Connection) : c.Reaches c.onItems :=
  (reaches_reader c _).trans (reaches_items _ _)

theorem reaches_receive (c : Connection) (bytes : Bytes) : c.Reaches (c.receive bytes) := by
  unfold receive
  split
  · exact .refl c
  · exact (reaches_reader c _).trans (reaches_onItems _)

theorem reaches_receiveEnd (c : Connection) : c.Reaches c.receiveEnd := by
  unfold receiveEnd
  split
  · exact .refl c
  · exact (reaches_reader c _).trans ((reaches_onItem _ _).trans (reaches_onItem _ _))

theorem reaches_meet (c : Connection) (ending : Ending) : c.Reaches (c.meet ending) := by
  cases ending with
  | unknown => exact .refl c
  | endOfStream => exact reaches_receiveEnd c
  | failure cause => exact reaches_act (.ends (.failed cause)) fun _ => rfl

theorem reaches_peerReadFrom (fuel : Nat) (done : Bytes) (c : Connection) :
    c.Reaches (peerReadFrom fuel done c).2 := by
  induction fuel generalizing done c with
  | zero => exact .refl c
  | succ fuel ih =>
    unfold peerReadFrom
    dsimp only
    split
    · exact reaches_outlet c _
    · exact ((reaches_outlet c _).trans (reaches_send _)).trans (ih _ _)

theorem reaches_receiveReads (reads : List Bytes) (consumed : Nat) (c : Connection) :
    c.Reaches (c.receiveReads consumed reads).1 := by
  induction reads generalizing consumed c with
  | nil => exact .refl c
  | cons read reads ih =>
    rw [receiveReads]
    split
    · exact .refl c
    · exact (reaches_receive c read).trans (ih _ _)

theorem reaches_peerWrite (c : Connection) (capacity : Nat) (bytes : Bytes) :
    c.Reaches (c.peerWrite capacity bytes).2 := by
  unfold peerWrite
  split
  · exact .refl c
  · exact reaches_receiveReads _ _ c

/-- What is done with a session: a job is offered and taken, bytes or the end of the peer's stream
arrive, the peer writes or reads, the session is ended, or the directory changes elsewhere. -/
inductive Turn : Connection → Connection → Prop
  | enqueues {c c' : Connection} (job : TrackedJob) (taken : c.enqueue job = .ok c') : Turn c c'
  | receives (c : Connection) (bytes : Bytes) : Turn c (c.receive bytes)
  | meets (c : Connection) (ending : Ending) : Turn c (c.meet ending)
  | peerWrites (c : Connection) (capacity : Nat) (bytes : Bytes) :
    Turn c (c.peerWrite capacity bytes).2
  | peerReads (c : Connection) : Turn c c.peerRead.2
  | ends (c : Connection) (ending : ReceiveEnd) : Turn c (c.finish ending)
  | elsewhere {c : Connection} {d : Directory} (agree : c.session.endpoint.Agree c.directory d) :
    Turn c { c with directory := d }

theorem Turn.reaches (h : Turn c c') : c.Reaches c' := by
  cases h with
  | enqueues job taken => exact reaches_enqueue taken
  | receives bytes => exact reaches_receive c bytes
  | meets ending => exact reaches_meet c ending
  | peerWrites capacity bytes => exact reaches_peerWrite c capacity bytes
  | peerReads => exact reaches_peerReadFrom _ [] c
  | ends ending => exact reaches_act (.ends ending) fun _ => rfl
  | elsewhere agree => exact reaches_act (.elsewhere _) fun _ => if_pos agree

theorem Reaches.turns (h : c.Reaches c') (turns : Relation.ReflTransGen Turn c' c'') :
    c.Reaches c'' := by
  induction turns with
  | refl => exact h
  | tail _ last ih => exact ih.trans last.reaches

variable {d : Directory} {endpoint : Endpoint} {p : Protocol} {a : Arrival} {reader : StreamReader}

end Connection

namespace Recorded

example :
    let job (internal : Nat) : TrackedJob :=
      .ofRequest internal 0 { id := 7, jobType := .a, succeeded := false, result := [] } 0
    let queue : JobQueue := { name := .worker 0, jobs := [job 1, job 2, job 3] }
    let s := (start {} (.worker 0) "peer" 100 (some queue) {} (.pipe 30 [])).run
      [.sends, .sends, .ends .shutdown]
    s.journal.noted = [job 1] ∧
      s.connection.session.report.map (·.unsent) = some [job 2, job 3] := by
  decide +kernel

end Recorded
end JobBroker
