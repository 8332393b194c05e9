import JobBroker.Proofs.Run.Effects
import JobBroker.Session.Basic

/-! The sending half of a connection: its queue, its outlet, the job that is being written and what
became of the jobs before it. Messages that come in leave all of it as it is, and a step of sending
changes it in one of four ways. -/
namespace JobBroker

namespace Outlet

theorem write_cases (o : Outlet) (bytes : Bytes) :
    ∃ front back, bytes = front ++ back ∧ (o.write bytes).2.held = o.held ++ front ∧
      ((back = [] ∧ (o.write bytes).1 = .all) ∨ (o.write bytes).1 = .blocked back ∨
        ∃ cause, (o.write bytes).1 = .broken cause) := by
  cases o with
  | pipe capacity unread =>
    refine ⟨bytes.take (capacity - unread.length), bytes.drop (capacity - unread.length),
      (List.take_append_drop ..).symm, rfl, ?_⟩
    rw [write]
    split
    · exact .inl ⟨List.isEmpty_iff.1 ‹_›, rfl⟩
    · exact .inr (.inl rfl)
  | sink room taken =>
    cases room with
    | none => exact ⟨bytes, [], (List.append_nil bytes).symm, rfl, .inl ⟨rfl, rfl⟩⟩
    | some room =>
      refine ⟨bytes.take (room - taken.length), bytes.drop (room - taken.length),
        (List.take_append_drop ..).symm, rfl, ?_⟩
      rw [write]
      split
      · exact .inl ⟨List.isEmpty_iff.1 ‹_›, rfl⟩
      · exact .inr (.inr ⟨_, rfl⟩)
  | buffer flushed taken =>
    exact ⟨bytes, [], (List.append_nil bytes).symm, rfl, .inl ⟨rfl, rfl⟩⟩

/-- The outlet fails under these bytes, when it takes them or when they are flushed. -/
def Breaks (o : Outlet) (bytes : Bytes) : Prop :=
  ∃ cause, (o.write bytes).1 = .broken cause ∨
    ((o.write bytes).1 = .all ∧ (o.write bytes).2.flush = .broken cause)

end Outlet

namespace Endpoint

/-- What goes out for a job, if it can be encoded. -/
def Encodes (peer : Endpoint) (chunkSize : Nat) (job : TrackedJob) (wire : Bytes) : Prop :=
  ∃ pieces, encodeMessage (peer.render job).1 (peer.render job).2 chunkSize = .ok pieces ∧
    wire = pieces.flatten

def counted (peer : Endpoint) (d : Directory) : Option Nat :=
  match peer with
  | worker _ => none
  | requester id => d.requesters[id]?.map (·.completed)

theorem queue_setQueue (peer : Endpoint) (d : Directory) (q : JobQueue) :
    peer.queue (peer.setQueue d q) = q ∨
      (peer.queue d = noQueue ∧ peer.queue (peer.setQueue d q) = noQueue) := by
  cases peer with
  | worker id =>
    cases hw : d.workers[id]? with
    | none => exact .inr (by simp [queue, setQueue, hw])
    | some w => exact .inl (by simp [queue, setQueue, hw])
  | requester id =>
    cases hr : d.requesters[id]? with
    | none => exact .inr (by simp [queue, setQueue, hr])
    | some r => exact .inl (by simp [queue, setQueue, hr])

theorem counted_setQueue (peer : Endpoint) (d : Directory) (q : JobQueue) :
    peer.counted (peer.setQueue d q) = peer.counted d := by
  cases peer with
  | worker id => rfl
  | requester id =>
    simp only [counted, setQueue, List.getElem?_modify]
    cases d.requesters[id]? <;> simp

/-- Whether two directories agree on the queue of a peer and on what was written to it. -/
def Agree (peer : Endpoint) (d d' : Directory) : Prop :=
  peer.queue d' = peer.queue d ∧ peer.counted d' = peer.counted d

instance (peer : Endpoint) (d d' : Directory) : Decidable (peer.Agree d d') :=
  inferInstanceAs (Decidable (_ ∧ _))

theorem Agree.trans {peer : Endpoint} {d d' d'' : Directory} (h : peer.Agree d d')
    (h' : peer.Agree d' d'') : peer.Agree d d'' :=
  ⟨h'.1.trans h.1, h'.2.trans h.2⟩

theorem agree_emit (peer : Endpoint) (d : Directory) (e : Event) : peer.Agree d (d.emit e) := by
  cases peer <;> exact ⟨rfl, rfl⟩

theorem agree_emitAll (peer : Endpoint) (d : Directory) (es : List Event) :
    peer.Agree d (d.emitAll es) := by
  induction es generalizing d with
  | nil => exact ⟨rfl, rfl⟩
  | cons e es ih => exact (peer.agree_emit d e).trans (ih (d.emit e))

theorem jobs_complete {w w' : Worker} {internal : Nat} {succeeded : Bool} {result : Bytes}
    {job : TrackedJob} (h : w.complete internal succeeded result = some (job, w')) :
    w'.jobs = w.jobs := by
  unfold Worker.complete at h
  split at h <;> cases h
  rfl

theorem queue_complete (id : Nat) (d : Directory) (report : Job) :
    (worker id).queue (d.complete id report).1 = (worker id).queue d := by
  unfold Directory.complete
  split
  · rfl
  · rename_i job w hfound
    obtain ⟨old, hold, hcomplete⟩ := Option.bind_eq_some_iff.1 hfound
    have hjobs := jobs_complete hcomplete
    have hset : (worker id).queue (d.setWorker w) = (worker id).queue d := by
      simp only [queue, Directory.setWorker, List.getElem?_set]
      by_cases hid : w.id = id
      · obtain ⟨hlt, rfl⟩ := List.getElem?_eq_some_iff.1 hold
        simp [hid, hlt, hjobs]
      · simp [hid]
    dsimp only
    split <;> exact hset

theorem agree_onWorkerMessage (id : Nat) (d : Directory) (p : Packet) :
    (worker id).Agree d (d.onWorkerMessage id p).1 := by
  refine ⟨?_, rfl⟩
  unfold Directory.onWorkerMessage
  split
  · rfl
  · rename_i report _
    have hqueue := queue_complete id d report
    split
    · rename_i hcomplete
      rwa [hcomplete] at hqueue
    · rename_i hcomplete
      rwa [hcomplete] at hqueue

theorem agree_submit (id : Nat) (d : Directory) (request : Job) :
    (requester id).Agree d (d.submit id request).1 := by
  unfold Directory.submit
  dsimp only
  split
  · exact ⟨rfl, rfl⟩
  · simp only [Agree, queue, counted, Directory.modifyRequester, Directory.emit,
      List.getElem?_modify]
    cases d.requesters[id]? with
    | none => exact ⟨rfl, rfl⟩
    | some r => simp [Requester.recordRequest]

theorem agree_onRequesterMessage (id : Nat) (d : Directory) (p : Packet) :
    (requester id).Agree d (d.onRequesterMessage id p).1 := by
  unfold Directory.onRequesterMessage
  split
  · exact ⟨rfl, rfl⟩
  · rename_i request _
    have hagree := agree_submit id d request
    split
    · rename_i hsubmit
      rwa [hsubmit] at hagree
    · rename_i hsubmit
      rwa [hsubmit] at hagree

theorem agree_onMessage (peer : Endpoint) (d : Directory) (p : Packet) :
    peer.Agree d (d.onMessage peer p).1 := by
  cases peer with
  | worker id => exact agree_onWorkerMessage id d p
  | requester id => exact agree_onRequesterMessage id d p

end Endpoint

structure Sending where
  endpoint : Endpoint
  chunkSize : Nat
  queue : JobQueue
  outlet : Outlet
  inFlight : Option (TrackedJob × Bytes)
  failed : Option TrackedJob
  sent : Nat
  report : Option SessionReport
  counted : Option Nat
  /-- Whether the queue is kept apart from the directory. -/
  apart : Bool

namespace Sending

def unsent (v : Sending) : List TrackedJob :=
  match v.report with
  | some report => report.unsent
  | none => v.failed.toList ++ (v.inFlight.map (·.1)).toList ++ v.queue.jobs

/-- The job that the next step of sending is about. -/
def inHand (v : Sending) : Option TrackedJob := (v.inFlight.map (·.1)).or v.queue.jobs.head?

/-- What can become of a job once the outlet has taken all of its bytes but `back`. -/
inductive Wrote (v : Sending) (job : TrackedJob) (back : Bytes) : Sending → Prop
  | whole (nothing : back = []) :
    Wrote v job back
      { v with inFlight := none, sent := v.sent + 1, counted := v.counted.map (· + 1) }
  | stalls : Wrote v job back { v with inFlight := some (job, back) }
  | breaks :
    Wrote v job back { v with queue := v.queue.close, inFlight := none, failed := some job }

theorem Wrote.outlet {v v' : Sending} {job : TrackedJob} {back : Bytes} (h : v.Wrote job back v') :
    v'.outlet = v.outlet := by
  cases h <;> rfl

/-- A step of sending, by which the bytes `front` of a job reach the outlet: it goes on with the job
that is being written, or begins the next, if that can be encoded. -/
inductive Sends (v : Sending) (job : TrackedJob) : Bytes → Sending → Prop
  | goesOn {front back : Bytes} {o : Outlet} {v' : Sending}
      (hand : v.inFlight = some (job, front ++ back))
      (wrote : Wrote { v with outlet := o } job back v') : Sends v job front v'
  | begins {rest : List TrackedJob} {front back : Bytes} {o : Outlet} {v' : Sending}
      (idle : v.inFlight = none) (next : v.queue.jobs = job :: rest)
      (encodes : v.endpoint.Encodes v.chunkSize job (front ++ back))
      (wrote : Wrote { v with queue := v.queue.withJobs rest, outlet := o } job back v') :
    Sends v job front v'
  | givesUp {rest : List TrackedJob} (idle : v.inFlight = none)
      (next : v.queue.jobs = job :: rest) :
    Sends v job []
      { v with queue := (v.queue.withJobs rest).close, inFlight := none, failed := some job }

end Sending

namespace Connection

def sending (c : Connection) : Sending where
  endpoint := c.session.endpoint
  chunkSize := c.session.chunkSize
  queue := c.outbound
  outlet := c.outlet
  inFlight := c.session.inFlight
  failed := c.session.failed
  sent := c.session.sent
  report := c.session.report
  counted := c.session.endpoint.counted c.directory
  apart := c.session.ownQueue.isSome

theorem sending_agree {c : Connection} {d : Directory}
    (h : c.session.endpoint.Agree c.directory d) :
    { c with directory := d }.sending = c.sending := by
  obtain ⟨hqueue, hcounted⟩ := h
  have houtbound : { c with directory := d }.outbound = c.outbound := by
    unfold outbound
    cases c.session.ownQueue with
    | some q => rfl
    | none => exact hqueue
  simp only [sending, houtbound, hcounted]

theorem sending_emit (c : Connection) (e : Event) : (c.emit e).sending = c.sending :=
  sending_agree (c.session.endpoint.agree_emit c.directory e)

theorem sending_discard (c : Connection) : c.discard.sending = c.sending :=
  sending_emit _ _

theorem sending_onMessage (c : Connection) (p : Packet) : (c.onMessage p).sending = c.sending := by
  have hagree := c.session.endpoint.agree_onMessage c.directory p
  have hheard := sending_agree hagree
  unfold onMessage
  dsimp only
  split
  · rename_i d hd
    rw [hd] at hheard
    exact hheard
  · rename_i d e hd
    rw [hd] at hheard
    rw [sending_discard]
    exact hheard

theorem sending_setOutbound {c : Connection} {q : JobQueue}
    (h : c.outbound = Endpoint.noQueue → q = Endpoint.noQueue) :
    (c.setOutbound q).sending = { c.sending with queue := q } := by
  unfold setOutbound
  cases hown : c.session.ownQueue with
  | some own => simp only [sending, outbound, hown, Option.isSome_some]
  | none =>
    have hcounted := c.session.endpoint.counted_setQueue c.directory q
    have hqueue :
        { c with directory := c.session.endpoint.setQueue c.directory q }.outbound = q := by
      simp only [outbound, hown] at h ⊢
      obtain hknown | ⟨hunknown, hstill⟩ := c.session.endpoint.queue_setQueue c.directory q
      · exact hknown
      · rw [hstill, h hunknown]
    simp only [sending, hqueue, hcounted]

/-! The operations of sending. -/

theorem close_noQueue : Endpoint.noQueue.close = Endpoint.noQueue := rfl

theorem agree_onSent (c : Connection) :
    c.session.endpoint.queue (c.directory.onSent c.session.endpoint) =
        c.session.endpoint.queue c.directory ∧
      c.session.endpoint.counted (c.directory.onSent c.session.endpoint) =
        (c.session.endpoint.counted c.directory).map (· + 1) := by
  cases c.session.endpoint with
  | worker id => exact ⟨rfl, rfl⟩
  | requester id =>
    simp only [Endpoint.queue, Endpoint.counted, Directory.onSent, Directory.modifyRequester,
      List.getElem?_modify]
    cases c.directory.requesters[id]? with
    | none => exact ⟨rfl, rfl⟩
    | some r => simp [Requester.recordDelivery]

theorem sending_noteSent (c : Connection) :
    c.noteSent.sending =
      { c.sending with
        inFlight := none
        sent := c.sending.sent + 1
        counted := c.sending.counted.map (· + 1) } := by
  obtain ⟨hqueue, hcounted⟩ := agree_onSent c
  have houtbound : c.noteSent.outbound = c.outbound := by
    unfold outbound noteSent
    dsimp only
    split
    · rfl
    · exact hqueue
  simp only [sending, houtbound]
  simp only [noteSent, hcounted]

theorem sending_failSending (c : Connection) (job : TrackedJob) :
    (c.failSending job).sending =
      { c.sending with queue := c.outbound.close, inFlight := none, failed := some job } := by
  have hclosed : (c.setOutbound c.outbound.close).sending =
      { c.sending with queue := c.outbound.close } :=
    sending_setOutbound fun hnone => by rw [hnone, close_noQueue]
  have hfailed : (c.failSending job).sending =
      { (c.setOutbound c.outbound.close).sending with inFlight := none, failed := some job } := rfl
  rw [hfailed, hclosed]

theorem sending_flushJob (c : Connection) (job : TrackedJob) :
    c.sending.Wrote job [] (c.flushJob job).sending := by
  rw [flushJob]
  split
  · rw [sending_noteSent]
    exact .whole rfl
  · exact .stalls
  · rw [sending_failSending]
    exact .breaks

theorem sending_writeJob (c : Connection) (job : TrackedJob) (bytes : Bytes) :
    ∃ front back o, bytes = front ++ back ∧ o.held = c.outlet.held ++ front ∧
      { c.sending with outlet := o }.Wrote job back (c.writeJob job bytes).sending := by
  obtain ⟨front, back, hbytes, hheld, hwritten⟩ := c.outlet.write_cases bytes
  refine ⟨front, back, (c.outlet.write bytes).2, hbytes, hheld, ?_⟩
  unfold writeJob
  dsimp only
  obtain ⟨hnothing, hall⟩ | hblocked | ⟨cause, hbroken⟩ := hwritten
  · subst hnothing
    rw [hall]
    exact sending_flushJob { c with outlet := (c.outlet.write bytes).2 } job
  · rw [hblocked]
    exact .stalls
  · rw [hbroken]
    dsimp only
    rw [sending_failSending]
    exact .breaks

theorem sending_startJob (c : Connection) (job : TrackedJob) :
    (∃ front back o, c.sending.endpoint.Encodes c.sending.chunkSize job (front ++ back) ∧
      o.held = c.sending.outlet.held ++ front ∧
      { c.sending with outlet := o }.Wrote job back (c.startJob job).sending) ∨
    (c.startJob job).sending =
      { c.sending with queue := c.sending.queue.close, inFlight := none, failed := some job } := by
  unfold startJob
  dsimp only
  split
  · exact .inr (sending_failSending c job)
  · rename_i pieces hpieces
    obtain ⟨front, back, o, hbytes, hheld, hwrote⟩ := c.sending_writeJob job pieces.flatten
    exact .inl ⟨front, back, o, ⟨pieces, hpieces, hbytes.symm⟩, hheld, hwrote⟩

theorem sending_dequeue {c : Connection} {q : JobQueue} {job : TrackedJob} {e : Event}
    (h : c.outbound.tryDequeue = some (job, q, e)) :
    ∃ rest, c.outbound.jobs = job :: rest ∧
      ((c.setOutbound q).emit e).sending =
        { c.sending with queue := c.outbound.withJobs rest } := by
  unfold JobQueue.tryDequeue at h
  split at h
  · cases h
  · rename_i rest hjobs
    cases h
    refine ⟨rest, hjobs, ?_⟩
    rw [sending_emit, sending_setOutbound]
    · rfl
    · intro hnone
      rw [hnone] at hjobs
      cases hjobs

theorem isOver_eq_false_iff (c : Connection) : c.isOver = false ↔ c.session.report = none := by
  rw [isOver, Option.isSome_eq_false_iff, Option.isNone_iff_eq_none]

theorem sendStep_sends {c c' : Connection} (h : c.sendStep = some c') :
    c.session.report = none ∧ c.session.failed = none ∧ ∃ job front,
      c.sending.inHand = some job ∧ c'.outlet.held = c.outlet.held ++ front ∧
        c.sending.Sends job front c'.sending := by
  unfold sendStep at h
  split at h
  · cases h
  rename_i hactive
  rw [Bool.or_eq_true, not_or, Bool.not_eq_true, Bool.not_eq_true, isOver_eq_false_iff,
    Option.isSome_eq_false_iff, Option.isNone_iff_eq_none] at hactive
  obtain ⟨hopen, hwell⟩ := hactive
  refine ⟨hopen, hwell, ?_⟩
  split at h
  · rename_i job rest hhand
    cases h
    obtain ⟨front, back, o, rfl, hheld, hwrote⟩ := c.sending_writeJob job rest
    have houtlet : (c.writeJob job (front ++ back)).outlet = o := hwrote.outlet
    refine ⟨job, front, ?_, by rw [houtlet, hheld], .goesOn hhand hwrote⟩
    simp [Sending.inHand, sending, hhand]
  · rename_i hidle
    split at h
    · cases h
    · rename_i job q e hdequeue
      cases h
      obtain ⟨rest, hjobs, htaken⟩ := sending_dequeue hdequeue
      have hhand : c.sending.inHand = some job := by
        simp [Sending.inHand, sending, hidle, hjobs]
      have hstarted := ((c.setOutbound q).emit e).sending_startJob job
      rw [htaken] at hstarted
      obtain ⟨front, back, o, hencodes, hheld, hwrote⟩ | hgaveUp := hstarted
      · have houtlet : (((c.setOutbound q).emit e).startJob job).outlet = o := hwrote.outlet
        refine ⟨job, front, hhand, ?_, .begins hidle hjobs hencodes hwrote⟩
        rw [houtlet, hheld]
        rfl
      · have houtlet : (((c.setOutbound q).emit e).startJob job).outlet = c.outlet :=
          congrArg Sending.outlet hgaveUp
        refine ⟨job, [], hhand, by rw [houtlet, List.append_nil], ?_⟩
        rw [hgaveUp]
        exact .givesUp hidle hjobs

/-! Which steps fail. -/

/-- The next step of sending is about this job and fails: its packets cannot be encoded, or the
outlet fails under its bytes. -/
inductive SendFails (c : Connection) (job : TrackedJob) : Prop
  | goesOn (rest : Bytes) (hand : c.session.inFlight = some (job, rest))
      (breaks : c.outlet.Breaks rest)
  | unencodable (idle : c.session.inFlight = none) (next : c.outbound.jobs.head? = some job)
      (e : PacketError)
      (error : encodeMessage (c.session.endpoint.render job).1 (c.session.endpoint.render job).2
        c.session.chunkSize = .error e)
  | begins (idle : c.session.inFlight = none) (next : c.outbound.jobs.head? = some job)
      (wire : Bytes) (encodes : c.session.endpoint.Encodes c.session.chunkSize job wire)
      (breaks : c.outlet.Breaks wire)

theorem SendFails.inHand {c : Connection} {job : TrackedJob} (h : c.SendFails job) :
    c.sending.inHand = some job := by
  cases h with
  | goesOn rest hand => simp [Sending.inHand, sending, hand]
  | unencodable idle next => simp [Sending.inHand, sending, idle, next]
  | begins idle next => simp [Sending.inHand, sending, idle, next]

theorem sending_finish {c : Connection} (hopen : c.session.report = none) (ending : ReceiveEnd) :
    ∃ report : SessionReport, report.unsent = c.sending.unsent ∧ report.sent = c.sending.sent ∧
      (c.finish ending).sending =
        { c.sending with queue := c.outbound.spent, inFlight := none, report := some report } := by
  have hrunning : c.isOver = false := (isOver_eq_false_iff c).2 hopen
  have hspent : (c.setOutbound c.outbound.spent).sending =
      { c.sending with queue := c.outbound.spent } :=
    sending_setOutbound fun hnone => by rw [hnone]; rfl
  unfold finish
  rw [hrunning, if_neg Bool.false_ne_true]
  dsimp only
  rw [JobQueue.drop_drain]
  generalize c.setOutbound c.outbound.spent = c₁ at hspent
  have hagree := c₁.session.endpoint.agree_emitAll c₁.directory c.outbound.drain.2.2
  have hsaid := sending_agree hagree
  have hfailed : c₁.session.failed = c.session.failed := congrArg Sending.failed hspent
  have hinFlight : c₁.session.inFlight = c.session.inFlight := congrArg Sending.inFlight hspent
  have hsent : c₁.session.sent = c.session.sent := congrArg Sending.sent hspent
  let report : SessionReport :=
    { ending := ending, received := c₁.session.received, discarded := c₁.session.discarded
      sent := c₁.session.sent
      unsent := c₁.session.failed.toList ++ (c₁.session.inFlight.map (·.1)).toList ++
        c.outbound.drain.1 }
  refine ⟨report, ?_, hsent, ?_⟩
  · have hopen' : c.sending.report = none := hopen
    rw [Sending.unsent, hopen']
    simp only [report, hfailed, hinFlight]
    rfl
  · have hclosed := congrArg (fun v : Sending => { v with inFlight := none, report := some report })
      (hsaid.trans hspent)
    exact hclosed

end Connection
end JobBroker
