import JobBroker.Proofs.Session.Sending
import JobBroker.Session.Admission
import JobBroker.Session.Peer
import Mathlib.Data.List.Forall2

/-! The jobs of a session, from its queue to the peer. Whatever happens to a session and whatever
its outlet does, every job that its queue took is written whole or is unsent at the end, once and in
order, and the outlet gets what the written jobs are encoded as and a first part of the next. -/
namespace JobBroker

/-- What can happen to a session that is being served, in any order. -/
inductive SessionAct where
  /-- A job is offered to the queue. -/
  | enqueues (job : TrackedJob)
  /-- The session takes a step of sending, if there is one to take. -/
  | sends
  /-- The outlet changes: a pipe is read, say, or gives way to a sink that takes no more. -/
  | turns (outlet : Outlet)
  | reads (reader : StreamReader)
  | hears (item : Inbound)
  | ends (ending : ReceiveEnd)
  /-- The directory changes elsewhere. It is only taken if it agrees on the peer's queue and on what
  was written to the peer. -/
  | elsewhere (directory : Directory)

/-- What is noted beside a session: the jobs that its queue took, those that were noted as sent, and
the bytes that reached the outlet. -/
structure Journal where
  accepted : List TrackedJob := []
  noted : List TrackedJob := []
  written : Bytes := []

structure Recorded where
  connection : Connection
  journal : Journal

namespace Recorded

def start (d : Directory) (endpoint : Endpoint) (peer : String) (chunkSize : Nat)
    (ownQueue : Option JobQueue) (reader : StreamReader) (outlet : Outlet) : Recorded :=
  let session : Session :=
    { endpoint := endpoint, peer := peer, chunkSize := chunkSize, ownQueue := ownQueue
      reader := reader, state := .active }
  let c : Connection := { directory := d, session := session, outlet := outlet }
  { connection := c, journal := { accepted := c.outbound.jobs } }

def enqueue (s : Recorded) (job : TrackedJob) : Recorded :=
  match s.connection.outbound.enqueue job with
  | .error _ => s
  | .ok (q, e) =>
    { connection := (s.connection.setOutbound q).emit e
      journal := { s.journal with accepted := s.journal.accepted ++ [job] } }

/-- Note the job in hand if the count of jobs has risen, and the bytes that the outlet has more. -/
def noteStep (j : Journal) (c c' : Connection) : Journal where
  accepted := j.accepted
  noted := if c.session.sent < c'.session.sent then j.noted ++ c.sending.inHand.toList else j.noted
  written := j.written ++ c'.outlet.held.drop c.outlet.held.length

def send (s : Recorded) : Recorded :=
  match s.connection.sendStep with
  | none => s
  | some c => { connection := c, journal := noteStep s.journal s.connection c }

def step (s : Recorded) : SessionAct → Recorded
  | .enqueues job => s.enqueue job
  | .sends => s.send
  | .turns outlet => { s with connection := { s.connection with outlet := outlet } }
  | .reads reader =>
    { s with connection :=
      { s.connection with session := { s.connection.session with reader := reader } } }
  | .hears item => { s with connection := s.connection.onItem item }
  | .ends ending => { s with connection := s.connection.finish ending }
  | .elsewhere d =>
    if s.connection.session.endpoint.Agree s.connection.directory d then
      { s with connection := { s.connection with directory := d } }
    else s

def run (s : Recorded) (acts : List SessionAct) : Recorded := acts.foldl step s

theorem run_append (s : Recorded) (acts later : List SessionAct) :
    s.run (acts ++ later) = (s.run acts).run later := List.foldl_append ..

end Recorded

namespace Sending

/-- How far the first unsent job has come: so much of it has reached the outlet. -/
structure Begun (v : Sending) (part : Bytes) : Prop where
  cut : part = [] ∨ ∃ job wire, v.unsent.head? = some job ∧
    v.endpoint.Encodes v.chunkSize job wire ∧ part <+: wire
  stalled : ∀ job rest, v.inFlight = some (job, rest) →
    v.endpoint.Encodes v.chunkSize job (part ++ rest)
  idle : v.inFlight = none → v.failed = none → v.report = none → part = []

/-- What a session keeps to: its peer, the size of its chunks, whether its queue is kept apart, and
what the directory counted as written to the peer before. -/
structure Terms where
  endpoint : Endpoint
  chunkSize : Nat
  apart : Bool
  counted : Option Nat

/-- The journal and the session agree: every accepted job is noted as sent or is unsent, and the
outlet got what the sent ones are encoded as and a part of the first unsent one. -/
structure Accounts (t : Terms) (j : Journal) (v : Sending) : Prop where
  accounted : j.accepted = j.noted ++ v.unsent
  sent : v.sent = j.noted.length
  counted : v.counted = t.counted.map (· + j.noted.length)
  wired : ∃ wires part, List.Forall₂ (v.endpoint.Encodes v.chunkSize) j.noted wires ∧
    j.written = wires.flatten ++ part ∧ v.Begun part
  closed : v.failed.isSome = true ∨ v.report.isSome = true → v.queue.isClosed = true
  alone : v.failed.isSome = true → v.inFlight = none
  reported : ∀ report, v.report = some report → report.sent = v.sent
  terms : v.endpoint = t.endpoint ∧ v.chunkSize = t.chunkSize ∧ v.apart = t.apart

variable {t : Terms} {j : Journal} {v v' : Sending}

theorem unsent_open (h : v.report = none) :
    v.unsent = v.failed.toList ++ (v.inFlight.map (·.1)).toList ++ v.queue.jobs := by
  rw [unsent, h]

theorem Accounts.turn (h : v.Accounts t j) (o : Outlet) :
    Accounts t j { v with outlet := o } := by
  obtain ⟨wires, part, hwires, hwritten, hbegun⟩ := h.wired
  exact ⟨h.accounted, h.sent, h.counted,
    ⟨wires, part, hwires, hwritten, hbegun.cut, hbegun.stalled, hbegun.idle⟩, h.closed, h.alone,
    h.reported, h.terms⟩

theorem Accounts.active (h : v.Accounts t j) (htaking : v.queue.isClosed = false) :
    v.report = none ∧ v.failed = none := by
  constructor
  · cases hreport : v.report with
    | none => rfl
    | some report =>
      rw [h.closed (.inr (by rw [hreport]; rfl))] at htaking
      cases htaking
  · cases hfailed : v.failed with
    | none => rfl
    | some job =>
      rw [h.closed (.inl (by rw [hfailed]; rfl))] at htaking
      cases htaking

theorem isClosed_of_enqueue {q q' : JobQueue} {job : TrackedJob} {e : Event}
    (h : q.enqueue job = .ok (q', e)) : q.isClosed = false := by
  unfold JobQueue.enqueue at h
  split at h
  · cases h
  · rename_i htaking
    rwa [Bool.not_eq_true] at htaking

theorem Accounts.enqueue {q : JobQueue} {job : TrackedJob} {e : Event} (h : v.Accounts t j)
    (htaken : v.queue.enqueue job = .ok (q, e)) :
    Accounts t { j with accepted := j.accepted ++ [job] } { v with queue := q } := by
  obtain ⟨hopen, hwell⟩ := h.active (isClosed_of_enqueue htaken)
  obtain ⟨rfl, -⟩ := JobQueue.enqueue_ok htaken
  have hunsent : { v with queue := { v.queue with jobs := v.queue.jobs ++ [job] } }.unsent =
      v.unsent ++ [job] := by
    simp only [unsent, hopen, List.append_assoc]
  obtain ⟨wires, part, hwires, hwritten, hbegun⟩ := h.wired
  refine ⟨?_, h.sent, h.counted, ⟨wires, part, hwires, hwritten, ?_, hbegun.stalled, hbegun.idle⟩,
    ?_, h.alone, h.reported, h.terms⟩
  · rw [hunsent, ← List.append_assoc, ← h.accounted]
  · refine hbegun.cut.imp_right fun hpart => ?_
    obtain ⟨first, wire, hfirst, hencodes⟩ := hpart
    refine ⟨first, wire, ?_, hencodes⟩
    rw [hunsent, List.head?_append, hfirst]
    rfl
  · rintro (hfailed | hover)
    · exact absurd hfailed (by simp [hwell])
    · exact absurd hover (by simp [hopen])

structure InHand (t : Terms) (j : Journal) (v : Sending) (job : TrackedJob)
    (part bytes : Bytes) : Prop where
  accounted : j.accepted = j.noted ++ job :: v.queue.jobs
  sent : v.sent = j.noted.length
  counted : v.counted = t.counted.map (· + j.noted.length)
  wired : ∃ wires, List.Forall₂ (v.endpoint.Encodes v.chunkSize) j.noted wires ∧
    j.written = wires.flatten ++ part
  encodes : v.endpoint.Encodes v.chunkSize job (part ++ bytes)
  active : v.report = none ∧ v.failed = none
  terms : v.endpoint = t.endpoint ∧ v.chunkSize = t.chunkSize ∧ v.apart = t.apart

theorem InHand.wrote {job : TrackedJob} {part front back : Bytes} {o : Outlet}
    (h : InHand t j v job part (front ++ back))
    (hwrote : { v with outlet := o }.Wrote job back v') :
    Accounts t
      { j with
        noted := if v.sent < v'.sent then j.noted ++ [job] else j.noted
        written := j.written ++ front } v' := by
  obtain ⟨wires, hwires, hwritten⟩ := h.wired
  obtain ⟨hopen, hwell⟩ := h.active
  have hreached : j.written ++ front = wires.flatten ++ (part ++ front) := by
    rw [hwritten, List.append_assoc]
  have hencodes := h.encodes
  rw [← List.append_assoc] at hencodes
  have hcut : part ++ front <+: part ++ front ++ back := List.prefix_append ..
  cases hwrote with
  | whole nothing =>
    subst nothing
    rw [List.append_nil] at hencodes
    have hmore : v.sent < v.sent + 1 := Nat.lt_succ_self _
    simp only [hmore, if_true]
    refine ⟨?_, ?_, ?_, ⟨wires ++ [part ++ front], [], ?_, ?_, ⟨.inl rfl, ?_, fun _ _ _ => rfl⟩⟩,
      ?_, fun _ => rfl, ?_, h.terms⟩
    · simp [h.accounted, unsent, hopen, hwell]
    · rw [h.sent, List.length_append, List.length_singleton]
    · simp [h.counted, Function.comp_def, Nat.add_assoc]
    · exact List.rel_append hwires (.cons hencodes .nil)
    · simp [hreached]
    · simp
    · simp [hopen, hwell]
    · simp [hopen]
  | stalls =>
    have hsame : ¬ v.sent < v.sent := Nat.lt_irrefl _
    simp only [hsame, if_false]
    refine ⟨?_, h.sent, h.counted, ⟨wires, part ++ front, hwires, hreached, ⟨?_, ?_, ?_⟩⟩, ?_,
      ?_, ?_, h.terms⟩
    · simp [h.accounted, unsent, hopen, hwell]
    · exact .inr ⟨job, _, by simp [unsent, hopen, hwell], hencodes, hcut⟩
    · simpa using hencodes
    · simp
    · simp [hopen, hwell]
    · simp [hwell]
    · simp [hopen]
  | breaks =>
    have hsame : ¬ v.sent < v.sent := Nat.lt_irrefl _
    simp only [hsame, if_false]
    refine ⟨?_, h.sent, h.counted, ⟨wires, part ++ front, hwires, hreached, ⟨?_, ?_, ?_⟩⟩, ?_,
      ?_, ?_, h.terms⟩
    · simp [h.accounted, unsent, hopen]
    · exact .inr ⟨job, _, by simp [unsent, hopen], hencodes, hcut⟩
    · simp
    · simp
    · exact fun _ => JobQueue.isClosed_close _
    · exact fun _ => rfl
    · simp [hopen]

theorem Accounts.send {job : TrackedJob} {front : Bytes} (h : v.Accounts t j)
    (hopen : v.report = none) (hwell : v.failed = none) (hsends : v.Sends job front v') :
    Accounts t
      { j with
        noted := if v.sent < v'.sent then j.noted ++ [job] else j.noted
        written := j.written ++ front } v' := by
  obtain ⟨wires, part, hwires, hwritten, hbegun⟩ := h.wired
  have haccounted := h.accounted
  rw [unsent_open hopen, hwell] at haccounted
  cases hsends with
  | @goesOn _ back o _ hand wrote =>
    refine InHand.wrote ⟨?_, h.sent, h.counted, ⟨wires, hwires, hwritten⟩, hbegun.stalled _ _ hand,
      ⟨hopen, hwell⟩, h.terms⟩ wrote
    simpa [hand] using haccounted
  | @begins rest _ back o _ idle next encodes wrote =>
    obtain rfl := hbegun.idle idle hwell hopen
    have hinHand : InHand t j { v with queue := v.queue.withJobs rest } job []
        (front ++ back) := by
      refine ⟨?_, h.sent, h.counted, ⟨wires, hwires, hwritten⟩, encodes, ⟨hopen, hwell⟩, h.terms⟩
      simpa [idle, next] using haccounted
    exact hinHand.wrote wrote
  | givesUp idle next =>
    obtain rfl := hbegun.idle idle hwell hopen
    have hsame : ¬ v.sent < v.sent := Nat.lt_irrefl _
    simp only [hsame, if_false, List.append_nil]
    refine ⟨?_, h.sent, h.counted, ⟨wires, [], hwires, hwritten, .inl rfl, ?_, fun _ _ _ => rfl⟩,
      fun _ => JobQueue.isClosed_close _, fun _ => rfl, ?_, h.terms⟩
    · simpa [unsent, hopen, idle, next] using haccounted
    · simp
    · simp [hopen]

theorem Accounts.finish {report : SessionReport} (h : v.Accounts t j)
    (hunsent : report.unsent = v.unsent) (hsent : report.sent = v.sent) :
    Accounts t j
      { v with queue := v.queue.spent, inFlight := none, report := some report } := by
  obtain ⟨wires, part, hwires, hwritten, hbegun⟩ := h.wired
  refine ⟨?_, h.sent, h.counted, ⟨wires, part, hwires, hwritten, ?_, ?_, ?_⟩, fun _ => rfl,
    fun _ => rfl, ?_, h.terms⟩
  · rw [h.accounted, ← hunsent]
    rfl
  · have hcut := hbegun.cut
    rw [← hunsent] at hcut
    exact hcut
  · simp
  · simp
  · rintro report' hreport
    cases hreport
    exact hsent

end Sending

namespace Recorded
variable {t : Sending.Terms} {s : Recorded}

def IsAccounted (t : Sending.Terms) (s : Recorded) : Prop :=
  s.connection.sending.Accounts t s.journal

theorem IsAccounted.enqueue (h : s.IsAccounted t) (job : TrackedJob) :
    (s.enqueue job).IsAccounted t := by
  unfold Recorded.enqueue
  split
  · exact h
  · rename_i q e htaken
    have hnone : s.connection.outbound = Endpoint.noQueue → q = Endpoint.noQueue := by
      intro hnone
      rw [hnone] at htaken
      exact absurd (Sending.isClosed_of_enqueue htaken) (by decide)
    have hsending : ((s.connection.setOutbound q).emit e).sending =
        { s.connection.sending with queue := q } := by
      rw [Connection.sending_emit, Connection.sending_setOutbound hnone]
    rw [IsAccounted, hsending]
    exact Sending.Accounts.enqueue h htaken

theorem IsAccounted.send (h : s.IsAccounted t) : s.send.IsAccounted t := by
  unfold Recorded.send
  split
  · exact h
  · rename_i c hstep
    obtain ⟨hopen, hwell, job, front, hhand, houtlet, hsends⟩ := Connection.sendStep_sends hstep
    have haccounts := Sending.Accounts.send h hopen hwell hsends
    have hnoted : noteStep s.journal s.connection c =
        { s.journal with
          noted := if s.connection.session.sent < c.session.sent then s.journal.noted ++ [job]
            else s.journal.noted
          written := s.journal.written ++ front } := by
      rw [noteStep, hhand, houtlet, List.drop_left]
      rfl
    rw [IsAccounted, hnoted]
    exact haccounts

theorem finish_over {c : Connection} (h : c.isOver = true) (ending : ReceiveEnd) :
    c.finish ending = c := if_pos h

theorem IsAccounted.finish (h : s.IsAccounted t) (ending : ReceiveEnd) :
    (s.step (.ends ending)).IsAccounted t := by
  have hstep : s.step (.ends ending) = { s with connection := s.connection.finish ending } := rfl
  cases hover : s.connection.isOver with
  | true =>
    rw [hstep, finish_over hover]
    exact h
  | false =>
    obtain ⟨report, hunsent, hsent, hfinish⟩ := Connection.sending_finish
      ((Connection.isOver_eq_false_iff _).1 hover) ending
    rw [hstep, IsAccounted, hfinish]
    exact Sending.Accounts.finish h hunsent hsent

theorem onItem_cases (c : Connection) (item : Inbound) :
    (c.onItem item).sending = c.sending ∨ ∃ ending, c.onItem item = c.finish ending := by
  unfold Connection.onItem
  split
  · exact .inl rfl
  · cases item with
    | message p => exact .inl (c.sending_onMessage p)
    | malformed e =>
      dsimp only
      split
      · exact .inr ⟨_, rfl⟩
      · exact .inl c.sending_discard
    | closed => exact .inr ⟨_, rfl⟩

theorem IsAccounted.hear (h : s.IsAccounted t) (item : Inbound) :
    (s.step (.hears item)).IsAccounted t := by
  have hstep : s.step (.hears item) = { s with connection := s.connection.onItem item } := rfl
  obtain hsame | ⟨ending, hends⟩ := onItem_cases s.connection item
  · rw [hstep, IsAccounted, hsame]
    exact h
  · rw [hstep, hends]
    exact h.finish ending

theorem IsAccounted.step (h : s.IsAccounted t) (act : SessionAct) :
    (s.step act).IsAccounted t := by
  cases act with
  | enqueues job => exact h.enqueue job
  | sends => exact h.send
  | turns outlet => exact Sending.Accounts.turn h outlet
  | reads reader => exact h
  | hears item => exact h.hear item
  | ends ending => exact h.finish ending
  | elsewhere d =>
    rw [Recorded.step]
    split
    · rename_i hagree
      rw [IsAccounted, Connection.sending_agree hagree]
      exact h
    · exact h

theorem IsAccounted.run (h : s.IsAccounted t) (acts : List SessionAct) :
    (s.run acts).IsAccounted t := by
  induction acts generalizing s with
  | nil => exact h
  | cons act acts ih => exact ih (h.step act)

theorem IsAccounted.refuses (h : s.IsAccounted t)
    (hfailed : s.connection.session.failed.isSome = true) (job : TrackedJob) :
    s.connection.outbound.enqueue job = .error job := by
  have hclosed : s.connection.outbound.isClosed = true := h.closed (.inl hfailed)
  rw [JobQueue.enqueue, if_pos hclosed]

end Recorded

end JobBroker
