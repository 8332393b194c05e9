import JobBroker.Proofs.Session.Discards
import JobBroker.Proofs.Session.Sending
import JobBroker.Session.Admission

/-! What a session makes of its peer's stream. A session is served with whole reads, of which it
takes everything at once, yet it does what the receive loop does that pulls item by item: it hears
the same items and ends at the same one, also where the reader has already given the introduction of
a worker. -/
namespace JobBroker

open StreamReader

namespace Connection

/-- A session that is being served and has nothing to write stands where a receive loop stands. -/
structure Shows (c : Connection) (endpoint : Endpoint) (peer : String)
    (s : Receipt Directory EndpointError) : Prop where
  running : c.session.report = none
  terms : c.session.endpoint = endpoint ∧ c.session.peer = peer
  resting : c.sending.inFlight = none ∧ c.sending.queue.jobs = []
  world : c.directory = s.world
  received : c.session.received = s.received
  discarded : c.session.discarded = s.discarded

/-- The same, or a session that was ended where the loop has ended. -/
inductive Mirrors (c : Connection) (endpoint : Endpoint) (peer : String)
    (s : Receipt Directory EndpointError) : Prop
  | goesOn (runs : s.ending = none) (shows : c.Shows endpoint peer s)
  | ended {last : Connection} {why : ReceiveEnd} (stopped : s.ending = some why)
    (shows : last.Shows endpoint peer s) (finished : c = last.finish why)

variable {c : Connection} {endpoint : Endpoint} {peer : String}
  {s : Receipt Directory EndpointError}

def withReader (c : Connection) (r : StreamReader) : Connection :=
  { c with session := { c.session with reader := r } }

/-! The end of a session, and its reader, which plays no part in it. -/

theorem discards_setOutbound (c : Connection) (q : JobQueue) :
    (c.setOutbound q).directory.discards = c.directory.discards := by
  unfold setOutbound
  split
  · rfl
  · cases c.session.endpoint <;> rfl

theorem report_finish (h : c.session.report = none) (why : ReceiveEnd) :
    ∃ report, (c.finish why).session.report = some report ∧ report.ending = why ∧
      report.received = c.session.received ∧ report.discarded = c.session.discarded := by
  have hrunning : c.isOver = false := (isOver_eq_false_iff c).2 h
  unfold finish
  rw [hrunning, if_neg Bool.false_ne_true]
  refine ⟨_, rfl, rfl, ?_, ?_⟩ <;>
    · unfold setOutbound
      split <;> rfl

theorem discards_finish (c : Connection) (why : ReceiveEnd) :
    (c.finish why).directory.discards = c.directory.discards := by
  unfold finish
  split
  · rfl
  · have hdrained : ∀ e ∈ c.outbound.drain.2.2, e.isDiscard = false := by
      intro e he
      obtain ⟨job, -, rfl⟩ := List.mem_map.1 he
      rfl
    exact (Directory.discards_emitAll hdrained _).trans (c.discards_setOutbound _)

theorem isOver_finish (c : Connection) (why : ReceiveEnd) : (c.finish why).isOver = true := by
  unfold finish
  split
  · assumption
  · rfl

theorem withReader_finish (c : Connection) (why : ReceiveEnd) (r : StreamReader) :
    (c.finish why).withReader r = (c.withReader r).finish why := by
  have hset (q : JobQueue) : (c.withReader r).setOutbound q = (c.setOutbound q).withReader r := by
    unfold setOutbound withReader
    dsimp only
    split <;> rfl
  have hover : (c.withReader r).isOver = c.isOver := rfl
  have hqueue : (c.withReader r).outbound = c.outbound := rfl
  unfold finish
  rw [hover, hqueue]
  split
  · rfl
  · dsimp only
    rw [hset]
    rfl

theorem reader_finish (c : Connection) (why : ReceiveEnd) :
    (c.finish why).session.reader = c.session.reader := by
  unfold finish
  split
  · rfl
  · dsimp only
    unfold setOutbound
    split <;> rfl

theorem reader_onItem (c : Connection) (item : Inbound) :
    (c.onItem item).session.reader = c.session.reader := by
  unfold onItem
  split
  · rfl
  · cases item with
    | message p =>
      dsimp only
      unfold onMessage
      dsimp only
      split <;> rfl
    | malformed e =>
      dsimp only
      split
      · exact c.reader_finish _
      · rfl
    | closed => exact c.reader_finish _

theorem reader_items (items : List Inbound) (c : Connection) :
    (items.foldl onItem c).session.reader = c.session.reader := by
  induction items generalizing c with
  | nil => rfl
  | cons item items ih => exact (ih (c.onItem item)).trans (c.reader_onItem item)

theorem Shows.withReader (h : c.Shows endpoint peer s) (r : StreamReader) :
    (c.withReader r).Shows endpoint peer s :=
  ⟨h.running, h.terms, h.resting, h.world, h.received, h.discarded⟩

theorem Mirrors.withReader (h : c.Mirrors endpoint peer s) (r : StreamReader) :
    (c.withReader r).Mirrors endpoint peer s := by
  cases h with
  | goesOn runs shows => exact .goesOn runs (shows.withReader r)
  | ended stopped shows finished =>
    refine .ended stopped (shows.withReader r) ?_
    rw [finished, withReader_finish]

/-! An item is heard as by the loop. -/

theorem Shows.onMessage (h : c.Shows endpoint peer s) (p : Packet) :
    (c.onMessage p).Shows endpoint peer (endpoint.handler.call peer s p) := by
  have hresting := h.resting
  rw [← c.sending_onMessage p] at hresting
  obtain ⟨rfl, rfl⟩ := h.terms
  unfold Connection.onMessage at hresting ⊢
  unfold Handler.call
  dsimp only [Endpoint.handler] at hresting ⊢
  rw [← h.world]
  rcases hsaid : c.directory.onMessage c.session.endpoint p with ⟨d, e | ⟨⟩⟩
  · rw [hsaid] at hresting
    refine ⟨h.running, ⟨rfl, rfl⟩, hresting, rfl, ?_, ?_⟩
    · exact congrArg (· + 1) h.received
    · exact congrArg (· + 1) h.discarded
  · rw [hsaid] at hresting
    exact ⟨h.running, ⟨rfl, rfl⟩, hresting, rfl, congrArg (· + 1) h.received, h.discarded⟩

theorem Shows.discard (h : c.Shows endpoint peer s) :
    c.discard.Shows endpoint peer (endpoint.handler.discard peer s) := by
  have hresting := h.resting
  rw [← c.sending_discard] at hresting
  obtain ⟨rfl, rfl⟩ := h.terms
  refine ⟨h.running, ⟨rfl, rfl⟩, hresting, ?_, h.received, congrArg (· + 1) h.discarded⟩
  exact congrArg (fun d : Directory => d.emit (.packetDiscarded c.session.peer)) h.world

theorem Shows.isOver_eq (h : c.Shows endpoint peer s) : c.isOver = false :=
  (isOver_eq_false_iff c).2 h.running

theorem Shows.onItem {item : Inbound} (h : c.Shows endpoint peer s) (hopen : s.ending = none)
    (hitem : (Answer.item item).ending? = none) :
    (c.onItem item).Shows endpoint peer (endpoint.handler.hear peer s (.item item)) := by
  unfold Connection.onItem
  rw [h.isOver_eq, if_neg Bool.false_ne_true]
  cases item with
  | message p =>
    rw [Handler.hear_message hopen]
    exact h.onMessage p
  | malformed e =>
    have hgoesOn : e.isFatal = false := by
      simpa [Answer.ending?] using hitem
    rw [Handler.hear_malformed hopen hitem]
    simpa [hgoesOn] using h.discard
  | closed => cases hitem

theorem onItem_stops {item : Inbound} {why : ReceiveEnd} (h : c.isOver = false)
    (hitem : (Answer.item item).ending? = some why) : c.onItem item = c.finish why := by
  unfold onItem
  rw [h, if_neg Bool.false_ne_true]
  cases item with
  | message p => cases hitem
  | malformed e =>
    rw [Answer.ending?] at hitem
    split at hitem <;> cases hitem
    exact if_pos ‹_›
  | closed =>
    cases hitem
    rfl

theorem Mirrors.isOver_eq (h : c.Mirrors endpoint peer s) : c.isOver = s.ending.isSome := by
  cases h with
  | goesOn runs shows => rw [shows.isOver_eq, runs, Option.isSome_none]
  | ended stopped shows finished => rw [finished, isOver_finish, stopped, Option.isSome_some]

theorem Mirrors.foldl_hear (h : c.Mirrors endpoint peer s) (hover : c.isOver = true)
    (answers : List Answer) : answers.foldl (endpoint.handler.hear peer) s = s := by
  rw [h.isOver_eq] at hover
  obtain ⟨why, hended⟩ := Option.isSome_iff_exists.1 hover
  exact Handler.foldl_hear_ended hended answers

theorem Mirrors.stop {why : ReceiveEnd} {answer : Answer} (h : c.Mirrors endpoint peer s)
    (hopen : c.isOver = false) (hanswer : answer.ending? = some why) :
    (c.finish why).Mirrors endpoint peer (endpoint.handler.hear peer s answer) := by
  cases h with
  | goesOn runs shows =>
    rw [Handler.hear_stops runs hanswer]
    refine .ended rfl ?_ rfl
    exact ⟨shows.running, shows.terms, shows.resting, shows.world, shows.received, shows.discarded⟩
  | ended stopped shows finished =>
    rw [finished, isOver_finish] at hopen
    cases hopen

theorem Mirrors.onItem (h : c.Mirrors endpoint peer s) (item : Inbound) :
    (c.onItem item).Mirrors endpoint peer (endpoint.handler.hear peer s (.item item)) := by
  cases hover : c.isOver with
  | true =>
    have hsame : c.onItem item = c := if_pos hover
    have hheard := h.foldl_hear hover [.item item]
    rw [hsame]
    rw [List.foldl_cons, List.foldl_nil] at hheard
    rwa [hheard]
  | false =>
    cases hitem : (Answer.item item).ending? with
    | some why =>
      rw [onItem_stops hover hitem]
      exact h.stop hover hitem
    | none =>
      cases h with
      | goesOn runs shows =>
        exact .goesOn (Handler.hear_goesOn runs hitem) (shows.onItem runs hitem)
      | ended stopped shows finished =>
        rw [finished, isOver_finish] at hover
        cases hover

/-! So are the reads, each of which is taken as a whole. -/

theorem Mirrors.items (h : c.Mirrors endpoint peer s) (items : List Inbound) :
    (items.foldl Connection.onItem c).Mirrors endpoint peer
      ((items.map Answer.item).foldl (endpoint.handler.hear peer) s) := by
  induction items generalizing c s with
  | nil => exact h
  | cons item items ih => exact ih (h.onItem item)

theorem Mirrors.onItems (h : c.Mirrors endpoint peer s) :
    c.onItems.Mirrors endpoint peer
      ((c.session.reader.drain.1.map Answer.item).foldl (endpoint.handler.hear peer) s) :=
  (h.withReader _).items _

theorem reader_onItems (c : Connection) :
    c.onItems.session.reader = c.session.reader.drain.2 := reader_items _ _

theorem receive_over (h : c.isOver = true) (reads : List Bytes) : reads.foldl receive c = c := by
  induction reads with
  | nil => rfl
  | cons read reads ih =>
    have hsame : c.receive read = c := if_pos h
    rw [List.foldl_cons, hsame, ih]

theorem Mirrors.reads (h : c.Mirrors endpoint peer s) (reads : List Bytes) :
    (reads.foldl receive c.onItems).Mirrors endpoint peer
        (((c.session.reader.drainAll reads).1.map Answer.item).foldl
          (endpoint.handler.hear peer) s) ∧
      ((reads.foldl receive c.onItems).isOver = false →
        (reads.foldl receive c.onItems).session.reader = (c.session.reader.drainAll reads).2) := by
  induction reads generalizing c s with
  | nil => exact ⟨h.onItems, fun _ => c.reader_onItems⟩
  | cons read rest ih =>
    have hitems := h.onItems
    have hall : c.session.reader.drainAll (read :: rest) =
        (c.session.reader.drain.1 ++ ((c.session.reader.drain.2.take read).drainAll rest).1,
          ((c.session.reader.drain.2.take read).drainAll rest).2) := rfl
    rw [hall, List.map_append, List.foldl_append]
    cases hover : c.onItems.isOver with
    | true =>
      rw [receive_over hover, hitems.foldl_hear hover]
      exact ⟨hitems, fun hrunning => by rw [hover] at hrunning; cases hrunning⟩
    | false =>
      have hreceive : c.onItems.receive read =
          (c.onItems.withReader (c.session.reader.drain.2.take read)).onItems := by
        unfold receive
        rw [hover, if_neg Bool.false_ne_true, reader_onItems]
        rfl
      rw [List.foldl_cons, hreceive]
      exact ih (hitems.withReader _)

theorem Mirrors.meet {r : StreamReader} (h : c.Mirrors endpoint peer s)
    (hreader : c.isOver = false → c.session.reader = r) (ending : Ending) :
    (c.meet ending).Mirrors endpoint peer
      ((r.lastAnswers ending).foldl (endpoint.handler.hear peer) s) := by
  cases hover : c.isOver with
  | true =>
    have hsame : c.meet ending = c := by
      cases ending with
      | unknown => rfl
      | endOfStream => exact if_pos hover
      | failure cause => exact if_pos hover
    rw [hsame, h.foldl_hear hover]
    exact h
  | false =>
    cases ending with
    | unknown =>
      have hwaits : endpoint.handler.hear peer s .waiting = s := by
        unfold Handler.hear
        split <;> rfl
      rw [lastAnswers, List.foldl_cons, List.foldl_nil, hwaits]
      exact h
    | endOfStream =>
      have hend : c.receiveEnd =
          ((c.withReader r.finish.2).onItem r.finish.1).onItem .closed := by
        unfold receiveEnd
        rw [hover, if_neg Bool.false_ne_true, hreader hover]
        rfl
      have hmeet : c.meet .endOfStream = c.receiveEnd := rfl
      rw [hmeet, hend]
      exact (h.withReader _).items [r.finish.1, .closed]
    | failure cause =>
      have hanswer : (Answer.failed cause).ending? = some (.failed cause) := rfl
      exact h.stop hover hanswer

theorem Mirrors.send_eq (h : c.Mirrors endpoint peer s) : c.send = c := by
  have hstep : c.sendStep = none := by
    unfold sendStep
    cases h with
    | goesOn runs shows =>
      have hflight : c.session.inFlight = none := shows.resting.1
      have hjobs : c.outbound.jobs = [] := shows.resting.2
      simp [hflight, JobQueue.tryDequeue, hjobs]
    | ended stopped shows finished => simp [finished, isOver_finish]
  rw [send, sendMany, hstep]

theorem Shows.serve (h : c.Shows endpoint peer s) (hopen : s.ending = none) (ending : Ending)
    (reads : List Bytes) :
    (c.serve ending reads).Mirrors endpoint peer
      ((c.session.reader.allAnswers ending reads).foldl (endpoint.handler.hear peer) s) := by
  let begun : Connection :=
    { c with session := { c.session with state := c.session.state.advance .active } }
  have hbegun : begun.Mirrors endpoint peer s :=
    .goesOn hopen ⟨h.running, h.terms, h.resting, h.world, h.received, h.discarded⟩
  have hstart : c.start = begun.onItems := hbegun.onItems.send_eq
  obtain ⟨hreads, hreader⟩ := hbegun.reads reads
  rw [Connection.serve, hstart, allAnswers, List.foldl_append]
  exact hreads.meet hreader ending

/-- A session that came to an end behind these items: the handler was given the messages among them
and nothing else, in order, and the report and the log have the counts. -/
def Closes (c : Connection) (endpoint : Endpoint) (peer : String) (d : Directory)
    (heard : List Inbound) (why : ReceiveEnd) : Prop :=
  ∃ (s : Receipt Directory EndpointError) (last : Connection) (report : SessionReport),
    endpoint.handler.Accounts peer d heard s ∧ last.directory = s.world ∧ c = last.finish why ∧
      c.session.report = some report ∧ report.ending = why ∧ report.received = s.received ∧
      report.discarded = s.discarded ∧
      c.directory.discards =
        List.replicate report.discarded (.packetDiscarded peer) ++ d.discards

variable {d : Directory} {heard : List Inbound} {why : ReceiveEnd}

theorem Mirrors.closes (h : c.Mirrors endpoint peer s) (hended : s.ending = some why)
    (haccounts : endpoint.handler.Accounts peer d heard s) (hlogged : Handler.Logged d s) :
    c.Closes endpoint peer d heard why := by
  cases h with
  | goesOn runs =>
    rw [runs] at hended
    cases hended
  | @ended last why' stopped shows finished =>
    obtain rfl : why' = why := Option.some.inj (stopped.symm.trans hended)
    obtain ⟨report, hreport, hending, hreceived, hdiscarded⟩ := report_finish shows.running why'
    refine ⟨s, last, report, haccounts, shows.world, finished, ?_, hending,
      hreceived.trans shows.received, hdiscarded.trans shows.discarded, ?_⟩
    · rw [finished, hreport]
    · rw [finished, discards_finish, shows.world, hlogged, haccounts.notices,
        List.reverse_replicate, hdiscarded, shows.discarded]

theorem Shows.closes {ending : Ending} {reads : List Bytes}
    (h : c.Shows endpoint peer { world := d }) (hopen : c.session.reader.closed = false)
    (hreads : [] ∉ reads) (hstops : Stops ending c.session.reader reads heard why) :
    (c.serve ending reads).Closes endpoint peer d heard why := by
  -- The loop takes as many turns as there are answers in all, which brings it to the stop.
  have hserved := h.serve rfl ending reads
  rw [← calls_allAnswers hopen hreads, ← Handler.loop_eq] at hserved
  have hturns := hstops.length_lt_allAnswers hopen hreads
  obtain ⟨haccounts, hended⟩ :=
    (Handler.accounts_start endpoint.handler peer d).loop rfl hstops hturns
  exact hserved.closes hended haccounts (Handler.logged_loop endpoint peer d ending _ _ _)

end Connection
end JobBroker
