import JobBroker.Proofs.Run.Move
import JobBroker.Proofs.Session.Receiving

/-! What becomes of the streams of peers that arrive: a requester is heard from the beginning, and a
worker from behind its introduction, wherever in a read that ends. -/
namespace JobBroker

open StreamReader

namespace Directory
variable {d : Directory}

theorem jobs_registerRequester (hd : d.Wired) (peer : String) :
    ((Endpoint.requester (d.registerRequester peer).1).queue
      (d.registerRequester peer).2).jobs = [] := by
  have hid : (d.registerRequester peer).1 = d.requesters.length := hd.nextRequester
  rw [hid]
  simp [Endpoint.queue, registerRequester, emit]

theorem jobs_registerWorker (hd : d.Wired) (peer : String) (specialty : JobType) :
    ((Endpoint.worker (d.registerWorker peer specialty).1).queue
      (d.registerWorker peer specialty).2).jobs = [] := by
  have hid : (d.registerWorker peer specialty).1 = d.workers.length := hd.nextWorker
  rw [hid]
  simp [Endpoint.queue, registerWorker, emit]

end Directory

namespace Connection
variable {heard : List Inbound} {why : ReceiveEnd}

theorem shows_begin {d : Directory} {endpoint : Endpoint} {r : StreamReader}
    (h : (endpoint.queue d).jobs = []) (peer : String) (chunkSize : Nat) (outlet : Outlet) :
    let session : Session :=
      { endpoint := endpoint, peer := peer, chunkSize := chunkSize, reader := r }
    Shows { directory := d, session := session, outlet := outlet } endpoint peer { world := d } :=
  ⟨rfl, ⟨rfl, rfl⟩, ⟨rfl, h⟩, rfl, rfl, rfl⟩

theorem admitRequester_closes {d : Directory} {p : Protocol} {a : Arrival} (hd : d.Wired)
    (hreads : [] ∉ a.reads) (hstops : Stops a.ending {} a.reads heard why) :
    (d.admitRequester p a).Closes (.requester (d.registerRequester a.peer).1) a.peer
      (d.registerRequester a.peer).2 heard why :=
  (shows_begin (Directory.jobs_registerRequester hd a.peer) a.peer p.chunkSize.toNat
    a.outlet).closes rfl hreads hstops

theorem awaitHandshake_ok {limit : Millis} {ending : Ending} {r r' : StreamReader}
    {reads rest : List Bytes} {specialty : JobType}
    (h : awaitHandshake limit ending r reads = (.ok specialty, r', rest)) :
    ∃ introduction, specialtyOf (.message introduction) = .ok specialty ∧
      r.next ending reads = (.item (.message introduction), r', rest) := by
  unfold awaitHandshake at h
  split at h
  · rename_i item r'' rest' hnext
    obtain ⟨hspecialty, rfl, rfl⟩ : specialtyOf item = .ok specialty ∧ r'' = r' ∧ rest' = rest := by
      simpa using h
    cases item with
    | message introduction => exact ⟨introduction, hspecialty, hnext⟩
    | malformed e => cases hspecialty
    | closed => cases hspecialty
  · cases h
  · cases h

theorem admitWorker_closes {d : Directory} {p : Protocol} {a : Arrival} {c : Connection}
    (hd : d.Wired) (hreads : [] ∉ a.reads) (hstops : Stops a.ending {} a.reads heard why)
    (hadmitted : d.admitWorker p a = .ok c) :
    ∃ introduction later specialty, heard = introduction :: later ∧
      specialtyOf introduction = .ok specialty ∧
      c.Closes (.worker (d.registerWorker a.peer specialty).1) a.peer
        (d.registerWorker a.peer specialty).2 later why := by
  unfold Directory.admitWorker at hadmitted
  split at hadmitted
  · cases hadmitted
  · rename_i specialty reader rest hawaited
    cases hadmitted
    obtain ⟨introduction, hspecialty, hnext⟩ := awaitHandshake_ok hawaited
    obtain ⟨hopen, hrest⟩ := next_message rfl hnext
    cases heard with
    | nil =>
      have hstop := hstops.nil
      rw [hnext] at hstop
      cases hstop
    | cons first later =>
      obtain ⟨hfirst, hlater⟩ := hstops.uncons
      rw [hnext] at hfirst hlater
      obtain rfl := Answer.item.inj hfirst
      refine ⟨_, later, specialty, rfl, hspecialty, ?_⟩
      exact (shows_begin (Directory.jobs_registerWorker hd a.peer specialty) a.peer
        p.chunkSize.toNat a.outlet).closes hopen (fun hmem => hreads (hrest.subset hmem)) hlater

end Connection

/-- Every message in front of the stop is given to the handler, once and in order, and nothing else
is; received are as many; discarded are those that the handler refused and the pieces of input that
were malformed, each of which is told of once; and the end is the one that the stop says. So it is
for the receive loop over every handler, and for the sessions of peers that are admitted, those of
workers from behind the introduction. -/
theorem Handler.receipts_account :
    (∀ {σ ε : Type} (handler : Handler σ ε) (peer : String) (w : σ) (ending : Ending)
        (r : StreamReader) (reads : List Bytes),
      (ending ≠ .unknown → ∃ heard why, Stops ending r reads heard why) ∧
      ∀ heard why, Stops ending r reads heard why → ∀ turns, heard.length < turns →
        let s := handler.loop peer ending turns { world := w } r reads
        handler.Accounts peer w heard s ∧ s.ending = some why) ∧
    ∀ (d : Directory) (p : Protocol) (a : Arrival), d.Wired → [] ∉ a.reads →
      ∀ heard why, Stops a.ending {} a.reads heard why →
        (d.admitRequester p a).Closes (.requester (d.registerRequester a.peer).1) a.peer
          (d.registerRequester a.peer).2 heard why ∧
        ∀ c, d.admitWorker p a = .ok c →
          ∃ introduction later specialty, heard = introduction :: later ∧
            specialtyOf introduction = .ok specialty ∧
            c.Closes (.worker (d.registerWorker a.peer specialty).1) a.peer
              (d.registerWorker a.peer specialty).2 later why := by
  refine ⟨fun handler peer w ending r reads => ⟨fun hends => exists_stops hends r reads, ?_⟩, ?_⟩
  · intro heard why hstops turns hturns
    exact (accounts_start handler peer w).loop rfl hstops hturns
  · intro d p a hd hreads heard why hstops
    exact ⟨Connection.admitRequester_closes hd hreads hstops, fun c hadmitted =>
      Connection.admitWorker_closes hd hreads hstops hadmitted⟩

/-- A worker that sends a packet without a report in one read with its introduction, and the
beginning of a packet without a header, whose connection then breaks. -/
def introducing : Arrival where
  peer := "worker"
  reads := [Text.utf8 "(25)OPTIMIZED_FOR_JOB_TYPE:A\n(1)\n(1".toList, Text.utf8 ")X".toList]
  ending := .failure "reset"

def refusing : Handler Nat Unit where
  onMessage n _ := (n + 1, .error ())
  notify n _ := n

/-- The worker's session receives one message, which it refuses, and discards the other packet too.
A loop that begins with the introduction has one message more. -/
theorem Handler.receipts_account_introducing :
    let d := (System.start .checked {} 0).directory
    let a := introducing
    d.Wired ∧ [] ∉ a.reads ∧ ∃ heard c report,
      Stops a.ending {} a.reads heard (.failed "reset") ∧ d.admitWorker {} a = .ok c ∧
      c.session.report = some report ∧ report.ending = .failed "reset" ∧ report.received = 1 ∧
      report.discarded = 2 ∧
      (refusing.loop a.peer a.ending 4 { world := 0 } {} a.reads).received = 2 := by
  intro d a
  have hd : d.Wired := System.start_wired .checked {} 0
  have hreads : [] ∉ a.reads := by decide +kernel
  let heard : List Inbound :=
    [.message (handshakePacket .a), .message {}, .malformed .unterminatedHeader]
  have hstops : Stops a.ending {} a.reads heard (.failed "reset") :=
    ⟨by decide +kernel, .failed "reset", by decide +kernel, rfl⟩
  have hadmitted : ∃ c, d.admitWorker {} a = .ok c := by
    have hok : (d.admitWorker {} a).toOption.isSome = true := by decide +kernel
    cases hanswer : d.admitWorker {} a with
    | ok c => exact ⟨c, rfl⟩
    | error e =>
      rw [hanswer] at hok
      cases hok
  obtain ⟨c, hc⟩ := hadmitted
  obtain ⟨hloops, hpeers⟩ := receipts_account
  obtain ⟨-, hworkers⟩ := hpeers d {} a hd hreads heard _ hstops
  obtain ⟨introduction, later, specialty, hheard, hspecialty, s, last, report, haccounts, -, -,
    hreport, hending, hreceived, hdiscarded, -⟩ := hworkers c hc
  obtain ⟨rfl, rfl⟩ := List.cons.inj hheard
  obtain rfl : JobType.a = specialty := Except.ok.inj hspecialty
  have hrefused : s.refused = 1 := by
    rw [Receipt.refused, haccounts.said]
    decide +kernel
  have hall := (hloops refusing a.peer 0 a.ending {} a.reads).2 heard _ hstops 4 (by decide)
  refine ⟨hd, hreads, heard, c, report, hstops, hc, hreport, hending, ?_, ?_, ?_⟩
  · rw [hreceived, haccounts.received]
    rfl
  · rw [hdiscarded, haccounts.discarded, hrefused]
    rfl
  · rw [hall.1.received]
    rfl

end JobBroker
