import JobBroker.Proofs.Stream.Stop

/-! The receive loop of a session over any handler. It pulls one answer after the other from its
reader and stops at the first that ends the session; every message before that is given to the
handler once, and whatever is discarded is counted and told of once. -/
namespace JobBroker

open StreamReader

namespace Inbound

def message? : Inbound → Option Packet
  | message p => some p
  | malformed _ | closed => none

def isMalformed : Inbound → Bool
  | malformed _ => true
  | message _ | closed => false

end Inbound

/-- What takes the messages of a session, and who is told of its events, over what the two act on.
-/
structure Handler (σ ε : Type) where
  onMessage : σ → Packet → σ × Except ε Unit
  notify : σ → Event → σ

structure Receipt (σ ε : Type) where
  /-- What the handler acts on. -/
  world : σ
  /-- The messages that the handler was given, each with what it said. -/
  calls : List (Packet × Except ε Unit) := []
  notices : List Event := []
  received : Nat := 0
  discarded : Nat := 0
  ending : Option ReceiveEnd := none

namespace Receipt
variable {σ ε : Type}

def isRefusal : Except ε Unit → Bool
  | .ok _ => false
  | .error _ => true

def refused (s : Receipt σ ε) : Nat := s.calls.countP fun call => isRefusal call.2

end Receipt

namespace Handler
variable {σ ε : Type} (handler : Handler σ ε) (peer : String)

def discard (s : Receipt σ ε) : Receipt σ ε :=
  { s with
    world := handler.notify s.world (.packetDiscarded peer)
    notices := s.notices ++ [.packetDiscarded peer]
    discarded := s.discarded + 1 }

def call (s : Receipt σ ε) (p : Packet) : Receipt σ ε :=
  let (world, outcome) := handler.onMessage s.world p
  let s := { s with world := world, calls := s.calls ++ [(p, outcome)], received := s.received + 1 }
  match outcome with
  | .ok () => s
  | .error _ => handler.discard peer s

def hear (s : Receipt σ ε) (answer : Answer) : Receipt σ ε :=
  match s.ending with
  | some _ => s
  | none =>
    match answer with
    | .item (.message p) => handler.call peer s p
    | .item (.malformed e) =>
      if e.isFatal then { s with ending := some (.fatal e) } else handler.discard peer s
    | .item .closed => { s with ending := some .endOfStream }
    | .failed cause => { s with ending := some (.failed cause) }
    | .waiting => s

def loop (ending : Ending) : Nat → Receipt σ ε → StreamReader → List Bytes → Receipt σ ε
  | 0, s, _, _ => s
  | n + 1, s, r, reads =>
    match s.ending with
    | some _ => s
    | none =>
      let (answer, r, reads) := r.next ending reads
      loop ending n (handler.hear peer s answer) r reads

def after (w : σ) : Inbound → σ
  | .message p =>
    match handler.onMessage w p with
    | (w, .ok ()) => w
    | (w, .error _) => handler.notify w (.packetDiscarded peer)
  | .malformed _ => handler.notify w (.packetDiscarded peer)
  | .closed => w

def callsFor (w : σ) : List Inbound → List (Packet × Except ε Unit)
  | [] => []
  | item :: items =>
    item.message?.toList.map (fun p => (p, (handler.onMessage w p).2)) ++
      callsFor (handler.after peer w item) items

variable {handler peer}
variable {s : Receipt σ ε} {w : σ} {heard : List Inbound} {item : Inbound} {answer : Answer}
  {ending : Ending} {why : ReceiveEnd}

theorem hear_ended (h : s.ending = some why) (answer : Answer) :
    handler.hear peer s answer = s := by
  unfold hear
  rw [h]

theorem hear_message (h : s.ending = none) (p : Packet) :
    handler.hear peer s (.item (.message p)) = handler.call peer s p := by
  unfold hear
  rw [h]

theorem hear_malformed {e : PacketError} (h : s.ending = none)
    (he : (Answer.item (.malformed e)).ending? = none) :
    handler.hear peer s (.item (.malformed e)) = handler.discard peer s := by
  have hgoesOn : e.isFatal = false := by
    simpa [Answer.ending?] using he
  simp [hear, h, hgoesOn]

theorem hear_stops (h : s.ending = none) (hanswer : answer.ending? = some why) :
    handler.hear peer s answer = { s with ending := some why } := by
  unfold hear
  rw [h]
  cases answer with
  | item inbound =>
    cases inbound with
    | message p => cases hanswer
    | malformed e =>
      rw [Answer.ending?] at hanswer
      split at hanswer <;> cases hanswer
      rename_i hfatal
      exact if_pos hfatal
    | closed =>
      cases hanswer
      rfl
  | failed cause =>
    cases hanswer
    rfl
  | waiting => cases hanswer

theorem hear_goesOn (h : s.ending = none) (hitem : (Answer.item item).ending? = none) :
    (handler.hear peer s (.item item)).ending = none := by
  cases item with
  | message p =>
    rw [hear_message h, call]
    dsimp only
    split <;> exact h
  | malformed e =>
    rw [hear_malformed h hitem]
    exact h
  | closed => cases hitem

theorem foldl_hear_ended (h : s.ending = some why) (answers : List Answer) :
    answers.foldl (handler.hear peer) s = s := by
  induction answers with
  | nil => rfl
  | cons answer answers ih => rw [List.foldl_cons, hear_ended h, ih]

theorem loop_eq (n : Nat) (s : Receipt σ ε) (r : StreamReader) (reads : List Bytes) :
    handler.loop peer ending n s r reads =
      (calls ending n r reads).foldl (handler.hear peer) s := by
  induction n generalizing s r reads with
  | zero => rfl
  | succ n ih =>
    rw [loop]
    split
    · rename_i why hended
      rw [foldl_hear_ended hended]
    · rw [calls, List.foldl_cons]
      exact ih _ _ _

theorem callsFor_concat (w : σ) (heard : List Inbound) (item : Inbound) :
    handler.callsFor peer w (heard ++ [item]) = handler.callsFor peer w heard ++
      item.message?.toList.map fun p =>
        (p, (handler.onMessage (heard.foldl (handler.after peer) w) p).2) := by
  induction heard generalizing w with
  | nil => exact List.append_nil _
  | cons first heard ih =>
    rw [List.cons_append, callsFor, callsFor, ih, List.append_assoc]
    rfl

/-- The loop has heard these items: it has given the messages among them to the handler and nothing
else, and has counted what it discarded and told of it. -/
structure Accounts (handler : Handler σ ε) (peer : String) (w : σ) (heard : List Inbound)
    (s : Receipt σ ε) : Prop where
  called : s.calls.map (·.1) = heard.filterMap Inbound.message?
  said : s.calls = handler.callsFor peer w heard
  received : s.received = (heard.filterMap Inbound.message?).length
  discarded : s.discarded = s.refused + heard.countP Inbound.isMalformed
  notices : s.notices = List.replicate s.discarded (.packetDiscarded peer)
  world : s.world = heard.foldl (handler.after peer) w

theorem accounts_start (handler : Handler σ ε) (peer : String) (w : σ) :
    handler.Accounts peer w [] { world := w } :=
  ⟨rfl, rfl, rfl, rfl, rfl, rfl⟩

theorem Accounts.call (h : handler.Accounts peer w heard s) (p : Packet) :
    handler.Accounts peer w (heard ++ [Inbound.message p]) (handler.call peer s p) := by
  unfold Handler.call
  rcases hsaid : handler.onMessage s.world p with ⟨w', e | ⟨⟩⟩
  · refine ⟨?_, ?_, ?_, ?_, ?_, ?_⟩
    · simp [discard, h.called, Inbound.message?]
    · simp [discard, callsFor_concat, ← h.said, ← h.world, hsaid, Inbound.message?]
    · simp [discard, h.received, Inbound.message?]
    · simp [discard, Receipt.refused, Receipt.isRefusal, h.discarded, Inbound.isMalformed]
      omega
    · simp [discard, h.notices, List.replicate_succ']
    · simp [discard, after, ← h.world, hsaid]
  · refine ⟨?_, ?_, ?_, ?_, h.notices, ?_⟩
    · simp [h.called, Inbound.message?]
    · simp [callsFor_concat, ← h.said, ← h.world, hsaid, Inbound.message?]
    · simp [h.received, Inbound.message?]
    · simp [Receipt.refused, Receipt.isRefusal, h.discarded, Inbound.isMalformed]
    · simp [after, ← h.world, hsaid]

theorem Accounts.discard (h : handler.Accounts peer w heard s) (e : PacketError) :
    handler.Accounts peer w (heard ++ [Inbound.malformed e]) (handler.discard peer s) := by
  refine ⟨?_, ?_, ?_, ?_, ?_, ?_⟩
  · simp [Handler.discard, h.called, Inbound.message?]
  · simp [Handler.discard, callsFor_concat, ← h.said, Inbound.message?]
  · simp [Handler.discard, h.received, Inbound.message?]
  · simp [Handler.discard, Receipt.refused, Receipt.isRefusal, h.discarded, Inbound.isMalformed]
    omega
  · simp [Handler.discard, h.notices, List.replicate_succ']
  · simp [Handler.discard, after, ← h.world]

theorem Accounts.hear (h : handler.Accounts peer w heard s) (hopen : s.ending = none)
    (hitem : (Answer.item item).ending? = none) :
    handler.Accounts peer w (heard ++ [item]) (handler.hear peer s (.item item)) := by
  cases item with
  | message p =>
    rw [hear_message hopen]
    exact h.call p
  | malformed e =>
    rw [hear_malformed hopen hitem]
    exact h.discard e
  | closed => cases hitem

theorem Accounts.stop (h : handler.Accounts peer w heard s) (why : ReceiveEnd) :
    handler.Accounts peer w heard { s with ending := some why } :=
  ⟨h.called, h.said, h.received, h.discarded, h.notices, h.world⟩

/-- From where it is, the loop hears what is in front of the stop, and ends there. -/
theorem Accounts.loop {r : StreamReader} {reads : List Bytes} {more : List Inbound} {n : Nat}
    (h : handler.Accounts peer w heard s) (hopen : s.ending = none)
    (hstops : Stops ending r reads more why) (hturns : more.length < n) :
    handler.Accounts peer w (heard ++ more) (handler.loop peer ending n s r reads) ∧
      (handler.loop peer ending n s r reads).ending = some why := by
  induction more generalizing heard s r reads n with
  | nil =>
    obtain ⟨n, rfl⟩ := Nat.exists_eq_add_one.2 hturns
    have hstop : handler.hear peer s (r.next ending reads).1 = { s with ending := some why } :=
      hear_stops hopen hstops.nil
    rw [loop_eq, calls, List.foldl_cons, hstop, foldl_hear_ended rfl, List.append_nil]
    exact ⟨h.stop why, rfl⟩
  | cons item more ih =>
    obtain ⟨n, rfl⟩ := Nat.exists_eq_add_one.2 (Nat.zero_lt_of_lt hturns)
    obtain ⟨hnext, hrest⟩ := hstops.uncons
    have hitem := hstops.goesOn item (List.mem_cons_self ..)
    have hloop := ih (h.hear hopen hitem) (hear_goesOn hopen hitem) hrest
      (Nat.lt_of_succ_lt_succ hturns)
    rw [loop_eq, calls, List.foldl_cons, hnext, ← loop_eq, List.append_cons]
    exact hloop

end Handler

end JobBroker
