import JobBroker.Proofs.Run.Effects
import JobBroker.Proofs.Session.Receipt

/-! The discards in the log of a directory. What a directory does with a message tells of none, so
the log has those that the receive loop tells of, and no others. -/
namespace JobBroker

open StreamReader

/-- The handler of a peer's session acts on the directory, which takes the events as well. -/
def Endpoint.handler (endpoint : Endpoint) : Handler Directory EndpointError where
  onMessage d p := d.onMessage endpoint p
  notify := Directory.emit

def Event.isDiscard : Event → Bool
  | packetDiscarded _ => true
  | _ => false

namespace Directory

def discards (d : Directory) : List Event := d.log.filter Event.isDiscard

theorem discards_emit {e : Event} (h : e.isDiscard = false) (d : Directory) :
    (d.emit e).discards = d.discards := by
  simp [discards, emit, h]

theorem discards_emitAll {es : List Event} (h : ∀ e ∈ es, e.isDiscard = false) (d : Directory) :
    (d.emitAll es).discards = d.discards := by
  induction es generalizing d with
  | nil => rfl
  | cons e es ih =>
    have hrest := ih (fun e he => h e (List.mem_cons_of_mem _ he)) (d.emit e)
    exact hrest.trans (discards_emit (h e (List.mem_cons_self ..)) d)

theorem discards_submit (d : Directory) (id : Nat) (request : Job) :
    (d.submit id request).1.discards = d.discards := by
  unfold submit
  dsimp only
  split
  · rfl
  · rename_i hqueue
    obtain ⟨-, rfl⟩ := JobQueue.enqueue_ok hqueue
    rfl

theorem discards_complete (d : Directory) (id : Nat) (report : Job) :
    (d.complete id report).1.discards = d.discards := by
  unfold complete
  split
  · rfl
  · dsimp only
    split
    · rfl
    · rename_i hqueue
      obtain ⟨-, rfl⟩ := JobQueue.enqueue_ok hqueue
      rfl

theorem discards_onMessage (d : Directory) (endpoint : Endpoint) (p : Packet) :
    (d.onMessage endpoint p).1.discards = d.discards := by
  cases endpoint with
  | worker id =>
    unfold onMessage onWorkerMessage
    dsimp only
    split
    · rfl
    · rename_i report _
      have hcomplete := d.discards_complete id report
      split <;> simp_all
  | requester id =>
    unfold onMessage onRequesterMessage
    dsimp only
    split
    · rfl
    · rename_i request _
      have hsubmit := d.discards_submit id request
      split <;> simp_all

end Directory

namespace Handler
variable {endpoint : Endpoint} {peer : String} {d : Directory}
  {s : Receipt Directory EndpointError}

/-- The log has the discards that were told of. -/
def Logged (d : Directory) (s : Receipt Directory EndpointError) : Prop :=
  s.world.discards = s.notices.reverse ++ d.discards

theorem Logged.discard (h : Logged d s) : Logged d (endpoint.handler.discard peer s) := by
  have hemit : (s.world.emit (.packetDiscarded peer)).discards =
      .packetDiscarded peer :: s.world.discards := rfl
  have hnotices : (s.notices ++ [Event.packetDiscarded peer]).reverse =
      .packetDiscarded peer :: s.notices.reverse := List.reverse_concat ..
  rw [Logged] at h
  rw [Logged, Handler.discard]
  dsimp only [Endpoint.handler]
  rw [hemit, h, hnotices, List.cons_append]

theorem Logged.call (h : Logged d s) (p : Packet) :
    Logged d (endpoint.handler.call peer s p) := by
  have hkept := s.world.discards_onMessage endpoint p
  unfold Handler.call
  dsimp only [Endpoint.handler]
  rcases hsaid : s.world.onMessage endpoint p with ⟨world, e | ⟨⟩⟩
  · rw [hsaid] at hkept
    exact Logged.discard (hkept.trans h)
  · rw [hsaid] at hkept
    exact hkept.trans h

theorem Logged.hear (h : Logged d s) (answer : Answer) :
    Logged d (endpoint.handler.hear peer s answer) := by
  unfold Handler.hear
  split
  · exact h
  · split
    · exact h.call _
    · split
      · exact h
      · exact h.discard
    · exact h
    · exact h
    · exact h

theorem Logged.foldl (h : Logged d s) (answers : List Answer) :
    Logged d (answers.foldl (endpoint.handler.hear peer) s) := by
  induction answers generalizing s with
  | nil => exact h
  | cons answer answers ih => exact ih (h.hear answer)

theorem logged_loop (endpoint : Endpoint) (peer : String) (d : Directory) (ending : Ending)
    (turns : Nat) (r : StreamReader) (reads : List Bytes) :
    Logged d (endpoint.handler.loop peer ending turns { world := d } r reads) := by
  have hstart : Logged d { world := d } := rfl
  rw [loop_eq]
  exact hstart.foldl _

end Handler

end JobBroker
