import JobBroker.Message.Assembler
/-!
Messages out of a stream of bytes. The reader pulls: it gives what it holds before it reads on,
first what was deferred, then the packets that wait.
-/
namespace JobBroker

inductive Inbound where
  | message (packet : Packet)
  /-- Bytes or packets that were discarded. -/
  | malformed (cause : PacketError)
  /-- The peer has ended its stream. -/
  | closed
  deriving DecidableEq, Repr

def Inbound.ofDecoded : Decoded → Inbound
  | .ok p => .message p
  | .error e => .malformed e

inductive Ending where
  /-- More may come. -/
  | unknown
  | endOfStream
  | failure (cause : String)
  deriving DecidableEq, Repr

structure StreamReader where
  decoder : Decoder := .start
  assembler : Assembler := {}
  /-- The packets and faults that wait, oldest first. -/
  pending : List Decoded := []
  /-- Whether the end of the stream has been seen. -/
  closed : Bool := false

namespace StreamReader

def takePending (a : Assembler) : List Decoded → Option Inbound × Assembler × List Decoded
  | [] => (none, a, [])
  | .error e :: rest => (some (.malformed e), a, rest)
  | .ok p :: rest =>
    match a.accept p with
    | (a, some outcome) => (some (.ofDecoded outcome), a, rest)
    | (a, none) => takePending a rest

def buffered (r : StreamReader) : Option Inbound × StreamReader :=
  match r.assembler.deferred with
  | some outcome =>
    (some (.ofDecoded outcome), { r with assembler := { r.assembler with deferred := none } })
  | none =>
    let (item, a, rest) := takePending r.assembler r.pending
    (item, { r with assembler := a, pending := rest })

def take (r : StreamReader) (bytes : Bytes) : StreamReader :=
  let (d, outcomes) := r.decoder.feed bytes
  { r with decoder := d, pending := r.pending ++ outcomes }

def isUnfinished (r : StreamReader) : Bool := r.decoder.inPacket || r.assembler.inProgress

def finish (r : StreamReader) : Inbound × StreamReader :=
  (if r.isUnfinished then .malformed .truncated else .closed, { r with closed := true })

inductive Answer where
  | item (inbound : Inbound)
  | failed (cause : String)
  /-- Nothing will come before more bytes do. -/
  | waiting
  deriving DecidableEq, Repr

def atEnd (ending : Ending) (r : StreamReader) : Answer × StreamReader :=
  match ending with
  | .unknown => (.waiting, r)
  | .failure cause => (.failed cause, r)
  | .endOfStream => (.item r.finish.1, r.finish.2)

/-- Give the next item, reading on where need be, and the reads that are left. A read without
bytes is the end of the stream, and a failure is met again by every later call. -/
def next (ending : Ending) (r : StreamReader) : List Bytes → Answer × StreamReader × List Bytes
  | [] =>
    match r.buffered with
    | (some item, r) => (.item item, r, [])
    | (none, r) =>
      if r.closed then (.item .closed, r, [])
      else ((r.atEnd ending).1, (r.atEnd ending).2, [])
  | read :: rest =>
    match r.buffered with
    | (some item, r) => (.item item, r, read :: rest)
    | (none, r) =>
      if r.closed then (.item .closed, r, read :: rest)
      else if read.isEmpty then (.item r.finish.1, r.finish.2, rest)
      else next ending (r.take read) rest

/-- How much the reader holds: two for a waiting packet, one for what was deferred. -/
def weight (r : StreamReader) : Nat :=
  2 * r.pending.length + (if r.assembler.deferred.isSome then 1 else 0)

theorem takePending_length {a a' : Assembler} {ps rest : List Decoded} {i : Inbound}
    (h : takePending a ps = (some i, a', rest)) : rest.length < ps.length := by
  induction ps generalizing a with
  | nil => simp [takePending] at h
  | cons p ps ih =>
    cases p with
    | error e =>
      simp only [takePending, Prod.mk.injEq] at h
      simp [h.2.2]
    | ok p =>
      simp only [takePending] at h
      split at h
      · simp only [Prod.mk.injEq] at h
        simp [h.2.2]
      · have := ih h
        simp only [List.length_cons]
        omega

theorem weight_buffered {r r' : StreamReader} {i : Inbound}
    (h : r.buffered = (some i, r')) : r'.weight < r.weight := by
  unfold buffered at h
  split at h
  · rename_i outcome hd
    simp only [Prod.mk.injEq] at h
    obtain ⟨_, rfl⟩ := h
    simp [weight, hd]
  · rename_i hd
    rcases ht : takePending r.assembler r.pending with ⟨item, a, rest⟩
    simp only [ht, Prod.mk.injEq] at h
    obtain ⟨rfl, rfl⟩ := h
    have := takePending_length ht
    simp only [weight, hd, Option.isSome_none]
    split <;> simp <;> omega

def drain (r : StreamReader) : List Inbound × StreamReader :=
  match _h : r.buffered with
  | (none, r) => ([], r)
  | (some item, r') =>
    let (items, r) := r'.drain
    (item :: items, r)
termination_by r.weight
decreasing_by exact weight_buffered _h

def last (r : StreamReader) : List Inbound :=
  if r.isUnfinished then [.malformed .truncated, .closed] else [.closed]

/-- Everything that the reader gives for the reads of a stream. A stream that does not end well
gives nothing more after its last read. -/
def itemsOf (endsWell : Bool) (r : StreamReader) : List Bytes → List Inbound
  | [] => if endsWell then r.drain.1 ++ r.drain.2.last else r.drain.1
  | read :: rest =>
    if read.isEmpty then r.drain.1 ++ r.drain.2.last
    else r.drain.1 ++ (r.drain.2.take read).itemsOf endsWell rest

end StreamReader
end JobBroker
