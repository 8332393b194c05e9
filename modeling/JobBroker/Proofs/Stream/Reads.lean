import JobBroker.Stream.Reader
import JobBroker.Proofs.Message.Gathering
import JobBroker.Proofs.Packet.Frame

/-! What a reader gives for a stream does not depend on how the stream is cut into reads: it is what
the assembler makes of what the decoder makes of all bytes, and then the end. -/
namespace JobBroker

namespace Assembler

def cleared (a : Assembler) : Assembler := { a with deferred := none }

theorem cleared_eq {a : Assembler} (h : a.deferred = none) : a.cleared = a := by
  rw [cleared, ← h]

theorem accept_deferred {a a' : Assembler} {p : Packet} (h : a.accept p = (a', none)) :
    a'.deferred = a.deferred := by
  unfold accept at h
  split at h
  · cases h
  · split at h
    · rw [← addSequenced_deferred a p, h]
    · split at h
      · rw [← addSequenced_deferred a p, h]
      · cases h

theorem hear_ok {a a' : Assembler} {p : Packet} {outcome : Option Decoded}
    (h : a.accept p = (a', outcome)) :
    a.hear (.ok p) = (a'.cleared, outcome.toList ++ a'.deferred.toList) := by
  rw [hear, h]
  rfl

theorem hear_deferred {a : Assembler} (h : a.deferred = none) (d : Decoded) :
    (a.hear d).1.deferred = none := by
  cases d with
  | error e => exact h
  | ok p => rfl

theorem hearAll_deferred {a : Assembler} (h : a.deferred = none) (ds : List Decoded) :
    (a.hearAll ds).1.deferred = none := by
  induction ds generalizing a with
  | nil => exact h
  | cons d ds ih => exact ih (hear_deferred h d)

end Assembler

namespace StreamReader

theorem takePending_none {a a' : Assembler} {ps rest : List Decoded} (hidle : a.deferred = none)
    (h : takePending a ps = (none, a', rest)) : rest = [] ∧ a.hearAll ps = (a', []) := by
  induction ps generalizing a with
  | nil =>
    cases h
    exact ⟨rfl, rfl⟩
  | cons p ps ih =>
    cases p with
    | error e => cases h
    | ok p =>
      rw [takePending] at h
      split at h
      · cases h
      · rename_i mid haccept
        have hmid : mid.deferred = none := by rw [Assembler.accept_deferred haccept, hidle]
        obtain ⟨hrest, hhear⟩ := ih hmid h
        refine ⟨hrest, ?_⟩
        simp [Assembler.hearAll, Assembler.hear_ok haccept, Assembler.cleared_eq hmid, hmid, hhear]

theorem takePending_some {a a' : Assembler} {ps rest : List Decoded} {item : Inbound}
    (hidle : a.deferred = none) (h : takePending a ps = (some item, a', rest)) :
    ∃ outcome, item = .ofDecoded outcome ∧ a.hearAll ps =
      ((a'.cleared.hearAll rest).1,
        outcome :: (a'.deferred.toList ++ (a'.cleared.hearAll rest).2)) := by
  induction ps generalizing a with
  | nil => cases h
  | cons p ps ih =>
    cases p with
    | error e =>
      cases h
      refine ⟨.error e, rfl, ?_⟩
      rw [Assembler.hearAll, Assembler.hear, Assembler.cleared_eq hidle, hidle]
      rfl
    | ok p =>
      rw [takePending] at h
      split at h
      · rename_i mid outcome haccept
        cases h
        refine ⟨outcome, rfl, ?_⟩
        rw [Assembler.hearAll, Assembler.hear_ok haccept]
        rfl
      · rename_i mid haccept
        have hmid : mid.deferred = none := by rw [Assembler.accept_deferred haccept, hidle]
        obtain ⟨outcome, hitem, hhear⟩ := ih hmid h
        refine ⟨outcome, hitem, ?_⟩
        simp [Assembler.hearAll, Assembler.hear_ok haccept, Assembler.cleared_eq hmid, hmid, hhear]

theorem drain_eq (r : StreamReader) :
    r.drain = ((r.assembler.deferred.toList ++
        (r.assembler.cleared.hearAll r.pending).2).map .ofDecoded,
      { r with assembler := (r.assembler.cleared.hearAll r.pending).1, pending := [] }) := by
  fun_induction drain r with
  | case1 r r' hbuffered =>
    unfold buffered at hbuffered
    split at hbuffered
    · cases hbuffered
    · rename_i hidle
      rcases htake : takePending r.assembler r.pending with ⟨item, a, rest⟩
      rw [htake] at hbuffered
      cases hbuffered
      obtain ⟨rfl, hhear⟩ := takePending_none hidle htake
      rw [Assembler.cleared_eq hidle, hhear, hidle]
      rfl
  | case2 r item r' hbuffered items final hdrain ih =>
    obtain ⟨rfl, rfl⟩ := Prod.mk.inj (hdrain.symm.trans ih)
    unfold buffered at hbuffered
    split at hbuffered
    · rename_i outcome hdeferred
      cases hbuffered
      rw [hdeferred]
      rfl
    · rename_i hidle
      rcases htake : takePending r.assembler r.pending with ⟨item, a, rest⟩
      rw [htake] at hbuffered
      cases hbuffered
      obtain ⟨outcome, rfl, hhear⟩ := takePending_some hidle htake
      rw [Assembler.cleared_eq hidle, hhear, hidle]
      rfl

structure Idle (r : StreamReader) : Prop where
  deferred : r.assembler.deferred = none
  pending : r.pending = []

theorem idle_drain (r : StreamReader) : r.drain.2.Idle := by
  rw [drain_eq]
  exact ⟨Assembler.hearAll_deferred rfl _, rfl⟩

def after (r : StreamReader) (bytes : Bytes) : List Inbound × StreamReader :=
  let (decoder, outcomes) := r.decoder.feed bytes
  let (assembler, given) := r.assembler.hearAll outcomes
  (given.map .ofDecoded, { r with decoder := decoder, assembler := assembler, pending := [] })

theorem drain_take {r : StreamReader} (h : r.Idle) (bytes : Bytes) :
    (r.take bytes).drain = r.after bytes := by
  rw [drain_eq]
  simp only [take, h.pending, List.nil_append, h.deferred, Assembler.cleared_eq h.deferred]
  rfl

theorem after_append (r : StreamReader) (xs ys : Bytes) :
    r.after (xs ++ ys) =
      ((r.after xs).1 ++ ((r.after xs).2.after ys).1, ((r.after xs).2.after ys).2) := by
  simp only [after, Decoder.feed_append, Assembler.hearAll_append, List.map_append]

@[simp] theorem take_nil (r : StreamReader) : r.take [] = r := by simp [take]

theorem itemsOf_take {r : StreamReader} (h : r.Idle) (bytes : Bytes) (reads : List Bytes)
    (hne : [] ∉ reads) :
    (r.take bytes).itemsOf true reads =
      (r.after (bytes ++ reads.flatten)).1 ++ (r.after (bytes ++ reads.flatten)).2.last := by
  induction reads generalizing r bytes with
  | nil => rw [itemsOf, if_pos rfl, drain_take h, List.flatten_nil, List.append_nil]
  | cons read reads ih =>
    have hread : read.isEmpty = false := by
      cases read with
      | nil => exact absurd (List.mem_cons_self ..) hne
      | cons b read => rfl
    have hidle : (r.after bytes).2.Idle := by
      rw [← drain_take h]
      exact idle_drain _
    have hrest := ih hidle read fun hmem => hne (List.mem_cons_of_mem _ hmem)
    rw [itemsOf, hread, if_neg (by simp), drain_take h, hrest, List.flatten_cons,
      after_append r bytes, List.append_assoc]

/-- However a stream is cut into reads, a reader gives the same for it. -/
theorem itemsOf_eq {r : StreamReader} (h : r.Idle) (reads : List Bytes) (hne : [] ∉ reads) :
    r.itemsOf true reads =
      (r.after reads.flatten).1 ++ (r.after reads.flatten).2.last := by
  have hnone := itemsOf_take h [] reads hne
  rwa [take_nil] at hnone

/-! Successive calls give the items one by one, and after the last of them that the stream is
closed. -/

def calls (ending : Ending) : Nat → StreamReader → List Bytes → List Answer
  | 0, _, _ => []
  | n + 1, r, reads =>
    (r.next ending reads).1 :: calls ending n (r.next ending reads).2.1 (r.next ending reads).2.2

theorem drain_none {r r' : StreamReader} (h : r.buffered = (none, r')) : r.drain = ([], r') := by
  rw [drain]
  split
  · rename_i h'
    rw [h] at h'
    cases h'
    rfl
  · rename_i h'
    rw [h] at h'
    cases h'

theorem drain_some {r r' : StreamReader} {item : Inbound} (h : r.buffered = (some item, r')) :
    r.drain = (item :: r'.drain.1, r'.drain.2) := by
  rw [drain]
  split
  · rename_i h'
    rw [h] at h'
    cases h'
  · rename_i h'
    rw [h] at h'
    cases h'
    rfl

theorem buffered_closed (r : StreamReader) : r.buffered.2.closed = r.closed := by
  unfold buffered
  split <;> rfl

theorem buffered_none {r r' : StreamReader} (h : r.buffered = (none, r')) :
    r'.Idle ∧ r'.closed = r.closed := by
  have hidle := idle_drain r
  rw [drain_none h] at hidle
  rw [← buffered_closed r, h]
  exact ⟨hidle, rfl⟩

theorem buffered_some {r r' : StreamReader} {item : Inbound} (h : r.buffered = (some item, r')) :
    r'.closed = r.closed := by
  rw [← buffered_closed r, h]

theorem itemsOf_some {r r' : StreamReader} {item : Inbound} (h : r.buffered = (some item, r'))
    (reads : List Bytes) : r.itemsOf true reads = item :: r'.itemsOf true reads := by
  cases reads with
  | nil => rw [itemsOf, itemsOf, drain_some h]; rfl
  | cons read reads =>
    rw [itemsOf, itemsOf, drain_some h]
    split <;> rfl

theorem buffered_idle {r : StreamReader} (h : r.Idle) : r.buffered = (none, r) := by
  obtain ⟨decoder, assembler, pending, closed⟩ := r
  obtain ⟨hdeferred, hpending⟩ := h
  dsimp only at hdeferred hpending
  subst hpending
  simp [buffered, hdeferred, takePending]

theorem next_some {r r' : StreamReader} {item : Inbound} (h : r.buffered = (some item, r'))
    (ending : Ending) (reads : List Bytes) : r.next ending reads = (.item item, r', reads) := by
  cases reads <;> rw [next, h]

theorem next_none {r r' : StreamReader} (h : r.buffered = (none, r')) (ending : Ending)
    (reads : List Bytes) : r.next ending reads = r'.next ending reads := by
  have hidle := buffered_idle (buffered_none h).1
  cases reads <;> rw [next, next, h, hidle]

theorem next_read {r : StreamReader} {read : Bytes} (h : r.Idle) (hopen : r.closed = false)
    (hread : read ≠ []) (ending : Ending) (rest : List Bytes) :
    r.next ending (read :: rest) = (r.take read).next ending rest := by
  have hsome : read.isEmpty = false := List.isEmpty_eq_false_iff.2 hread
  rw [next, buffered_idle h]
  simp [hopen, hsome]

theorem next_end {r : StreamReader} (h : r.Idle) (hopen : r.closed = false) (ending : Ending) :
    r.next ending [] = ((r.atEnd ending).1, (r.atEnd ending).2, []) := by
  rw [next, buffered_idle h]
  simp [hopen]

theorem next_empty {r : StreamReader} (h : r.Idle) (hopen : r.closed = false) (ending : Ending)
    (rest : List Bytes) : r.next ending ([] :: rest) = (.item r.finish.1, r.finish.2, rest) := by
  rw [next, buffered_idle h]
  simp [hopen]

theorem next_closed {r : StreamReader} (h : r.Idle) (hclosed : r.closed = true) (ending : Ending)
    (reads : List Bytes) : r.next ending reads = (.item .closed, r, reads) := by
  cases reads <;> simp [next, buffered_idle h, hclosed]

theorem calls_closed {r : StreamReader} (h : r.Idle) (hclosed : r.closed = true) (ending : Ending)
    (n : Nat) (reads : List Bytes) :
    calls ending n r reads = List.replicate n (.item .closed) := by
  induction n with
  | zero => rfl
  | succ n ih => rw [calls, next_closed h hclosed, List.replicate_succ, ih]

theorem last_eq (r : StreamReader) : ∃ k, r.last = r.finish.1 :: List.replicate k .closed := by
  unfold last finish
  split
  · exact ⟨1, rfl⟩
  · exact ⟨0, rfl⟩

theorem next_eq {r : StreamReader} (hopen : r.closed = false) (reads : List Bytes) :
    ∃ item r' rest, r.next .endOfStream reads = (.item item, r', rest) ∧
      ((r'.closed = false ∧ r.itemsOf true reads = item :: r'.itemsOf true rest) ∨
        (r'.Idle ∧ r'.closed = true ∧
          ∃ k, r.itemsOf true reads = item :: List.replicate k .closed)) := by
  induction reads generalizing r with
  | nil =>
    rcases hbuffered : r.buffered with ⟨_ | item, r'⟩
    · obtain ⟨hidle, hclosed⟩ := buffered_none hbuffered
      rw [hopen] at hclosed
      obtain ⟨k, hlast⟩ := r'.last_eq
      refine ⟨r'.finish.1, r'.finish.2, [], ?_, .inr ⟨⟨hidle.deferred, hidle.pending⟩, rfl, k, ?_⟩⟩
      · rw [next_none hbuffered, next_end hidle hclosed]
        rfl
      · simp [itemsOf, drain_none hbuffered, hlast]
    · exact ⟨item, r', [], next_some hbuffered _ _,
        .inl ⟨(buffered_some hbuffered).trans hopen, itemsOf_some hbuffered []⟩⟩
  | cons read reads ih =>
    rcases hbuffered : r.buffered with ⟨_ | item, r'⟩
    · obtain ⟨hidle, hclosed⟩ := buffered_none hbuffered
      rw [hopen] at hclosed
      rw [next_none hbuffered]
      by_cases hread : read = []
      · subst hread
        obtain ⟨k, hlast⟩ := r'.last_eq
        refine ⟨r'.finish.1, r'.finish.2, reads, next_empty hidle hclosed _ _,
          .inr ⟨⟨hidle.deferred, hidle.pending⟩, rfl, k, ?_⟩⟩
        simp [itemsOf, drain_none hbuffered, hlast]
      · -- The reader goes on with more bytes, and gives the first item that comes of them.
        have htake : (r'.take read).closed = false := hclosed
        obtain ⟨item, r'', rest, hnext, hitems⟩ := ih htake
        refine ⟨item, r'', rest, (next_read hidle hclosed hread _ _).trans hnext, ?_⟩
        simpa [itemsOf, drain_none hbuffered, hread] using hitems
    · exact ⟨item, r', read :: reads, next_some hbuffered _ _,
        .inl ⟨(buffered_some hbuffered).trans hopen, itemsOf_some hbuffered (read :: reads)⟩⟩

theorem calls_eq {r : StreamReader} (hopen : r.closed = false) (reads : List Bytes) (n : Nat) :
    calls .endOfStream ((r.itemsOf true reads).length + n) r reads =
      (r.itemsOf true reads).map Answer.item ++ List.replicate n (Answer.item .closed) := by
  induction hitems : r.itemsOf true reads generalizing r reads with
  | nil =>
    obtain ⟨item, r', rest, -, ⟨-, hcons⟩ | ⟨-, -, k, hcons⟩⟩ := next_eq hopen reads
    · rw [hitems] at hcons
      cases hcons
    · rw [hitems] at hcons
      cases hcons
  | cons item items ih =>
    rw [List.length_cons, Nat.add_right_comm, calls]
    obtain ⟨item', r', rest, hnext, ⟨hstill, hcons⟩ | ⟨hidle, hclosed, k, hcons⟩⟩ :=
      next_eq hopen reads
    · rw [hitems] at hcons
      obtain ⟨rfl, hrest⟩ := List.cons.inj hcons
      rw [hnext, ih hstill rest hrest.symm]
      rfl
    · rw [hitems] at hcons
      obtain ⟨rfl, rfl⟩ := List.cons.inj hcons
      rw [hnext, calls_closed hidle hclosed, List.length_replicate, List.map_cons,
        List.map_replicate, List.cons_append, List.replicate_append_replicate]

theorem calls_take (ending : Ending) (n k : Nat) (r : StreamReader) (reads : List Bytes) :
    (calls ending (n + k) r reads).take n = calls ending n r reads := by
  induction n generalizing r reads with
  | zero => rfl
  | succ n ih => rw [Nat.add_right_comm, calls, calls, List.take_succ_cons, ih]

/-! A whole stream at once. -/

/-- What a stream amounts to: what the decoder makes of all of its bytes goes through the assembler
one by one, and what each packet defers comes right behind what it yields. A stream may not end
inside a packet or a message. -/
def ofWhole (bytes : Bytes) : List Inbound :=
  let (decoder, decoded) := Decoder.start.feed bytes
  let (assembler, outcomes) := Assembler.hearAll {} decoded
  outcomes.map .ofDecoded ++
    if decoder.inPacket || assembler.inProgress then [.malformed .truncated] else []

theorem itemsOf_whole (reads : List Bytes) (hne : [] ∉ reads) :
    ({} : StreamReader).itemsOf true reads = ofWhole reads.flatten ++ [.closed] := by
  rw [itemsOf_eq ⟨rfl, rfl⟩ reads hne, last, ofWhole, isUnfinished, after]
  dsimp only
  split <;> simp

/-- However a stream is cut into reads, the calls of a reader give what the stream amounts to as a
whole, one by one, and that it is closed from then on. -/
theorem calls_whole (reads : List Bytes) (hne : [] ∉ reads) (n : Nat) :
    calls .endOfStream n {} reads =
      ((ofWhole reads.flatten ++ List.replicate n Inbound.closed).take n).map Answer.item := by
  have hall := calls_eq (r := {}) rfl reads n
  rw [itemsOf_whole reads hne, List.length_append, List.length_singleton] at hall
  have hclosed : [Answer.item .closed] ++ List.replicate n (Answer.item .closed) =
      List.replicate n (Answer.item .closed) ++ [Answer.item .closed] := by
    rw [← List.replicate_one, List.replicate_append_replicate, List.replicate_append_replicate,
      Nat.add_comm]
  rw [← calls_take .endOfStream n ((ofWhole reads.flatten).length + 1), Nat.add_comm n, hall]
  rw [List.map_append, List.append_assoc, List.map_singleton, hclosed, ← List.append_assoc,
    List.take_append_of_le_length (by simp), List.map_take, List.map_append, List.map_replicate]

/-- The first packet of a message of two, the only packet of another, and the beginning of a
length. -/
def interrupted : Bytes :=
  Text.utf8 ("(41)JOB_ID:1,SEQUENCE_NUM:0,TOTAL_PACKETS:2\na".toList ++
    "(41)JOB_ID:2,SEQUENCE_NUM:0,TOTAL_PACKETS:1\nb(9".toList)

/-- Read byte by byte, the second packet reports the first message as abandoned, its own message
follows before anything else, and the stream ends too early. -/
theorem calls_whole_bytewise :
    [] ∉ interrupted.map (fun b => [b]) ∧
      calls .endOfStream 5 {} (interrupted.map fun b => [b]) =
        [.item (.malformed (.incompleteMessage 1 2)),
          .item (.message { args := { jobId := some (.scalar "2") }, message := [98] }),
          .item (.malformed .truncated), .item .closed, .item .closed] := by
  have hne : [] ∉ interrupted.map (fun b => [b]) := by simp
  have hcut : (interrupted.map fun b => [b]).flatten = interrupted := by
    rw [← List.flatMap_def, List.flatMap_singleton']
  have hwhole : ofWhole interrupted = [.malformed (.incompleteMessage 1 2),
      .message { args := { jobId := some (.scalar "2") }, message := [98] },
      .malformed .truncated] := by
    decide +kernel
  refine ⟨hne, ?_⟩
  rw [calls_whole _ hne, hcut, hwhole]
  rfl

end StreamReader

end JobBroker
