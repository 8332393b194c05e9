import JobBroker.Proofs.Message.Gathering

/-! A message rebuilt from its packets in any order, however often each of them comes and whichever
do not come at all. Some may state a place outside of the message and fill no slot. What has come
together depends only on which places were filled, but for the mark, which is the latest. -/
namespace JobBroker

/-- A packet of a message as it may arrive: as it is, or marked as the last one sent, and with its
own place, or astray with one that the message does not have. -/
structure Copy (packets : List Packet) where
  chunk : Fin packets.length
  astray : Option { place : Nat // packets.length ≤ place } := none
  marked : Bool := false

namespace Copy
variable {packets : List Packet}

def packet (c : Copy packets) : Packet :=
  let p := packets.get c.chunk
  let p := if c.marked then p.setCompleted true else p
  match c.astray with
  | none => p
  | some place => p.set .sequenceNum (.ofNat place)

def seq? (c : Copy packets) : Option Nat :=
  match c.astray with
  | none => some c.chunk
  | some _ => none

def place (c : Copy packets) : Nat :=
  match c.astray with
  | none => c.chunk
  | some place => place

theorem seq?_lt {c : Copy packets} {seq : Nat} (h : c.seq? = some seq) :
    seq < packets.length := by
  unfold seq? at h
  split at h
  · cases h
    exact c.chunk.isLt
  · cases h

def gathered (copies : List (Copy packets)) : Reassembly :=
  copies.foldl (fun r c => (r.add c.packet).1) {}

end Copy

namespace Chunked
variable {m : Chunked} {seq place : Nat} {heard : List Nat} {args : Packet} {mark : Bool}

theorem opened_eq_of_mem_iff {heard' : List Nat} (h : ∀ seq, seq ∈ heard ↔ seq ∈ heard') :
    m.opened args heard = m.opened args heard' := by
  simp only [opened, h]

theorem fill_full (h : seq < m.total) (hold : seq ∈ heard) (p : Packet) :
    (m.opened args heard).fill seq p = m.opened args heard := by
  have hlt : seq < m.pieces.length := h
  have hslot : (m.opened args heard).slots[seq]? = some (some m.pieces[seq]) := by
    simp [opened, h, hold, hlt]
  rw [Reassembly.fill, hslot]

theorem fill_outside (h : m.total ≤ place) (p : Packet) :
    (m.opened args heard).fill place p = m.opened args heard := by
  have hslot : (m.opened args heard).slots[place]? = none := by
    simp [opened, h]
  rw [Reassembly.fill, hslot]

theorem add_again (before : Bool) (h : seq < m.total) (hold : seq ∈ heard) :
    Reassembly.add (m.opened (m.merged before) heard) (m.sent seq seq mark) =
      (m.opened (m.merged mark) heard, .ok ()) := by
  have hword : seq ≤ Decimal.maxWord := Nat.le_trans (Nat.le_of_lt h) total_le_maxWord
  rw [Reassembly.add, noteCompleted_merged]
  simp only [sequenceNum_sent hword, fixSlots_next, toNat_ofNat_place h, fill_full h hold]

theorem add_astray (before : Bool) (h : m.total ≤ place) :
    let next := Reassembly.add (m.opened (m.merged before) heard) (m.sent seq place mark)
    next.1 = m.opened (m.merged mark) heard ∧ (place ≤ Decimal.maxWord → next.2 = .ok ()) := by
  dsimp only
  have hscalar : (m.sent seq place mark).scalar? .sequenceNum = some (Decimal.write place) := by
    simp [Packet.scalar?, get?_sent, Value.ofNat, Value.scalar?]
  rw [Reassembly.add, noteCompleted_merged]
  cases hword : Decimal.word? (Decimal.write place) with
  | none =>
    have hnumber : (m.sent seq place mark).number .sequenceNum =
        .error (.invalidValue .sequenceNum (Decimal.write place)) := by
      simp only [Packet.number, hscalar, hword]
    rw [hnumber]
    refine ⟨rfl, fun hfits => ?_⟩
    rw [Decimal.word?_write hfits] at hword
    cases hword
  | some n =>
    have hnumber : (m.sent seq place mark).number .sequenceNum = .ok (some n) := by
      simp only [Packet.number, hscalar, hword]
    have hfar : m.total ≤ n.toNat := by rwa [Decimal.word?_write_some hword]
    simp only [hnumber, fixSlots_next, fill_outside hfar, and_self, implies_true]

end Chunked

/-! A copy is a packet of the message, with a place and a mark. -/

/-- The packets are those of the message, before one of them is marked. -/
structure Chunked.Sends (m : Chunked) (packets : List Packet) : Prop where
  length_eq : packets.length = m.total
  get_eq : ∀ i : Fin packets.length, packets.get i = m.sent i i false

theorem Chunked.sends_splitMessage {template : Packet} {message : Bytes} {size : Nat}
    (unplaced : template.Unplaced) (few : (chunks size message).length ≤ maxMessagePackets)
    (nonempty : message ≠ []) :
    (ofMessage template message size unplaced few).Sends (splitMessage template message size) := by
  have hlength := length_splitMessage template nonempty size
  refine ⟨hlength, fun i => ?_⟩
  have hlt : i.val < (chunks size message).length := hlength ▸ i.isLt
  simp [splitMessage_eq template nonempty, sent, ofMessage, total, Packet.ofChunk, hlt]

section Copies
variable {m : Chunked} {packets : List Packet} (h : m.Sends packets)
include h

theorem Chunked.Sends.packet_eq (c : Copy packets) :
    c.packet = m.sent c.chunk c.place c.marked := by
  have hmarked : (if c.marked then (packets.get c.chunk).setCompleted true
      else packets.get c.chunk) = m.sent c.chunk c.chunk c.marked := by
    rw [h.get_eq]
    cases c.marked with
    | false => rfl
    | true =>
      refine Packet.ext_get? (fun k => ?_) rfl
      simp only [if_true, Packet.get?_setCompleted, Chunked.get?_sent]
      by_cases hk : k = .completed <;> simp [hk]
  rw [Copy.packet, hmarked, Copy.place]
  cases c.astray with
  | none => rfl
  | some place =>
    refine Packet.ext_get? (fun k => ?_) rfl
    simp only [Packet.get?_set, Chunked.get?_sent]
    split <;> rfl

theorem Chunked.Sends.add_copy (before : Bool) (heard : List Nat) (c : Copy packets) :
    let next := Reassembly.add (m.opened (m.merged before) heard) c.packet
    next.1 = m.opened (m.merged c.marked) (heard ++ c.seq?.toList) ∧
      (c.place ≤ Decimal.maxWord → next.2 = .ok ()) := by
  rw [h.packet_eq, Copy.place, Copy.seq?]
  cases c.astray with
  | some place =>
    have hfar : m.total ≤ place.1 := h.length_eq ▸ place.2
    simpa using Chunked.add_astray before hfar
  | none =>
    have hlt : c.chunk.val < m.total := h.length_eq ▸ c.chunk.isLt
    by_cases hold : c.chunk.val ∈ heard
    · have hsame : m.opened (m.merged c.marked) (heard ++ [c.chunk.val]) =
          m.opened (m.merged c.marked) heard :=
        Chunked.opened_eq_of_mem_iff fun seq => by
          rw [List.mem_append, List.mem_singleton]
          exact or_iff_left_of_imp fun hseq => hseq ▸ hold
      simp [Chunked.add_again before hlt hold, hsame]
    · simp [Chunked.add_filling before hlt hold]

theorem Chunked.Sends.add_first {c : Copy packets} (proper : c.astray = none) :
    Reassembly.add {} c.packet = (m.opened (m.merged c.marked) [c.chunk.val], .ok ()) := by
  have hlt : c.chunk.val < m.total := h.length_eq ▸ c.chunk.isLt
  have hplace : c.place = c.chunk := by rw [Copy.place, proper]
  rw [h.packet_eq, hplace, Chunked.add_opening hlt]

theorem Chunked.Sends.gathered_eq (first : Copy packets) (rest : List (Copy packets))
    (proper : first.astray = none) :
    Copy.gathered (first :: rest) =
      m.opened (m.merged ((first :: rest).getLast (List.cons_ne_nil _ _)).marked)
        ((first :: rest).filterMap Copy.seq?) := by
  induction rest using List.reverseRecOn with
  | nil =>
    have hseq : first.seq? = some first.chunk.val := by rw [Copy.seq?, proper]
    simp [Copy.gathered, h.add_first proper, hseq]
  | append_singleton rest c ih =>
    have hstep : Copy.gathered (first :: (rest ++ [c])) =
        ((Copy.gathered (first :: rest)).add c.packet).1 := by
      simp [Copy.gathered]
    have hseqs : ((first :: (rest ++ [c])).filterMap Copy.seq?) =
        (first :: rest).filterMap Copy.seq? ++ c.seq?.toList := by
      rw [← List.cons_append, List.filterMap_append]
      cases hseq : c.seq? <;> simp [hseq]
    have hlast : (first :: (rest ++ [c])).getLast (List.cons_ne_nil _ _) = c := by simp
    rw [hstep, ih, (h.add_copy _ _ c).1, hseqs, hlast]

theorem Chunked.Sends.addAll_opened (copies : List (Copy packets)) (before : Bool)
    (heard : List Nat) (fits : ∀ c ∈ copies, c.place ≤ Decimal.maxWord) :
    Reassembly.addAll (m.opened (m.merged before) heard) (copies.map Copy.packet) =
      (copies.foldl (fun r c => (r.add c.packet).1) (m.opened (m.merged before) heard),
        .ok ()) := by
  induction copies generalizing before heard with
  | nil => rfl
  | cons c copies ih =>
    obtain ⟨hc, hrest⟩ := List.forall_mem_cons.1 fits
    obtain ⟨hnext, hok⟩ := h.add_copy before heard c
    have hadd : Reassembly.add (m.opened (m.merged before) heard) c.packet =
        (m.opened (m.merged c.marked) (heard ++ c.seq?.toList), .ok ()) := Prod.ext hnext (hok hc)
    rw [List.map_cons, Reassembly.addAll, hadd, List.foldl_cons, hadd]
    exact ih c.marked _ hrest

theorem Chunked.Sends.addAll_eq {first : Copy packets} (rest : List (Copy packets))
    (proper : first.astray = none) (fits : ∀ c ∈ first :: rest, c.place ≤ Decimal.maxWord) :
    Reassembly.addAll {} ((first :: rest).map Copy.packet) =
      (Copy.gathered (first :: rest), .ok ()) := by
  rw [List.map_cons, Reassembly.addAll, Copy.gathered, List.foldl_cons, h.add_first proper]
  exact h.addAll_opened rest _ _ (List.forall_mem_cons.1 fits).2

end Copies

namespace Chunked
variable {m : Chunked} {heard : List Nat} {args : Packet}

theorem received_opened (h : ∀ seq ∈ heard, seq < m.total) :
    (m.opened args heard).received = heard.dedup.length := by
  have hsplit := length_missing_opened args h
  rw [Reassembly.received, total_opened]
  omega

theorem arrived_opened (args : Packet) (heard : List Nat) : (m.opened args heard).arrived =
    (((List.range m.total).filter (· ∈ heard)).map fun seq => m.pieces[seq]?.getD []).flatten := by
  have hsequenced : (m.opened args heard).sequenced = true := rfl
  have hslots : (m.opened args heard).slots.toList.filterMap id =
      ((List.range m.total).filter (· ∈ heard)).filterMap fun seq => m.pieces[seq]? := by
    simp only [opened, List.filterMap_map, List.filterMap_filter, decide_eq_true_eq]
    rfl
  have hpieces : ((List.range m.total).filter (· ∈ heard)).filterMap (fun seq => m.pieces[seq]?) =
      ((List.range m.total).filter (· ∈ heard)).map fun seq => m.pieces[seq]?.getD [] := by
    rw [← List.filterMap_eq_map]
    refine List.filterMap_congr fun seq hseq => ?_
    have hlt : seq < m.pieces.length := List.mem_range.1 (List.mem_filter.1 hseq).1
    simp [hlt]
  rw [Reassembly.arrived, if_pos hsequenced, hslots, hpieces]

theorem isComplete_opened (args : Packet) (heard : List Nat) :
    (m.opened args heard).isComplete = true ↔ ∀ seq < m.total, seq ∈ heard := by
  simp [Reassembly.isComplete, opened, List.filter_eq_nil_iff]

theorem fullMessage_opened (args : Packet) (heard : List Nat) :
    (m.opened args heard).fullMessage true =
      if ∀ seq < m.total, seq ∈ heard then some m.pieces.flatten else none := by
  by_cases hall : ∀ seq < m.total, seq ∈ heard
  · have hrange : (List.range m.total).filter (· ∈ heard) = List.range m.total :=
      List.filter_eq_self.2 fun seq hseq => decide_eq_true (hall seq (List.mem_range.1 hseq))
    have hpieces : (List.range m.total).map (fun seq => m.pieces[seq]?.getD []) = m.pieces :=
      List.ext_getElem (by simp [total]) fun seq _ hlt => by simp [hlt]
    rw [if_pos hall, Reassembly.fullMessage, (isComplete_opened args heard).2 hall, arrived_opened,
      hrange, hpieces]
    rfl
  · have hopen : (m.opened args heard).isComplete = false := by
      rw [← Bool.not_eq_true, isComplete_opened]
      exact hall
    rw [if_neg hall, Reassembly.fullMessage, hopen]
    rfl

end Chunked

namespace Copy

/-- However the packets of a message arrive, the first of them with its own place: missing are the
places that none of them had, what has come is the bytes of the others in order, and it is the
message once none is missing. The arguments are those of the message with the latest mark. -/
theorem rebuilt_in_any_order (template : Packet) (message : Bytes) (size : Nat)
    (unplaced : template.Unplaced) (nonempty : message ≠ [])
    (few : (splitMessage template message size).length ≤ maxMessagePackets)
    (first : Copy (splitMessage template message size))
    (rest : List (Copy (splitMessage template message size))) (proper : first.astray = none) :
    let total := (splitMessage template message size).length
    let r := gathered (first :: rest)
    let filled := (first :: rest).filterMap seq?
    let last := (first :: rest).getLast (List.cons_ne_nil _ _)
    r.missing = (List.range total).filter (· ∉ filled) ∧
    r.received = filled.dedup.length ∧
    r.fullMessage false =
      some (((List.range total).filter (· ∈ filled)).map (slice size message)).flatten ∧
    r.fullMessage true = (if ∀ seq < total, seq ∈ filled then some message else none) ∧
    (∀ k, r.args.get? k =
      if k = .completed then last.packet.get? .completed else template.get? k) ∧
    r.args.Unplaced ∧
    ((∀ c ∈ first :: rest, c.place ≤ Decimal.maxWord) →
      Reassembly.addAll {} ((first :: rest).map packet) = (r, .ok ())) := by
  intro total r filled last
  have hlength : total = (chunks size message).length := length_splitMessage template nonempty size
  have hfew : (chunks size message).length ≤ maxMessagePackets := hlength ▸ few
  have hsends := Chunked.sends_splitMessage unplaced hfew nonempty
  set m := Chunked.ofMessage template message size unplaced hfew with hm
  have htotal : m.total = total := hlength.symm
  have hr : r = m.opened (m.merged last.marked) filled := hsends.gathered_eq first rest proper
  have hfilled : ∀ seq ∈ filled, seq < m.total := by
    intro seq hseq
    obtain ⟨c, -, hc⟩ := List.mem_filterMap.1 hseq
    exact htotal ▸ seq?_lt hc
  have harrived : r.arrived =
      (((List.range total).filter (· ∈ filled)).map (slice size message)).flatten := by
    rw [hr, Chunked.arrived_opened, htotal]
    refine congrArg List.flatten (List.map_congr_left fun seq hseq => ?_)
    have hlt : seq < total := List.mem_range.1 (List.mem_filter.1 hseq).1
    rw [hm, Chunked.ofMessage, getElem?_chunks_of_lt (hlength ▸ hlt), Option.getD_some]
  have hargs : ∀ k, r.args.get? k =
      if k = .completed then last.packet.get? .completed else template.get? k := by
    intro k
    rw [hr, hsends.packet_eq, Chunked.get?_sent]
    simp [Chunked.opened, Chunked.merged, hm, Chunked.ofMessage]
  refine ⟨?_, ?_, ?_, ?_, hargs, ?_, hsends.addAll_eq rest proper⟩
  · rw [hr, ← htotal]
    rfl
  · rw [hr, Chunked.received_opened hfilled]
  · rw [Reassembly.fullMessage, Bool.false_and, if_neg Bool.false_ne_true, harrived]
  · rw [hr, Chunked.fullMessage_opened, htotal, hm, Chunked.ofMessage, flatten_chunks]
  · exact ⟨by rw [hargs]; exact unplaced.sequenceNum, by rw [hargs]; exact unplaced.totalPackets⟩

/-- The five bytes of a message come in chunks of two: the last chunk, marked, then the second with
a place that the message does not have, the last again and the first. -/
def scattered : List (Copy (splitMessage {} [65, 66, 67, 68, 69] 2)) :=
  [{ chunk := ⟨2, by simp [splitMessage, chunks_cons]⟩, marked := true },
    { chunk := ⟨1, by simp [splitMessage, chunks_cons]⟩
      astray := some ⟨7, by simp [splitMessage, chunks_cons]⟩ },
    { chunk := ⟨2, by simp [splitMessage, chunks_cons]⟩ },
    { chunk := ⟨0, by simp [splitMessage, chunks_cons]⟩ }]

/-- The second chunk is missing, and the mark is gone with the packets after it. -/
theorem rebuilt_in_any_order_scattered :
    (gathered scattered).missing = [1] ∧ (gathered scattered).received = 2 ∧
      (gathered scattered).fullMessage false = some [65, 66, 69] ∧
      (gathered scattered).fullMessage true = none ∧
      (gathered scattered).args.get? .completed = some (.scalar "F") := by
  have htotal : (splitMessage {} [65, 66, 67, 68, 69] 2).length = 3 := by
    simp [splitMessage, chunks_cons]
  have hfilled : scattered.filterMap seq? = [2, 2, 0] := rfl
  have hfew : (splitMessage {} [65, 66, 67, 68, 69] 2).length ≤ maxMessagePackets := by
    rw [htotal]
    decide
  obtain ⟨hmissing, hreceived, hgaps, hwhole, hargs, -⟩ := rebuilt_in_any_order {}
    [65, 66, 67, 68, 69] 2 ⟨rfl, rfl⟩ (by decide) hfew (scattered.head (by decide))
    scattered.tail rfl
  have hmark := hargs .completed
  rw [List.cons_head_tail] at hmissing hreceived hgaps hwhole
  rw [hfilled, htotal] at hmissing hgaps hwhole
  rw [hfilled] at hreceived
  refine ⟨hmissing, hreceived, hgaps, hwhole, hmark.trans ?_⟩
  simp [scattered, packet, splitMessage, chunks_cons, Packet.ofChunk]

end Copy

end JobBroker
