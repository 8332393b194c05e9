import JobBroker.Stream.Writer
import JobBroker.Proofs.Packet.Capitals

/-! The packets of a message: its chunks put together are the message, each is stamped with its
place, and what a peer decodes are the packets of the message in capitals. -/
namespace JobBroker

theorem chunksFrom_eq (size : Nat) (h : 0 < size) (done : List Bytes) (bs : Bytes) :
    chunksFrom size h done bs = done.reverse ++ chunksFrom size h [] bs := by
  induction hlength : bs.length using Nat.strongRecOn generalizing done bs with
  | _ n ih =>
    cases bs with
    | nil => simp [chunksFrom]
    | cons b bs =>
      have hshort : ((b :: bs).drop size).length < n := by
        rw [List.length_drop, ← hlength, List.length_cons]
        omega
      rw [chunksFrom, chunksFrom, ih _ hshort _ _ rfl, ih _ hshort [_] _ rfl]
      simp

theorem chunks_cons (size : Nat) (b : UInt8) (bs : Bytes) :
    chunks size (b :: bs) =
      (b :: bs).take (max size 1) :: chunks size ((b :: bs).drop (max size 1)) := by
  rw [chunks, chunksFrom, chunksFrom_eq]
  rfl

@[simp] theorem chunks_nil (size : Nat) : chunks size [] = [] := by
  rw [chunks, chunksFrom, List.reverse_nil]

/-- What holds without bytes, and of bytes when it holds of them without their first chunk. -/
theorem chunks_induction {motive : Bytes → Prop} (size : Nat) (nil : motive [])
    (cons : ∀ b bs, motive ((b :: bs).drop (max size 1)) → motive (b :: bs)) (bs : Bytes) :
    motive bs := by
  induction hlength : bs.length using Nat.strongRecOn generalizing bs with
  | _ n ih =>
    cases bs with
    | nil => exact nil
    | cons b bs =>
      refine cons b bs (ih _ ?_ _ rfl)
      rw [List.length_drop, ← hlength, List.length_cons]
      omega

theorem flatten_chunks (size : Nat) (bs : Bytes) : (chunks size bs).flatten = bs := by
  induction bs using chunks_induction size with
  | nil => rw [chunks_nil, List.flatten_nil]
  | cons b bs ih => rw [chunks_cons, List.flatten_cons, ih, List.take_append_drop]

theorem length_le_of_mem_chunks {size : Nat} {bs chunk : Bytes} (h : chunk ∈ chunks size bs) :
    chunk.length ≤ min bs.length (max size 1) := by
  induction bs using chunks_induction size with
  | nil =>
    rw [chunks_nil] at h
    cases h
  | cons b bs ih =>
    rw [chunks_cons, List.mem_cons] at h
    obtain rfl | h := h
    · rw [List.length_take]
      omega
    · have hrest := ih h
      rw [List.length_drop] at hrest
      omega

theorem length_chunks_le_iff (size count : Nat) (bs : Bytes) :
    (chunks size bs).length ≤ count ↔ bs.length ≤ count * max size 1 := by
  induction bs using chunks_induction size generalizing count with
  | nil => simp
  | cons b bs ih =>
    rw [chunks_cons, List.length_cons]
    cases count with
    | zero => simp
    | succ count =>
      have hrest := ih count
      rw [List.length_drop] at hrest
      rw [Nat.add_le_add_iff_right, hrest, Nat.succ_mul]
      omega

def slice (size : Nat) (bs : Bytes) (seq : Nat) : Bytes :=
  (bs.drop (seq * max size 1)).take (max size 1)

theorem getElem?_chunks (size : Nat) (bs : Bytes) (seq : Nat) :
    (chunks size bs)[seq]? =
      if seq * max size 1 < bs.length then some (slice size bs seq) else none := by
  induction bs using chunks_induction size generalizing seq with
  | nil => simp
  | cons b bs ih =>
    rw [chunks_cons]
    cases seq with
    | zero => simp [slice]
    | succ seq =>
      have hlater : seq * max size 1 < ((b :: bs).drop (max size 1)).length ↔
          (seq + 1) * max size 1 < (b :: bs).length := by
        rw [List.length_drop, Nat.succ_mul]
        omega
      rw [List.getElem?_cons_succ, ih]
      simp only [hlater, slice, List.drop_drop, Nat.succ_mul, Nat.add_comm]

theorem getElem?_chunks_of_lt {size : Nat} {bs : Bytes} {seq : Nat}
    (h : seq < (chunks size bs).length) : (chunks size bs)[seq]? = some (slice size bs seq) := by
  have hsome := getElem?_chunks size bs seq
  rw [List.getElem?_eq_getElem h] at hsome ⊢
  split at hsome
  · exact hsome
  · cases hsome

theorem chunks_eq_nil_iff (size : Nat) (bs : Bytes) : chunks size bs = [] ↔ bs = [] := by
  cases bs with
  | nil => simp
  | cons b bs => simp [chunks_cons]

namespace Packet

structure Unplaced (p : Packet) : Prop where
  sequenceNum : p.get? .sequenceNum = none
  totalPackets : p.get? .totalPackets = none

theorem Unplaced.upper {p : Packet} (h : p.Unplaced) : p.upper.Unplaced :=
  ⟨by simp [h.sequenceNum], by simp [h.totalPackets]⟩

def stamped (template : Packet) (total seq : Nat) (chunk : Bytes) : Packet :=
  (((template.setCompleted (seq + 1 == total)).set .totalPackets (.ofNat total)).set
    .sequenceNum (.ofNat seq)).withMessage chunk

theorem upper_stamped (template : Packet) (total seq : Nat) (chunk : Bytes) :
    (template.stamped total seq chunk).upper = template.upper.stamped total seq chunk := by
  have hmessage : ∀ p : Packet, (p.withMessage chunk).upper = p.upper.withMessage chunk :=
    fun _ => rfl
  rw [stamped, hmessage, upper_set, upper_set, upper_setCompleted, Value.upper_ofNat,
    Value.upper_ofNat, stamped]

theorem IsClean.stamped {p : Packet} (h : p.IsClean) (total seq : Nat) (chunk : Bytes) :
    (p.stamped total seq chunk).IsClean :=
  (((h.setCompleted _).set _ (Value.isClean_ofNat _)).set _
    (Value.isClean_ofNat _)).withMessage chunk

theorem sequenceNum_stamped (template : Packet) {total seq : Nat} (chunk : Bytes)
    (h : seq ≤ Decimal.maxWord) :
    (template.stamped total seq chunk).number .sequenceNum = .ok (some (UInt64.ofNat seq)) :=
  number_ofNat (by simp [stamped]) h

end Packet

theorem markLast_concat (packets : List Packet) (last : Packet) :
    markLast (packets ++ [last]) = packets ++ [last.setCompleted true] := by
  simp [markLast]

theorem markLast_ofChunk (template : Packet) (pieces : List Bytes) :
    markLast (pieces.mapIdx fun seq chunk => template.ofChunk pieces.length seq chunk) =
      pieces.mapIdx fun seq chunk => template.stamped pieces.length seq chunk := by
  obtain rfl | ⟨front, last, hpieces⟩ := List.eq_nil_or_concat pieces
  · rfl
  rw [List.concat_eq_append] at hpieces
  subst hpieces
  have hlast : (template.ofChunk (front ++ [last]).length front.length last).setCompleted true =
      template.stamped (front ++ [last]).length front.length last := by
    have hplace : (front.length + 1 == (front ++ [last]).length) = true := by simp
    rw [Packet.stamped, hplace]
    rfl
  rw [List.mapIdx_concat, List.mapIdx_concat, markLast_concat, hlast, List.append_cancel_right_eq,
    List.mapIdx_eq_mapIdx_iff]
  intro seq hseq
  have hplace : (seq + 1 == (front ++ [last]).length) = false := by
    rw [List.length_append, List.length_singleton, beq_eq_false_iff_ne]
    omega
  rw [Packet.stamped, hplace]
  rfl

theorem messagePackets_nil (template : Packet) (size : Nat) :
    messagePackets template [] size = [template.withMessage []] := rfl

theorem splitMessage_eq (template : Packet) {body : Bytes} (h : body ≠ []) (size : Nat) :
    splitMessage template body size = (chunks size body).mapIdx fun seq chunk =>
      template.ofChunk (chunks size body).length seq chunk := by
  have hbody : body.isEmpty = false := by simpa using h
  rw [splitMessage, hbody, if_neg (by simp)]

theorem length_splitMessage (template : Packet) {body : Bytes} (h : body ≠ []) (size : Nat) :
    (splitMessage template body size).length = (chunks size body).length := by
  rw [splitMessage_eq template h, List.length_mapIdx]

theorem messagePackets_eq (template : Packet) {body : Bytes} (h : body ≠ []) (size : Nat) :
    messagePackets template body size = (chunks size body).mapIdx fun seq chunk =>
      template.stamped (chunks size body).length seq chunk := by
  have hbody : body.isEmpty = false := by simpa using h
  rw [messagePackets, hbody, if_neg (by simp), splitMessage_eq template h]
  exact markLast_ofChunk template (chunks size body)

theorem length_messagePackets (template : Packet) {body : Bytes} (h : body ≠ []) (size : Nat) :
    (messagePackets template body size).length = (chunks size body).length := by
  rw [messagePackets_eq template h, List.length_mapIdx]

theorem Packet.IsClean.messagePackets {p q : Packet} (h : p.IsClean) {body : Bytes} {size : Nat}
    (hq : q ∈ messagePackets p body size) : q.IsClean := by
  by_cases hbody : body = []
  · rw [hbody, messagePackets_nil, List.mem_singleton] at hq
    exact hq ▸ h.withMessage []
  · rw [messagePackets_eq p hbody] at hq
    obtain ⟨seq, -, rfl⟩ := List.mem_mapIdx.1 hq
    exact h.stamped _ seq _

theorem upper_messagePackets (template : Packet) (body : Bytes) (size : Nat) :
    (messagePackets template body size).map Packet.upper =
      messagePackets template.upper body size := by
  by_cases h : body = []
  · subst h
    rfl
  · rw [messagePackets_eq template h, messagePackets_eq template.upper h,
      List.mapIdx_eq_zipIdx_map, List.mapIdx_eq_zipIdx_map, List.map_map]
    simp only [Function.comp_def, Packet.upper_stamped]

end JobBroker
