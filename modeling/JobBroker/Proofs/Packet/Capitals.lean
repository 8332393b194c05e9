import JobBroker.Proofs.Packet.RoundTrip
import JobBroker.Proofs.Text.Decimal

/-! Packets by what they hold under each key, and the packet that a peer decodes: the same in
capitals. -/
namespace JobBroker

namespace Value

theorem upper_scalar {text : String} (h : text.toList.map Char.toUpper = text.toList) :
    (scalar text).upper = .scalar text := by
  rw [upper, scalar.injEq, ← String.toList_inj, String.toList_map, h]

theorem upper_ofNat (n : Nat) : (ofNat n).upper = .ofNat n := by
  have hdigits : (Decimal.digits n).map Char.toUpper = Decimal.digits n :=
    (List.map_congr_left fun c hc => toUpper_digit (Decimal.isDigit_digits hc)).trans
      (List.map_id _)
  exact upper_scalar (by rw [Decimal.write, String.toList_ofList, hdigits])

theorem isClean_ofNat (n : Nat) : (ofNat n).IsClean := by
  have hreserved : reservedChars.all (fun c => !c.isDigit) = true := by decide
  intro c hc hmem
  rw [Decimal.write, String.toList_ofList] at hmem
  have hnot := List.all_eq_true.1 hreserved c hc
  rw [Decimal.isDigit_digits hmem] at hnot
  cases hnot

end Value

theorem Arguments.ext_get? {a b : Arguments} (h : ∀ k, a.get? k = b.get? k) : a = b := by
  obtain ⟨_, _, _, _, _, _, _, _, _, _⟩ := a
  obtain ⟨_, _, _, _, _, _, _, _, _, _⟩ := b
  rw [mk.injEq]
  exact ⟨h .requestType, h .completed, h .totalPackets, h .sequenceNum, h .totalPacketsMissing,
    h .missingPacketNums, h .optimizedForJobType, h .jobType, h .jobId, h .jobSucceeded⟩

def Arguments.upper (a : Arguments) : Arguments where
  requestType := a.requestType.map Value.upper
  completed := a.completed.map Value.upper
  totalPackets := a.totalPackets.map Value.upper
  sequenceNum := a.sequenceNum.map Value.upper
  totalPacketsMissing := a.totalPacketsMissing.map Value.upper
  missingPacketNums := a.missingPacketNums.map Value.upper
  optimizedForJobType := a.optimizedForJobType.map Value.upper
  jobType := a.jobType.map Value.upper
  jobId := a.jobId.map Value.upper
  jobSucceeded := a.jobSucceeded.map Value.upper

@[simp] theorem Arguments.get?_upper (a : Arguments) (k : Key) :
    a.upper.get? k = (a.get? k).map Value.upper := by
  cases k <;> rfl

@[simp] theorem Arguments.get?_merge (a b : Arguments) (k : Key) :
    (a.merge b).get? k = (b.get? k).or (a.get? k) := by
  have hall : k ∈ Key.all := by cases k <;> decide
  have hput := get?_putAll b.get? Key.all a k
  rw [if_pos hall] at hput
  exact hput

namespace Packet

theorem ext_get? {p q : Packet} (hargs : ∀ k, p.get? k = q.get? k)
    (hmessage : p.message = q.message) : p = q := by
  obtain ⟨a, m⟩ := p
  obtain ⟨b, n⟩ := q
  cases Arguments.ext_get? hargs
  cases hmessage
  rfl

@[simp] theorem get?_set (p : Packet) (k l : Key) (v : Value) :
    (p.set k v).get? l = if l = k then some v else p.get? l := Arguments.get?_put ..

@[simp] theorem get?_erase (p : Packet) (k l : Key) :
    (p.erase k).get? l = if l = k then none else p.get? l := Arguments.get?_put ..

@[simp] theorem get?_withMessage (p : Packet) (m : Bytes) (k : Key) :
    (p.withMessage m).get? k = p.get? k := rfl

@[simp] theorem get?_setCompleted (p : Packet) (b : Bool) (k : Key) :
    (p.setCompleted b).get? k =
      if k = .completed then some (.scalar (if b then "T" else "F")) else p.get? k := get?_set ..

@[simp] theorem message_withMessage (p : Packet) (m : Bytes) : (p.withMessage m).message = m := rfl

def IsClean (p : Packet) : Prop := ∀ k v, p.get? k = some v → v.IsClean

theorem isClean_empty : IsClean {} := by
  intro k v hv
  cases k <;> cases hv

theorem IsClean.set {p : Packet} (h : p.IsClean) (k : Key) {v : Value} (hv : v.IsClean) :
    (p.set k v).IsClean := by
  intro l w hw
  rw [get?_set] at hw
  split at hw
  · cases hw
    exact hv
  · exact h l w hw

theorem IsClean.withMessage {p : Packet} (h : p.IsClean) (m : Bytes) :
    (p.withMessage m).IsClean := h

theorem IsClean.setCompleted {p : Packet} (h : p.IsClean) (b : Bool) :
    (p.setCompleted b).IsClean := by
  refine h.set .completed ((Value.isWritable_iff _).1 ?_)
  cases b <;> decide

theorem IsClean.encodes_iff {p : Packet} (h : p.IsClean) :
    (∃ bytes, p.encode = .ok bytes) ↔ p.body.length ≤ maxBody := by
  simp only [encode_ok_iff]
  exact ⟨fun ⟨_, _, hsize, _⟩ => hsize, fun hsize => ⟨_, h, hsize, rfl⟩⟩

/-- What a peer decodes of a packet: its values in capitals. -/
def upper (p : Packet) : Packet := { args := p.args.upper, message := p.message }

@[simp] theorem get?_upper (p : Packet) (k : Key) : p.upper.get? k = (p.get? k).map Value.upper :=
  Arguments.get?_upper ..

theorem upper_set (p : Packet) (k : Key) (v : Value) :
    (p.set k v).upper = p.upper.set k v.upper := by
  refine ext_get? (fun l => ?_) rfl
  rw [get?_upper, get?_set, get?_set, get?_upper]
  split <;> rfl

theorem upper_setCompleted (p : Packet) (b : Bool) :
    (p.setCompleted b).upper = p.upper.setCompleted b := by
  have hflag : (Value.scalar (if b then "T" else "F")).upper =
      .scalar (if b then "T" else "F") := by
    cases b <;> exact Value.upper_scalar (by decide)
  rw [setCompleted, upper_set, hflag, setCompleted]

theorem number_ofNat {p : Packet} {k : Key} {n : Nat} (h : p.get? k = some (.ofNat n))
    (hn : n ≤ Decimal.maxWord) : p.number k = .ok (some (UInt64.ofNat n)) := by
  simp only [number, scalar?, h, Option.bind_some, Value.ofNat, Value.scalar?,
    Decimal.word?_write hn]

theorem decode_encoded {p : Packet} {bytes : Bytes} (h : p.encode = .ok bytes) :
    decode bytes = .ok p.upper := by
  obtain ⟨hclean, hsize, rfl⟩ := (encode_ok_iff p bytes).1 h
  obtain ⟨q, hdecode, hmessage, hargs⟩ := decode_frame hclean hsize
  have hq : q = p.upper := ext_get? (fun k => by rw [hargs, get?_upper]) hmessage
  rw [hdecode, hq]

theorem feed_encoded {p : Packet} {bytes : Bytes} (h : p.encode = .ok bytes) :
    Decoder.start.feed bytes = (.start, [.ok p.upper]) := by
  obtain ⟨-, hsize, rfl⟩ := (encode_ok_iff p bytes).1 h
  have hsome : 1 ≤ p.body.length := by
    rw [body, List.length_append, List.length_cons]
    omega
  rw [← decode_encoded h, ← Frame.bytes_ofBody p.body hsome hsize, Frame.feed_bytes]

end Packet

end JobBroker
