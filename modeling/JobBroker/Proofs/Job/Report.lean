import JobBroker.Job.Basic
import JobBroker.Proofs.Message.Gathering

/-! The packets that ask for a job and those that report its outcome: they can be written, their
headers are short, and who decodes them has the job again, with its outcome if it has one. -/
namespace JobBroker

theorem Text.length_utf8_digits (n : Nat) :
    (utf8 (Decimal.digits n)).length = (Decimal.digits n).length := by
  rw [Frame.utf8_digits, List.length_map]

namespace Packet

def itemSize (kv : Key × Value) : Nat :=
  (Text.utf8 kv.1.name.toList).length + 1 + (Text.utf8 kv.2.text).length

def itemsSize : List (Key × Value) → Nat
  | [] => 0
  | kv :: kvs => itemSize kv + 1 + itemsSize kvs

theorem length_item (kv : Key × Value) : (Text.utf8 (item kv)).length = itemSize kv := by
  have hcolon : (String.utf8EncodeChar ':').length = 1 := by decide
  rw [item, Text.utf8_append, Text.utf8_cons, List.length_append, List.length_append, hcolon,
    itemSize, Nat.add_assoc]

theorem length_items (kv : Key × Value) (kvs : List (Key × Value)) :
    (Text.utf8 (List.intercalate [','] ((kv :: kvs).map item))).length =
      itemSize kv + itemsSize kvs := by
  have hcomma : (Text.utf8 [',']).length = 1 := by decide
  induction kvs generalizing kv with
  | nil => simp [length_item, itemsSize]
  | cons next kvs ih =>
    have hrest := ih next
    rw [List.map_cons] at hrest
    rw [List.map_cons, List.map_cons, List.intercalate_cons_cons, Text.utf8_append,
      Text.utf8_append, List.length_append, List.length_append, hrest, hcomma, length_item,
      itemsSize]
    omega

theorem length_body {p : Packet} {kv : Key × Value} {kvs : List (Key × Value)}
    (h : p.args.toList = kv :: kvs) :
    p.body.length = itemSize kv + itemsSize kvs + 1 + p.message.length := by
  rw [body, header, h, List.length_append, length_items, List.length_cons]
  omega

theorem itemSize_ofNat (k : Key) (n : Nat) :
    itemSize (k, .ofNat n) =
      (Text.utf8 k.name.toList).length + 1 + (Decimal.digits n).length := by
  simp only [itemSize, Value.ofNat, Value.text, Decimal.write, String.toList_ofList,
    Text.length_utf8_digits]

theorem readRequired_ok {p : Packet} {k : Key} {text : String} (read? : String → Option α) {x : α}
    (hget : p.get? k = some (.scalar text)) (hread : read? text = some x) :
    p.readRequired k read? = .ok x := by
  simp only [readRequired, required, scalar?, hget, Option.bind_some, Value.scalar?, hread]

end Packet

namespace JobType

theorem isClean_name (t : JobType) : (Value.scalar t.name).IsClean :=
  (Value.isWritable_iff _).1 (by cases t <;> decide)

theorem upper_name (t : JobType) : (Value.scalar t.name).upper = .scalar t.name :=
  Value.upper_scalar (by cases t <;> decide)

theorem ofName?_name (t : JobType) : ofName? t.name = some t := by
  cases t <;> decide

end JobType

namespace Job
variable (j : Job)

theorem unplaced_resultTemplate : j.resultTemplate.Unplaced := ⟨rfl, rfl⟩

theorem isClean_requestPacket : j.requestPacket.IsClean :=
  (Packet.isClean_empty.set _ (Value.isClean_ofNat _)).set _ j.jobType.isClean_name

theorem isClean_resultTemplate : j.resultTemplate.IsClean := by
  have hsucceeded : (Value.ofBool j.succeeded).isWritable = true := by cases j.succeeded <;> decide
  exact j.isClean_requestPacket.set _ ((Value.isWritable_iff _).1 hsucceeded)

/-! The longest header that a report can have: five digits each for place and number, twenty for
the job. -/

theorem itemSize_jobType : Packet.itemSize (.jobType, .scalar j.jobType.name) = 10 := by
  cases j.jobType <;> decide

theorem itemSize_jobSucceeded : Packet.itemSize (.jobSucceeded, .ofBool j.succeeded) ≤ 19 := by
  cases j.succeeded <;> decide

theorem itemSize_jobId : Packet.itemSize (.jobId, .ofNat j.id.toNat) ≤ 27 := by
  have hname : (Text.utf8 Key.jobId.name.toList).length = 6 := by decide
  have hdigits : (Decimal.digits j.id.toNat).length ≤ 20 :=
    (Nat.length_toDigits_le_iff (by decide) (by decide)).2
      (Nat.lt_of_lt_of_le j.id.toNat_lt (by decide))
  rw [Packet.itemSize_ofNat, hname]
  omega

theorem itemSize_place (k : Key) {n : Nat} (h : n ≤ maxMessagePackets) :
    Packet.itemSize (k, .ofNat n) ≤ (Text.utf8 k.name.toList).length + 6 := by
  have hlimit : maxMessagePackets < 10 ^ 5 := by decide
  have hdigits : (Decimal.digits n).length ≤ 5 :=
    (Nat.length_toDigits_le_iff (by decide) (by decide)).2 (Nat.lt_of_le_of_lt h hlimit)
  rw [Packet.itemSize_ofNat]
  omega

/-! The request. -/

theorem toList_requestPacket :
    j.requestPacket.args.toList =
      [(.jobType, .scalar j.jobType.name), (.jobId, .ofNat j.id.toNat)] := rfl

theorem encodes_requestPacket : ∃ bytes, j.requestPacket.encode = .ok bytes := by
  have htype := j.itemSize_jobType
  have hid := j.itemSize_jobId
  have hmessage : j.requestPacket.message.length = 0 := rfl
  have hlimit : 40 ≤ maxBody := by decide
  rw [j.isClean_requestPacket.encodes_iff, Packet.length_body j.toList_requestPacket, hmessage]
  simp only [Packet.itemsSize]
  omega

theorem upper_requestPacket : j.requestPacket.upper = j.requestPacket := by
  have hempty : Packet.upper {} = {} := rfl
  rw [requestPacket, Packet.upper_set, Packet.upper_set, hempty, Value.upper_ofNat,
    j.jobType.upper_name]

theorem ofRequest_requestPacket :
    ofRequest j.requestPacket = .ok { id := j.id, jobType := j.jobType } := by
  have hid := Packet.readRequired_ok (p := j.requestPacket) (k := .jobId) Decimal.word? rfl
    (Decimal.word?_write (Nat.le_sub_one_of_lt j.id.toNat_lt))
  have htype := Packet.readRequired_ok (p := j.requestPacket) (k := .jobType) JobType.ofName? rfl
    j.jobType.ofName?_name
  rw [ofRequest, hid, htype, UInt64.ofNat_toNat]

/-! The report. -/

theorem toList_resultTemplate (m : Bytes) :
    (j.resultTemplate.withMessage m).args.toList =
      [(.jobType, .scalar j.jobType.name), (.jobId, .ofNat j.id.toNat),
        (.jobSucceeded, .ofBool j.succeeded)] := rfl

theorem toList_stamped (total seq : Nat) (chunk : Bytes) :
    (j.resultTemplate.stamped total seq chunk).args.toList =
      [(.completed, .scalar (if seq + 1 == total then "T" else "F")),
        (.totalPackets, .ofNat total), (.sequenceNum, .ofNat seq),
        (.jobType, .scalar j.jobType.name), (.jobId, .ofNat j.id.toNat),
        (.jobSucceeded, .ofBool j.succeeded)] := rfl

theorem length_stamped_le {total seq : Nat} (htotal : total ≤ maxMessagePackets)
    (hseq : seq < total) (chunk : Bytes) :
    (j.resultTemplate.stamped total seq chunk).body.length ≤ chunk.length + 110 := by
  have hnames : (Text.utf8 Key.totalPackets.name.toList).length = 13 ∧
      (Text.utf8 Key.sequenceNum.name.toList).length = 12 := by decide
  have hflag :
      Packet.itemSize (.completed, .scalar (if seq + 1 == total then "T" else "F")) ≤ 11 := by
    split <;> decide
  have hcount := itemSize_place .totalPackets htotal
  have hplace := itemSize_place .sequenceNum (Nat.le_trans (Nat.le_of_lt hseq) htotal)
  have htype := j.itemSize_jobType
  have hid := j.itemSize_jobId
  have hsucceeded := j.itemSize_jobSucceeded
  have hmessage : (j.resultTemplate.stamped total seq chunk).message = chunk := rfl
  rw [Packet.length_body (j.toList_stamped total seq chunk), hmessage]
  simp only [Packet.itemsSize]
  omega

/-- Beside its chunk of the result, no packet of a report takes more than 110 bytes. -/
theorem length_body_le {size : Nat} (hfew : (chunks size j.result).length ≤ maxMessagePackets)
    {p : Packet} (hp : p ∈ messagePackets j.resultTemplate j.result size) :
    p.body.length ≤ min j.result.length (max size 1) + 110 := by
  by_cases hresult : j.result = []
  · rw [hresult, messagePackets_nil, List.mem_singleton] at hp
    subst hp
    have htype := j.itemSize_jobType
    have hid := j.itemSize_jobId
    have hsucceeded := j.itemSize_jobSucceeded
    rw [Packet.length_body (j.toList_resultTemplate [])]
    simp only [Packet.itemsSize, Packet.message_withMessage, List.length_nil]
    omega
  · rw [messagePackets_eq _ hresult] at hp
    obtain ⟨seq, hseq, rfl⟩ := List.mem_mapIdx.1 hp
    have hbody := j.length_stamped_le hfew hseq (chunks size j.result)[seq]
    have hchunk := length_le_of_mem_chunks (List.getElem_mem hseq)
    omega

theorem ofResult_report : ofResult (j.resultTemplate.upper.assembled j.result) = .ok j := by
  -- The values are in capitals already.
  have hget : ∀ k text, k ≠ .completed → j.resultTemplate.get? k = some (.scalar text) →
      (Value.scalar text).upper = .scalar text →
      (j.resultTemplate.upper.assembled j.result).get? k = some (.scalar text) := by
    intro k text hk hvalue hupper
    unfold Packet.assembled
    split <;> simp [hk, hvalue, hupper]
  have hid := Packet.readRequired_ok Decimal.word?
    (hget .jobId (Decimal.write j.id.toNat) (by decide) rfl (Value.upper_ofNat _))
    (Decimal.word?_write (Nat.le_sub_one_of_lt j.id.toNat_lt))
  have htype := Packet.readRequired_ok JobType.ofName?
    (hget .jobType j.jobType.name (by decide) rfl j.jobType.upper_name) j.jobType.ofName?_name
  have hflag : (Value.ofBool j.succeeded).upper = .ofBool j.succeeded :=
    Value.upper_scalar (by cases j.succeeded <;> decide)
  have hread : readFlag? (if j.succeeded then "TRUE" else "FALSE") = some j.succeeded := by
    cases j.succeeded <;> decide
  have hsucceeded := Packet.readRequired_ok readFlag?
    (hget .jobSucceeded _ (by decide) rfl hflag) hread
  rw [ofResult, ofRequest, hid, htype, UInt64.ofNat_toNat]
  dsimp only
  rw [hsucceeded]
  rfl

end Job

end JobBroker
