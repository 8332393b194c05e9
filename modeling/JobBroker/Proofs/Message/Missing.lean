import JobBroker.Proofs.Job.Report
import JobBroker.Proofs.Message.Slots
import JobBroker.Proofs.Packet.Canonical

/-! The report of what is missing. It can always be sent, whoever decodes it reads the empty slots
from it, and the message is complete once the packets that it lists have come. -/
namespace JobBroker

namespace Value

theorem upper_ofNats (ns : List Nat) : (ofNats ns).upper = .ofNats ns := by
  have hupper : ∀ n, (Decimal.write n).map Char.toUpper = Decimal.write n := by
    intro n
    have hscalar := upper_ofNat n
    rwa [ofNat, upper, scalar.injEq] at hscalar
  rw [ofNats, upper, List.map_map]
  exact congrArg array (List.map_congr_left fun n _ => hupper n)

theorem isClean_ofNats (ns : List Nat) : (ofNats ns).IsClean := by
  intro text htext
  obtain ⟨n, -, rfl⟩ := List.mem_map.1 htext
  refine ⟨fun hempty => ?_, isClean_ofNat n⟩
  rw [Decimal.write, Decimal.digits, String.ofList_eq_empty_iff] at hempty
  exact Nat.toDigits_ne_nil hempty

theorem length_digits_place {n : Nat} (h : n < maxMessagePackets) :
    (Decimal.digits n).length ≤ 5 :=
  (Nat.length_toDigits_le_iff (by decide) (by decide)).2 (Nat.lt_trans h (by decide))

theorem length_text_ofNats {ns : List Nat} (h : ∀ n ∈ ns, n < maxMessagePackets) :
    (Text.utf8 (ofNats ns).text).length ≤ 6 * ns.length + 2 := by
  have hbrackets : (Text.utf8 ['[']).length = 1 ∧ (Text.utf8 [']']).length = 1 := by decide
  have hpieces : (ns.map Decimal.write).map String.toList = ns.map Decimal.digits := by
    rw [List.map_map]
    exact List.map_congr_left fun n _ => String.toList_ofList
  have htext : (ofNats ns).text =
      ['['] ++ List.intercalate [','] (ns.map Decimal.digits) ++ [']'] := by
    rw [ofNats, text, hpieces]
    rfl
  have hsum : ((ns.map Decimal.digits).map fun piece => (Text.utf8 piece).length + 1).sum ≤
      ns.length * 6 := by
    rw [List.map_map]
    refine (List.sum_le_card_nsmul _ 6 fun size hsize => ?_).trans_eq (by simp)
    obtain ⟨n, hn, rfl⟩ := List.mem_map.1 hsize
    have hdigits := length_digits_place (h n hn)
    rw [Function.comp_apply, Text.length_utf8_digits]
    omega
  rw [htext, Text.utf8_append, Text.utf8_append, List.length_append, List.length_append,
    length_utf8_intercalate]
  omega

end Value

namespace Reassembly
variable {r : Reassembly}

theorem isClean_missingReport (r : Reassembly) : r.missingReport.IsClean :=
  (Packet.isClean_empty.set _ (Value.isClean_ofNat _)).set _ (Value.isClean_ofNats _)

theorem toList_missingReport (r : Reassembly) :
    r.missingReport.args.toList =
      [(.totalPacketsMissing, .ofNat r.missing.length),
        (.missingPacketNums, .ofNats r.missing)] := rfl

theorem Aligned.length_missing_le (h : r.Aligned) : r.missing.length ≤ maxMessagePackets :=
  Nat.le_trans h.length_missing_le_total h.few

theorem Aligned.length_missingReport_le (h : r.Aligned) :
    r.missingReport.body.length ≤ maxBody := by
  have hnames : (Text.utf8 Key.totalPacketsMissing.name.toList).length = 21 ∧
      (Text.utf8 Key.missingPacketNums.name.toList).length = 19 := by decide
  have hlimits : maxMessagePackets = 65536 ∧ maxBody = 1048576 := by decide
  have hmissing := h.length_missing_le
  have hcount := Job.itemSize_place .totalPacketsMissing hmissing
  have hplaces : Packet.itemSize (.missingPacketNums, .ofNats r.missing) ≤
      20 + (6 * r.missing.length + 2) := by
    have htext := Value.length_text_ofNats fun seq hseq => h.place_lt_limit hseq
    simp only [Packet.itemSize, hnames.2]
    omega
  have hmessage : r.missingReport.message.length = 0 := rfl
  rw [Packet.length_body r.toList_missingReport, hmessage]
  simp only [Packet.itemsSize]
  omega

theorem upper_missingReport (r : Reassembly) : r.missingReport.upper = r.missingReport := by
  have hempty : Packet.upper {} = {} := rfl
  rw [missingReport, Packet.upper_set, Packet.upper_set, hempty, Value.upper_ofNat,
    Value.upper_ofNats]

theorem Aligned.report_decoded (h : r.Aligned) :
    ∃ bytes, r.missingReport.encode = .ok bytes ∧ Packet.decode bytes = .ok r.missingReport := by
  obtain ⟨bytes, hencode⟩ := r.isClean_missingReport.encodes_iff.2 h.length_missingReport_le
  have hdecode := Packet.decode_encoded hencode
  rw [upper_missingReport] at hdecode
  exact ⟨bytes, hencode, hdecode⟩

theorem places_splitMessage (template : Packet) (body : Bytes) (size : Nat) {places : List Nat}
    (hplaces : ∀ seq ∈ places, seq < (chunks size body).length ∧ seq ≤ Decimal.maxWord) :
    (places.filterMap ((splitMessage template body size)[·]?)).map (·.number .sequenceNum) =
      places.map fun seq => .ok (some (UInt64.ofNat seq)) := by
  rw [List.map_filterMap, ← List.filterMap_eq_map]
  refine List.filterMap_congr fun seq hseq => ?_
  obtain ⟨hlt, hword⟩ := hplaces seq hseq
  have hbody : body ≠ [] := by
    rintro rfl
    rw [chunks_nil] at hlt
    exact Nat.not_lt_zero _ hlt
  have hnumber := Packet.number_ofNat (p := template.ofChunk (chunks size body).length seq
    (chunks size body)[seq]) (k := .sequenceNum) (by simp [Packet.ofChunk]) hword
  rw [splitMessage_eq template hbody, List.getElem?_mapIdx, List.getElem?_eq_getElem hlt]
  exact congrArg some hnumber

/-- Whatever packets have been added, refused ones among them: missing are the places of the empty
slots, the report of them can be encoded and is decoded to their number and, in order, the places
themselves, and once the packets of just these places have come, in any order and from any message
in as many packets as there are slots, the message is complete. -/
theorem missing_reported (packets : List Packet) :
    let r := after {} packets
    r.missing = r.emptySlots ∧
    (∃ bytes report count places,
      r.missingReport.encode = .ok bytes ∧ Packet.decode bytes = .ok report ∧
      report.number .totalPacketsMissing = .ok (some count) ∧
      count.toNat = r.emptySlots.length ∧
      report.array? .missingPacketNums = some places ∧
      places.map (fun text => (Decimal.word? text).map UInt64.toNat) = r.missing.map some) ∧
    ∀ template body size, (chunks size body).length = r.total →
      ∀ listed : List Packet,
        listed.Perm (r.missing.filterMap ((splitMessage template body size)[·]?)) →
        ∃ r', r.addAll listed = (r', .ok ()) ∧ r'.isComplete = true := by
  intro r
  have haligned : r.Aligned := aligned_empty.after packets
  refine ⟨haligned.missing, ?_, fun template body size htotal listed hlisted => ?_⟩
  · obtain ⟨bytes, hencode, hdecode⟩ := haligned.report_decoded
    have hcount : r.missing.length < UInt64.size :=
      Nat.lt_of_le_of_lt haligned.length_missing_le (by decide)
    refine ⟨bytes, r.missingReport, .ofNat r.missing.length, r.missing.map Decimal.write, hencode,
      hdecode, Packet.number_ofNat rfl (Nat.le_sub_one_of_lt hcount), ?_, rfl, ?_⟩
    · rw [← haligned.missing]
      exact UInt64.toNat_ofNat_of_lt hcount
    · rw [List.map_map]
      refine List.map_congr_left fun seq hseq => ?_
      rw [Function.comp_apply, Decimal.word?_write (haligned.place_le_maxWord hseq),
        Option.map_some, haligned.toNat_place hseq]
  · refine haligned.complete ?_
    rw [← places_splitMessage template body size fun seq hseq =>
      ⟨htotal ▸ haligned.place_lt hseq, haligned.place_le_maxWord hseq⟩]
    exact hlisted.map _

/-- Three slots are opened by a place that is none of them. Then the second one is filled, a packet
with no number for its place is refused, and the second place comes again. -/
def straggling : List Packet :=
  [Packet.ofChunk {} 3 7 [66], Packet.ofChunk {} 3 1 [66],
    (Packet.ofChunk {} 3 0 [65]).set .sequenceNum (.scalar "first"), Packet.ofChunk {} 3 1 [67]]

/-- The first and the third are reported, and it does not matter that they come the other way
round. -/
theorem missing_reported_straggling :
    (after {} straggling).missing = [0, 2] ∧
      (after {} straggling).missingReport.encode = .ok
        (Text.utf8 "(50)TOTAL_PACKETS_MISSING:2,MISSING_PACKET_NUMS:[0,2]\n".toList) ∧
      ∃ r', (after {} straggling).addAll
        [Packet.ofChunk {} 3 2 [69], Packet.ofChunk {} 3 0 [65, 66]] = (r', .ok ()) ∧
          r'.isComplete = true := by
  have hchunks : chunks 2 [65, 66, 67, 68, 69] = [[65, 66], [67, 68], [69]] := by
    simp [chunks_cons]
  have htotal : (after {} straggling).total = 3 := by decide
  have hmissing : (after {} straggling).missing = [0, 2] := by decide
  have hlisted : [0, 2].filterMap ((splitMessage {} [65, 66, 67, 68, 69] 2)[·]?) =
      [Packet.ofChunk {} 3 0 [65, 66], Packet.ofChunk {} 3 2 [69]] := by
    simp [splitMessage, hchunks]
  obtain ⟨-, -, hcomplete⟩ := missing_reported straggling
  refine ⟨hmissing, by decide +kernel,
    hcomplete {} [65, 66, 67, 68, 69] 2 (by rw [hchunks, htotal]; rfl) _ ?_⟩
  rw [hmissing, hlisted]
  exact List.Perm.swap ..

end Reassembly

end JobBroker
