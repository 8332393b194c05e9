import JobBroker.Proofs.Stream.Messages

/-! Two limits decide whether a message arrives: each of its packets has to fit into a body, which
the sender sees to, and there must not be more of them than a receiver has slots for, which the
sender does not. -/
namespace JobBroker

theorem encodeAll_ok_iff {packets : List Packet} (done : List Bytes) :
    (∃ pieces, encodeAll done packets = .ok pieces) ↔
      ∀ p ∈ packets, ∃ bytes, p.encode = .ok bytes := by
  refine ⟨fun h => ?_, fun h => ⟨_, encodeAll_ok h done⟩⟩
  induction packets generalizing done with
  | nil => simp
  | cons p packets ih =>
    obtain ⟨pieces, hpieces⟩ := h
    rw [encodeAll] at hpieces
    split at hpieces
    · cases hpieces
    · rename_i bytes hencode
      rw [List.forall_mem_cons]
      exact ⟨⟨bytes, hencode⟩, ih _ ⟨pieces, hpieces⟩⟩

theorem Outlet.sendMessage_ok_iff {template : Packet} {body : Bytes} {chunkSize count : Nat}
    {o : Outlet} : (sink none []).sendMessage template body chunkSize = (.ok count, o) ↔
      (∀ p ∈ messagePackets template body chunkSize, ∃ bytes, p.encode = .ok bytes) ∧
        count = (messagePackets template body chunkSize).length ∧
        o = .sink none (wireOf (messagePackets template body chunkSize)) := by
  by_cases h : ∀ p ∈ messagePackets template body chunkSize, ∃ bytes, p.encode = .ok bytes
  · have hencode : encodeMessage template body chunkSize =
        .ok ((messagePackets template body chunkSize).map fun p => Packet.frame p.body) :=
      encodeAll_ok h []
    rw [sendMessage, hencode]
    simp only [put_sink, List.nil_append, List.length_map, Prod.mk.injEq, Except.ok.injEq, wireOf,
      List.flatMap_def]
    constructor
    · rintro ⟨rfl, rfl⟩
      exact ⟨h, rfl, rfl⟩
    · rintro ⟨-, rfl, rfl⟩
      exact ⟨rfl, rfl⟩
  · rw [sendMessage]
    split
    · simp [h]
    · rename_i pieces hencode
      exact absurd ((encodeAll_ok_iff []).1 ⟨pieces, hencode⟩) h

theorem Assembler.hear_overlong {total : Nat} (template : Packet) (chunk : Bytes)
    (h : maxMessagePackets < total) :
    hear {} (.ok (template.stamped total 0 chunk)) =
      ({}, [.error (.invalidValue .totalPackets (Decimal.write total))]) := by
  have hplaced : (template.stamped total 0 chunk).contains .sequenceNum = true := by
    simp [Packet.contains, Packet.stamped]
  have htotal : (template.stamped total 0 chunk).scalar? .totalPackets =
      some (Decimal.write total) := by
    simp [Packet.scalar?, Packet.stamped, Value.ofNat, Value.scalar?]
  have hfix : ∀ r : Reassembly, r.sequenced = false →
      r.fixSlots (template.stamped total 0 chunk) =
        .error (.invalidValue .totalPackets (Decimal.write total)) := by
    intro r hr
    rw [Reassembly.fixSlots, hr, if_neg (by simp), Packet.number, htotal]
    dsimp only
    cases hword : Decimal.word? (Decimal.write total) with
    | none => rfl
    | some n =>
      simp [Decimal.word?_write_some hword, h]
  have hnote :
      (Reassembly.noteCompleted {} (template.stamped total 0 chunk)).sequenced = false := by
    unfold Reassembly.noteCompleted
    split <;> rfl
  have hadd : (Reassembly.add {} (template.stamped total 0 chunk)).2 =
      .error (.invalidValue .totalPackets (Decimal.write total)) := by
    rw [Reassembly.add]
    simp only [Packet.sequenceNum_stamped template chunk (Nat.zero_le _), hfix _ hnote]
  rcases hresult : Reassembly.add {} (template.stamped total 0 chunk) with ⟨r, result⟩
  rw [hresult] at hadd
  subst hadd
  simp [hear, accept, hplaced, addSequenced, hresult, takeDeferred]

/-- The message is written completely, and however the bytes are cut, the reader gives this packet
and nothing else before the end of the stream. -/
def Packet.Arrives (template : Packet) (body : Bytes) (chunkSize : Nat) (message : Packet) : Prop :=
  ∃ count written,
    (Outlet.sink none []).sendMessage template body chunkSize = (.ok count, .sink none written) ∧
    ∀ reads : List Bytes, reads.flatten = written → [] ∉ reads → ∀ n,
      StreamReader.calls .endOfStream (n + 2) {} reads =
        .item (.message message) :: List.replicate (n + 1) (.item .closed)

theorem StreamReader.calls_first {reads : List Bytes} {item : Inbound} {items : List Inbound}
    (h : (({} : StreamReader).after reads.flatten).1 = item :: items) (hne : [] ∉ reads) (n : Nat) :
    ∃ answers, calls .endOfStream (n + 1) {} reads = .item item :: answers := by
  have hitems := itemsOf_eq (r := {}) ⟨rfl, rfl⟩ reads hne
  rw [h, List.cons_append] at hitems
  have hcalls := calls_eq (r := {}) rfl reads 0
  rw [hitems, List.length_cons, Nat.add_right_comm, calls, List.map_cons, List.cons_append,
    List.cons.injEq] at hcalls
  rw [calls, hcalls.1]
  exact ⟨_, rfl⟩

namespace Packet
variable {template : Packet} {body : Bytes} {chunkSize : Nat}

theorem arrives_of_few (hplain : template.Unplaced)
    (hfew : (chunks chunkSize body).length ≤ maxMessagePackets)
    (hencodes : ∀ p ∈ messagePackets template body chunkSize, ∃ bytes, p.encode = .ok bytes) :
    template.Arrives body chunkSize (template.upper.assembled body) := by
  let m : Outgoing chunkSize := ⟨template, body, hplain, hfew, hencodes⟩
  refine ⟨_, _, m.sendMessage_eq [], fun reads hcut hne n => ?_⟩
  have hcalls := StreamReader.calls_after m.after_wire hcut hne n
  rwa [List.length_singleton, Nat.add_comm] at hcalls

theorem after_overlong (hmany : maxMessagePackets < (chunks chunkSize body).length)
    (hencodes : ∀ p ∈ messagePackets template body chunkSize, ∃ bytes, p.encode = .ok bytes) :
    ∃ items, (({} : StreamReader).after (wireOf (messagePackets template body chunkSize))).1 =
      .malformed (.invalidValue .totalPackets (Decimal.write (chunks chunkSize body).length)) ::
        items := by
  have hbody : body ≠ [] := by
    rintro rfl
    simp at hmany
  obtain ⟨chunk, rest, hchunks⟩ : ∃ chunk rest, chunks chunkSize body = chunk :: rest :=
    List.exists_cons_of_ne_nil (mt (chunks_eq_nil_iff chunkSize body).1 hbody)
  have hpackets : ∃ later, messagePackets template body chunkSize =
      template.stamped (chunks chunkSize body).length 0 chunk :: later := by
    rw [messagePackets_eq template hbody, hchunks, List.mapIdx_cons]
    exact ⟨_, rfl⟩
  obtain ⟨later, hpackets⟩ := hpackets
  rw [StreamReader.after]
  dsimp only
  rw [feed_wireOf hencodes, hpackets]
  dsimp only
  rw [List.map_cons, upper_stamped, Assembler.hearAll, Assembler.hear_overlong _ _ hmany]
  exact ⟨_, rfl⟩

theorem few_of_arrives {message : Packet} (harrives : template.Arrives body chunkSize message) :
    (chunks chunkSize body).length ≤ maxMessagePackets := by
  obtain ⟨count, written, hsend, hread⟩ := harrives
  obtain ⟨hencodes, -, hwritten⟩ := Outlet.sendMessage_ok_iff.1 hsend
  rw [Outlet.sink.injEq] at hwritten
  obtain ⟨-, rfl⟩ := hwritten
  by_contra hmany
  obtain ⟨items, hfirst⟩ := after_overlong (Nat.not_le.1 hmany) hencodes
  have hne : wireOf (messagePackets template body chunkSize) ≠ [] := by
    intro hnil
    rw [hnil] at hfirst
    cases hfirst
  -- The bytes may well come in a single read, and its first item is the fault.
  have hone : [] ∉ [wireOf (messagePackets template body chunkSize)] := by
    simpa using hne.symm
  have hflat : [wireOf (messagePackets template body chunkSize)].flatten =
      wireOf (messagePackets template body chunkSize) := List.flatten_singleton ..
  rw [← hflat] at hfirst
  obtain ⟨answers, hgiven⟩ := StreamReader.calls_first hfirst hone 1
  rw [hread _ hflat hone 0] at hgiven
  cases hgiven

theorem arrives_iff (hplain : template.Unplaced) (hclean : template.IsClean) :
    (∃ message, template.Arrives body chunkSize message) ↔
      (∀ p ∈ messagePackets template body chunkSize, p.body.length ≤ maxBody) ∧
        body.length ≤ maxMessagePackets * max chunkSize 1 := by
  have hfits : (∀ p ∈ messagePackets template body chunkSize, ∃ bytes, p.encode = .ok bytes) ↔
      ∀ p ∈ messagePackets template body chunkSize, p.body.length ≤ maxBody :=
    forall₂_congr fun p hp => (hclean.messagePackets hp).encodes_iff
  rw [← hfits, ← length_chunks_le_iff]
  constructor
  · rintro ⟨message, harrives⟩
    have hfew := few_of_arrives harrives
    obtain ⟨count, written, hsend, -⟩ := harrives
    exact ⟨(Outlet.sendMessage_ok_iff.1 hsend).1, hfew⟩
  · rintro ⟨hencodes, hfew⟩
    exact ⟨_, arrives_of_few hplain hfew hencodes⟩

end Packet

end JobBroker
