import JobBroker.Proofs.Stream.Reads

/-! Messages over a connection: whatever can be written of a list of messages is read back message
by message, however the bytes are cut on the way. -/
namespace JobBroker

def wireOf (packets : List Packet) : Bytes := packets.flatMap fun p => Packet.frame p.body

@[simp] theorem Outlet.put_sink (taken bytes : Bytes) :
    (sink none taken).put bytes = (.ok (), sink none (taken ++ bytes)) := rfl

theorem encodeAll_ok {packets : List Packet} (h : ∀ p ∈ packets, ∃ bytes, p.encode = .ok bytes)
    (done : List Bytes) :
    encodeAll done packets = .ok (done.reverse ++ packets.map fun p => Packet.frame p.body) := by
  induction packets generalizing done with
  | nil => simp [encodeAll]
  | cons p packets ih =>
    obtain ⟨bytes, hencode⟩ := h p (List.mem_cons_self ..)
    obtain ⟨-, -, hbytes⟩ := (Packet.encode_ok_iff p bytes).1 hencode
    rw [encodeAll, hencode]
    dsimp only
    rw [ih fun p hp => h p (List.mem_cons_of_mem _ hp)]
    simp [hbytes]

theorem feed_wireOf {packets : List Packet} (h : ∀ p ∈ packets, ∃ bytes, p.encode = .ok bytes) :
    Decoder.start.feed (wireOf packets) = (.start, packets.map fun p => .ok p.upper) := by
  induction packets with
  | nil => rfl
  | cons p packets ih =>
    obtain ⟨bytes, hencode⟩ := h p (List.mem_cons_self ..)
    obtain ⟨-, -, rfl⟩ := (Packet.encode_ok_iff p bytes).1 hencode
    have hwire : wireOf (p :: packets) = Packet.frame p.body ++ wireOf packets := rfl
    rw [hwire, Decoder.feed_append, Packet.feed_encoded hencode,
      ih fun p hp => h p (List.mem_cons_of_mem _ hp)]
    rfl

/-- A message that can be sent in chunks of this size and rebuilt from them. -/
structure Outgoing (chunkSize : Nat) where
  template : Packet
  body : Bytes
  unplaced : template.Unplaced
  few : (chunks chunkSize body).length ≤ maxMessagePackets
  encodes : ∀ p ∈ messagePackets template body chunkSize, ∃ bytes, p.encode = .ok bytes

namespace Outgoing
variable {chunkSize : Nat} (m : Outgoing chunkSize)

def packets : List Packet := messagePackets m.template m.body chunkSize

/-- The message as its receiver has it: the arguments in capitals, marked as completed if there is
a body, with the body. -/
def received : Packet := m.template.upper.assembled m.body

theorem unplaced_received : m.received.Unplaced := m.unplaced.upper.assembled m.body

theorem sendMessage_eq (taken : Bytes) :
    (Outlet.sink none taken).sendMessage m.template m.body chunkSize =
      (.ok m.packets.length, .sink none (taken ++ wireOf m.packets)) := by
  have hencode : encodeMessage m.template m.body chunkSize =
      .ok (m.packets.map fun p => Packet.frame p.body) := encodeAll_ok m.encodes []
  rw [Outlet.sendMessage, hencode]
  simp [wireOf, List.flatMap_def]

theorem after_wire :
    ({} : StreamReader).after (wireOf m.packets) = ([.message m.received], {}) := by
  have hupper : m.packets.map (fun p => (.ok p.upper : Decoded)) =
      (messagePackets m.template.upper m.body chunkSize).map .ok := by
    rw [← upper_messagePackets, List.map_map]
    rfl
  rw [StreamReader.after]
  dsimp only
  have hfeed : Decoder.start.feed (wireOf m.packets) =
      (.start, m.packets.map fun p => .ok p.upper) := feed_wireOf m.encodes
  rw [hfeed, hupper, Assembler.hearAll_messagePackets m.unplaced.upper m.few]
  rfl

end Outgoing

namespace Outlet

def sendAll (chunkSize : Nat) (o : Outlet) :
    List (Packet × Bytes) → List (Except SendError Nat) × Outlet
  | [] => ([], o)
  | (template, body) :: messages =>
    let (sent, o) := o.sendMessage template body chunkSize
    let (others, o) := o.sendAll chunkSize messages
    (sent :: others, o)

theorem sendAll_eq {chunkSize : Nat} (messages : List (Outgoing chunkSize)) (taken : Bytes) :
    (sink none taken).sendAll chunkSize (messages.map fun m => (m.template, m.body)) =
      (messages.map fun m => .ok m.packets.length,
        sink none (taken ++ messages.flatMap fun m => wireOf m.packets)) := by
  induction messages generalizing taken with
  | nil => simp [sendAll]
  | cons m messages ih => simp [sendAll, m.sendMessage_eq, ih]

end Outlet

namespace StreamReader

theorem after_messages {chunkSize : Nat} (messages : List (Outgoing chunkSize)) :
    ({} : StreamReader).after (messages.flatMap fun m => wireOf m.packets) =
      (messages.map fun m => .message m.received, {}) := by
  induction messages with
  | nil => rfl
  | cons m messages ih =>
    rw [List.flatMap_cons, after_append, m.after_wire, ih]
    rfl

theorem calls_after {bytes : Bytes} {items : List Inbound}
    (h : ({} : StreamReader).after bytes = (items, {})) {reads : List Bytes}
    (hcut : reads.flatten = bytes) (hne : [] ∉ reads) (n : Nat) :
    calls .endOfStream (items.length + 1 + n) {} reads =
      items.map Answer.item ++ List.replicate (n + 1) (.item .closed) := by
  have hitems := itemsOf_eq (r := {}) ⟨rfl, rfl⟩ reads hne
  have hlast : StreamReader.last {} = [.closed] := rfl
  rw [hcut, h, hlast] at hitems
  have hcalls := calls_eq (r := {}) rfl reads n
  rwa [hitems, List.length_append, List.length_singleton, List.map_append,
    List.append_assoc] at hcalls

/-- Messages are written one after the other to a sink that takes all bytes, and the bytes are read
in any pieces, up to the end of the stream. All of them are written, and the reader gives one
message for each, in order, and then that the stream is closed. -/
theorem messages_arrive {chunkSize : Nat} (messages : List (Outgoing chunkSize)) :
    ∃ written,
      (Outlet.sink none []).sendAll chunkSize (messages.map fun m => (m.template, m.body)) =
        (messages.map fun m => .ok m.packets.length, .sink none written) ∧
      (∀ reads : List Bytes, reads.flatten = written → [] ∉ reads → ∀ n,
        calls .endOfStream (messages.length + 1 + n) {} reads =
          (messages.map fun m => Answer.item (.message m.received)) ++
            List.replicate (n + 1) (Answer.item .closed)) ∧
      ∀ m ∈ messages, m.received.Unplaced := by
  refine ⟨_, Outlet.sendAll_eq messages [], ?_, fun m _ => m.unplaced_received⟩
  intro reads hcut hne n
  rw [List.nil_append] at hcut
  have hcalls := calls_after (after_messages messages) hcut hne n
  rwa [List.length_map, List.map_map] at hcalls

end StreamReader

namespace Outgoing

def jobSeven : Packet := Packet.set {} .jobId (.scalar "7")

theorem unplaced_jobSeven : jobSeven.Unplaced := ⟨rfl, rfl⟩

theorem few_short (body : Bytes) (h : body.length ≤ 2) :
    (chunks 1 body).length ≤ maxMessagePackets :=
  (length_chunks_le_iff ..).2 (Nat.le_trans h (by decide))

theorem encodes_pair :
    ∀ p ∈ messagePackets jobSeven [65, 66] 1, ∃ bytes, p.encode = .ok bytes := by
  have hpackets : messagePackets jobSeven [65, 66] 1 =
      [jobSeven.stamped 2 0 [65], jobSeven.stamped 2 1 [66]] := by
    simp [messagePackets_eq, chunks_cons]
  rw [hpackets, List.forall_mem_cons, List.forall_mem_singleton]
  exact ⟨⟨_, rfl⟩, ⟨_, rfl⟩⟩

theorem encodes_bare : ∀ p ∈ messagePackets jobSeven [] 1, ∃ bytes, p.encode = .ok bytes := by
  rw [messagePackets_nil, List.forall_mem_singleton]
  exact ⟨_, rfl⟩

def pair : Outgoing 1 :=
  ⟨jobSeven, [65, 66], unplaced_jobSeven, few_short _ (Nat.le_refl 2), encodes_pair⟩

def bare : Outgoing 1 :=
  ⟨jobSeven, [], unplaced_jobSeven, few_short _ (Nat.zero_le 2), encodes_bare⟩

end Outgoing

/-- Two messages for one job are told apart, even when each byte is read alone. -/
theorem StreamReader.messages_arrive_bytewise :
    ∃ written,
      (Outlet.sink none []).sendAll 1
          [(Outgoing.pair.template, [65, 66]), (Outgoing.bare.template, [])] =
        ([.ok 2, .ok 1], .sink none written) ∧
      calls .endOfStream 3 {} (written.map fun b => [b]) =
        [.item (.message Outgoing.pair.received), .item (.message Outgoing.bare.received),
          .item .closed] := by
  obtain ⟨written, hsent, hread, -⟩ := messages_arrive [Outgoing.pair, Outgoing.bare]
  have hpair : Outgoing.pair.packets.length = 2 := by
    simp [Outgoing.packets, Outgoing.pair, length_messagePackets, chunks_cons]
  have hbare : Outgoing.bare.packets.length = 1 := rfl
  rw [List.map_cons, List.map_cons, List.map_nil, List.map_cons, List.map_cons, List.map_nil, hpair,
    hbare] at hsent
  have hcut : (written.map fun b => [b]).flatten = written := by
    rw [← List.flatMap_def, List.flatMap_singleton']
  have hcalls := hread (written.map fun b => [b]) hcut (by simp) 0
  exact ⟨written, hsent, hcalls⟩

end JobBroker
