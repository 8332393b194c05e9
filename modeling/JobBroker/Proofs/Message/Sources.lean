import JobBroker.Proofs.Message.Gathering

/-! Where the parts of a message come from. A message that is being rebuilt from whatever packets
holds in each filled slot what one of them brought, and all of these name its job and state no other
number of packets. Once no slot is empty the message is their bytes in order. -/
namespace JobBroker

/-- A packet of a message in `total` packets: it has the place, it names the job, and the number of
packets is `total` if it gives one. -/
structure Packet.IsChunk (p : Packet) (job : String) (total place : Nat) : Prop where
  placed : ∃ n, p.number .sequenceNum = .ok (some n) ∧ n.toNat = place
  named : p.scalar? .jobId = some job
  counted : ∀ n, p.number .totalPackets = .ok (some n) → n.toNat = total

theorem Packet.number_eq_none_iff (p : Packet) (k : Key) :
    p.number k = .ok none ↔ p.scalar? k = none := by
  unfold number
  split
  · rename_i h
    exact iff_of_true rfl h
  · rename_i s h
    rw [h]
    split <;> simp

namespace Reassembly
variable {r r' : Reassembly} {p : Packet} {source : Packet → Prop}

/-- What has been gathered of a message in several packets: every filled slot holds what a packet
from the source brought, and these packets name the job of the message. -/
structure Gathers (source : Packet → Prop) (r : Reassembly) : Prop where
  sequenced : r.sequenced = true
  nonempty : 0 < r.total
  empty : ∀ place, r.slots[place]? = some none → place ∈ r.missing
  filled : ∀ place bytes, r.slots[place]? = some (some bytes) →
    ∃ q job, source q ∧ q.IsChunk job r.total place ∧ q.message = bytes ∧
      r.args.scalar? .jobId = some job

theorem Gathers.mono {wider : Packet → Prop} (h : r.Gathers source)
    (hwider : ∀ q, source q → wider q) : r.Gathers wider where
  sequenced := h.sequenced
  nonempty := h.nonempty
  empty := h.empty
  filled := by
    intro place bytes hslot
    obtain ⟨q, job, hq, hrest⟩ := h.filled place bytes hslot
    exact ⟨q, job, hwider q hq, hrest⟩

theorem Gathers.keep (h : r.Gathers source) (hsequenced : r'.sequenced = true)
    (hslots : r'.slots = r.slots) (hmissing : r'.missing = r.missing)
    (hjob : ∀ job, r.args.scalar? .jobId = some job → r'.args.scalar? .jobId = some job) :
    r'.Gathers source where
  sequenced := hsequenced
  nonempty := by
    rw [total, hslots]
    exact h.nonempty
  empty := by
    rw [hslots, hmissing]
    exact h.empty
  filled := by
    intro place bytes hslot
    rw [hslots] at hslot
    obtain ⟨q, job, hq, hchunk, hbytes, hours⟩ := h.filled place bytes hslot
    rw [total, hslots]
    exact ⟨q, job, hq, hchunk, hbytes, hjob job hours⟩

/-! The job of a message. -/

theorem get?_merge (r : Reassembly) (p : Packet) {k : Key} (hplace : k ≠ .sequenceNum)
    (hnumber : k ≠ .totalPackets) :
    (r.merge p).args.get? k = (p.get? k).or (r.args.get? k) := by
  have hmerge : (r.merge p).args.get? k =
      (((p.erase .sequenceNum).erase .totalPackets).get? k).or (r.args.get? k) :=
    Arguments.get?_merge ..
  rw [hmerge, Packet.get?_erase, Packet.get?_erase, if_neg hnumber, if_neg hplace]

theorem jobId_merge (r : Reassembly) {job : String} (hnamed : p.scalar? .jobId = some job) :
    (r.merge p).args.scalar? .jobId = some job := by
  have hmerge := get?_merge r p (k := .jobId) (by decide) (by decide)
  unfold Packet.scalar? at hnamed ⊢
  rw [hmerge]
  cases hp : p.get? .jobId with
  | none => simp [hp] at hnamed
  | some v =>
    rw [hp] at hnamed
    exact hnamed

theorem jobId_noteCompleted (r : Reassembly) (p : Packet) :
    (r.noteCompleted p).args.scalar? .jobId = r.args.scalar? .jobId := by
  unfold noteCompleted
  split
  · rfl
  · simp [Packet.scalar?]

theorem slots_noteCompleted (r : Reassembly) (p : Packet) :
    (r.noteCompleted p).slots = r.slots ∧ (r.noteCompleted p).missing = r.missing ∧
      (r.noteCompleted p).sequenced = r.sequenced := by
  unfold noteCompleted
  split
  · exact ⟨rfl, rfl, rfl⟩
  · exact ⟨rfl, rfl, rfl⟩

/-! What a packet does to a message that it belongs to. -/

/-- What it takes for a packet to be one of this message. -/
structure Suits (r : Reassembly) (p : Packet) : Prop where
  total : ∀ n, p.number .totalPackets = .ok (some n) → n.toNat = r.total
  job : ∀ ours theirs, r.args.scalar? .jobId = some ours → p.scalar? .jobId = some theirs →
    ours = theirs

theorem suits_of_belongs (hsequenced : r.sequenced = true) (h : r.belongs p = true) :
    r.Suits p := by
  rw [belongs, if_pos hsequenced, Bool.and_eq_true] at h
  obtain ⟨htotal, hjob⟩ := h
  constructor
  · intro n hn
    rw [hn] at htotal
    simpa using htotal
  · intro ours theirs hours htheirs
    rw [hours, htheirs] at hjob
    simpa using hjob

theorem Gathers.note (h : r.Gathers source) (p : Packet) : (r.noteCompleted p).Gathers source := by
  obtain ⟨hslots, hmissing, hsequenced⟩ := slots_noteCompleted r p
  refine h.keep ?_ hslots hmissing fun job hjob => ?_
  · rw [hsequenced, h.sequenced]
  · rw [jobId_noteCompleted, hjob]

theorem Suits.note (h : r.Suits p) : (r.noteCompleted p).Suits p where
  total := by
    rw [Reassembly.total, (slots_noteCompleted r p).1]
    exact h.total
  job := by
    rw [jobId_noteCompleted]
    exact h.job

theorem Gathers.merge (h : r.Gathers source) (hsuits : r.Suits p) {job : String}
    (hnamed : p.scalar? .jobId = some job) : (r.merge p).Gathers source := by
  refine h.keep h.sequenced rfl rfl fun ours hours => ?_
  rw [hsuits.job ours job hours hnamed, jobId_merge r hnamed]

theorem addUnsequenced_eq (r : Reassembly) (p : Packet) :
    r.addUnsequenced p =
      { r.merge p with unsequenced := if p.hasMessage then p.message else r.unsequenced } := by
  unfold addUnsequenced
  cases p.hasMessage <;> rfl

theorem Gathers.addUnsequenced (h : r.Gathers source) (hsuits : r.Suits p) {job : String}
    (hnamed : p.scalar? .jobId = some job) : (r.addUnsequenced p).Gathers source := by
  rw [addUnsequenced_eq]
  exact (h.merge hsuits hnamed).keep h.sequenced rfl rfl fun _ hjob => hjob

theorem fixSlots_ok (h : r.fixSlots p = .ok r') :
    (r.sequenced = true ∧ r' = r) ∨
      ∃ declared total, p.number .totalPackets = .ok declared ∧
        (declared.getD 0).toNat = total ∧ 0 < total ∧ total ≤ maxMessagePackets ∧
        r' =
          { r with
            slots := Array.replicate total none
            missing := List.range total
            sequenced := true } := by
  cases hsequenced : r.sequenced with
  | true =>
    rw [fixSlots, if_pos hsequenced] at h
    cases h
    exact .inl ⟨rfl, rfl⟩
  | false =>
    rw [fixSlots, hsequenced, if_neg Bool.false_ne_true] at h
    cases hnumber : p.number .totalPackets with
    | error e => simp [hnumber] at h
    | ok declared =>
      simp only [hnumber] at h
      split at h
      · cases h
      · cases h
        exact .inr ⟨declared, _, rfl, rfl, by omega, by omega, rfl⟩

theorem gathers_of_fixSlots (source : Packet → Prop) (hfresh : r.sequenced = false)
    (h : r.fixSlots p = .ok r') :
    r'.Gathers source ∧ (∀ n, p.number .totalPackets = .ok (some n) → n.toNat = r'.total) ∧
      r'.args = r.args := by
  obtain ⟨hfixed, -⟩ | ⟨declared, total, hnumber, rfl, hpos, -, rfl⟩ := fixSlots_ok h
  · rw [hfresh] at hfixed
    cases hfixed
  · have hsize : (Array.replicate (declared.getD 0).toNat (none : Option Bytes)).size =
        (declared.getD 0).toNat := Array.size_replicate
    refine ⟨⟨rfl, ?_, fun place hslot => ?_, fun place bytes hslot => ?_⟩, fun n hn => ?_, rfl⟩
    · rw [total, hsize]
      exact hpos
    · rw [Array.getElem?_replicate] at hslot
      split at hslot
      · exact List.mem_range.2 ‹_›
      · cases hslot
    · rw [Array.getElem?_replicate] at hslot
      split at hslot <;> cases hslot
    · rw [hnumber] at hn
      cases hn
      exact hsize.symm

theorem Gathers.fill (h : r.Gathers source) (hsuits : r.Suits p) {job : String} {n : UInt64}
    (hsource : source p) (hnamed : p.scalar? .jobId = some job)
    (hplaced : p.number .sequenceNum = .ok (some n)) : (r.fill n.toNat p).Gathers source := by
  have hmerged := h.merge hsuits hnamed
  unfold Reassembly.fill
  split
  · rename_i hslot
    have hlt : n.toNat < r.slots.size := (Array.getElem?_eq_some_iff.1 hslot).1
    have htotal : (r.slots.setIfInBounds n.toNat (some p.message)).size = r.total :=
      Array.size_setIfInBounds
    refine ⟨h.sequenced, ?_, fun place hempty => ?_, fun place bytes hfilled => ?_⟩
    · exact Nat.lt_of_lt_of_eq h.nonempty htotal.symm
    · have hslots : (r.slots.setIfInBounds n.toNat (some p.message))[place]? = some none := hempty
      by_cases hplace : n.toNat = place
      · subst hplace
        rw [Array.getElem?_setIfInBounds_self_of_lt hlt] at hslots
        cases hslots
      · rw [Array.getElem?_setIfInBounds_ne hplace] at hslots
        exact (List.mem_erase_of_ne (Ne.symm hplace)).2 (h.empty place hslots)
    · have hslots : (r.slots.setIfInBounds n.toNat (some p.message))[place]? = some (some bytes) :=
        hfilled
      by_cases hplace : n.toNat = place
      · subst hplace
        rw [Array.getElem?_setIfInBounds_self_of_lt hlt] at hslots
        cases hslots
        refine ⟨p, job, hsource, ⟨⟨n, hplaced, rfl⟩, hnamed, ?_⟩, rfl, jobId_merge r hnamed⟩
        exact fun total htotal' => (hsuits.total total htotal').trans htotal.symm
      · rw [Array.getElem?_setIfInBounds_ne hplace] at hslots
        obtain ⟨q, job, hq, hchunk, hbytes, hours⟩ := hmerged.filled place bytes hslots
        refine ⟨q, job, hq, ⟨hchunk.placed, hchunk.named, fun total htotal' => ?_⟩, hbytes, hours⟩
        exact (hchunk.counted total htotal').trans htotal.symm
  · exact h

theorem add_ok (h : r.add p = (r', .ok ())) :
    (p.scalar? .sequenceNum = none ∧ r' = (r.noteCompleted p).addUnsequenced p) ∨
      ∃ n opened, p.number .sequenceNum = .ok (some n) ∧
        (r.noteCompleted p).fixSlots p = .ok opened ∧ r' = opened.fill n.toNat p := by
  rw [add] at h
  split at h
  · cases h
  · rename_i hnone
    cases h
    exact .inl ⟨(p.number_eq_none_iff _).1 hnone, rfl⟩
  · rename_i n hn
    split at h
    · cases h
    · rename_i opened hopened
      cases h
      exact .inr ⟨n, opened, hn, hopened, rfl⟩

/-- A packet that belongs is added to what has been gathered. Without a place it fills no slot. -/
theorem Gathers.add (h : r.Gathers source) (hbelongs : r.belongs p = true) {job : String}
    (hnamed : p.scalar? .jobId = some job) (hsource : source p) (hadd : r.add p = (r', .ok ())) :
    r'.Gathers source ∧ (p.scalar? .sequenceNum = none → r'.missing = r.missing) := by
  have hsuits := suits_of_belongs h.sequenced hbelongs
  obtain ⟨hnone, rfl⟩ | ⟨n, opened, hn, hopened, rfl⟩ := add_ok hadd
  · refine ⟨(h.note p).addUnsequenced hsuits.note hnamed, fun _ => ?_⟩
    rw [addUnsequenced_eq]
    exact (slots_noteCompleted r p).2.1
  · have hfixed : (r.noteCompleted p).sequenced = true := (h.note p).sequenced
    rw [fixSlots, if_pos hfixed] at hopened
    cases hopened
    refine ⟨(h.note p).fill hsuits.note hsource hnamed hn, fun hnone => ?_⟩
    rw [(p.number_eq_none_iff _).2 hnone] at hn
    cases hn

theorem gathers_of_first {n : UInt64} {job : String}
    (hplaced : p.number .sequenceNum = .ok (some n))
    (hnamed : p.scalar? .jobId = some job) (hsource : source p)
    (hadd : add {} p = (r', .ok ())) : r'.Gathers source := by
  obtain ⟨hnone, -⟩ | ⟨n, opened, hn, hopened, rfl⟩ := add_ok hadd
  · rw [(p.number_eq_none_iff _).2 hnone] at hplaced
    cases hplaced
  · have hfresh : (noteCompleted {} p).sequenced = false := (slots_noteCompleted {} p).2.2
    obtain ⟨hgathers, htotal, hargs⟩ := gathers_of_fixSlots source hfresh hopened
    refine hgathers.fill ⟨htotal, fun ours theirs hours => ?_⟩ hsource hnamed hn
    rw [hargs, jobId_noteCompleted] at hours
    cases hours

theorem get?_noteCompleted (p : Packet) (k : Key) :
    (noteCompleted {} p).args.get? k = none ∨ (noteCompleted {} p).args.get? k = p.get? k := by
  have hempty : Packet.get? {} k = none := by
    cases k <;> rfl
  unfold noteCompleted
  split
  · exact .inl hempty
  · rename_i flag hflag
    rw [Packet.get?_set]
    split
    · rename_i hk
      subst hk
      refine .inr ?_
      unfold Packet.scalar? at hflag
      cases hp : p.get? .completed with
      | none => simp [hp] at hflag
      | some v =>
        cases v with
        | scalar text => simpa [hp, Value.scalar?] using hflag.symm
        | array elements => simp [hp, Value.scalar?] at hflag
    · exact .inl hempty

theorem add_alone (hnone : p.scalar? .sequenceNum = none) (hadd : add {} p = (r', .ok ())) :
    r'.isComplete = true ∧ r'.toPacket.message = p.message ∧
      ∀ k, k ≠ .sequenceNum → k ≠ .totalPackets → r'.toPacket.get? k = p.get? k := by
  obtain ⟨-, rfl⟩ | ⟨n, opened, hn, -⟩ := add_ok hadd
  · obtain ⟨-, hmissing, hsequenced⟩ := slots_noteCompleted {} p
    have hmessage : (noteCompleted {} p).unsequenced = [] := by
      unfold noteCompleted
      split <;> rfl
    rw [addUnsequenced_eq]
    refine ⟨?_, ?_, fun k hplace hnumber => ?_⟩
    · exact List.isEmpty_iff.2 hmissing
    · have harrived : ∀ m, ({ (noteCompleted {} p).merge p with unsequenced := m }).arrived = m :=
        fun m => if_neg (by simpa [merge] using hsequenced)
      rw [toPacket, Packet.message_withMessage, harrived, hmessage, Packet.hasMessage]
      cases p.message <;> rfl
    · have hmerge := get?_merge (noteCompleted {} p) p hplace hnumber
      rw [toPacket, Packet.get?_withMessage]
      refine hmerge.trans ?_
      obtain hkept | hkept := get?_noteCompleted p k
      · rw [hkept, Option.or_none]
      · rw [hkept, Option.or_self]
  · rw [(p.number_eq_none_iff _).2 hnone] at hn
    cases hn

theorem Gathers.complete (h : r.Gathers source) (hcomplete : r.isComplete = true) :
    ∃ (job : String) (chunks : List Packet), chunks ≠ [] ∧
      (∀ place q, chunks[place]? = some q → source q ∧ q.IsChunk job chunks.length place) ∧
      r.toPacket.scalar? .jobId = some job ∧
      r.toPacket.message = (chunks.map Packet.message).flatten := by
  have hslot : ∀ place : Fin r.total, ∃ q, source q ∧
      (∃ job, q.IsChunk job r.total place ∧ r.args.scalar? .jobId = some job) ∧
      r.slots[place.val]? = some (some q.message) := by
    intro place
    have hsome : r.slots[place.val]? = some r.slots[place.val] :=
      Array.getElem?_eq_getElem place.isLt
    cases hheld : r.slots[place.val] with
    | none =>
      rw [hheld] at hsome
      have hmissing := h.empty place hsome
      rw [List.isEmpty_iff.1 hcomplete] at hmissing
      cases hmissing
    | some bytes =>
      rw [hheld] at hsome
      obtain ⟨q, job, hq, hchunk, rfl, hours⟩ := h.filled place bytes hsome
      exact ⟨q, hq, ⟨job, hchunk, hours⟩, hsome⟩
  choose chunk hsource hchunk hheld using hslot
  obtain ⟨job, -, hours⟩ := hchunk ⟨0, h.nonempty⟩
  have hlength : (List.ofFn chunk).length = r.total := List.length_ofFn
  refine ⟨job, List.ofFn chunk, ?_, fun place q hq => ?_, hours, ?_⟩
  · rw [← List.length_pos_iff, hlength]
    exact h.nonempty
  · rw [List.getElem?_ofFn] at hq
    split at hq
    · cases hq
      obtain ⟨job', hthis, hours'⟩ := hchunk ⟨place, ‹_›⟩
      obtain rfl : job = job' := Option.some.inj (hours.symm.trans hours')
      rw [hlength]
      exact ⟨hsource _, hthis⟩
    · cases hq
  · have hslots : r.slots.toList = (List.ofFn chunk).map fun q => some q.message := by
      have hsize : r.slots.toList.length =
          ((List.ofFn chunk).map fun q => some q.message).length := by
        rw [List.length_map, hlength]
        rfl
      refine List.ext_getElem hsize fun place hplace _ => ?_
      have hsome := hheld ⟨place, hplace⟩
      rw [Array.getElem?_eq_getElem hplace, Option.some.injEq] at hsome
      rw [List.getElem_map, List.getElem_ofFn, Array.getElem_toList]
      exact hsome
    rw [toPacket, Packet.message_withMessage, arrived, if_pos h.sequenced, hslots,
      List.filterMap_map]
    simp [Function.comp_def]

end Reassembly

end JobBroker
