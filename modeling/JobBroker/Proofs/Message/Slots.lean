import JobBroker.Proofs.Message.Sources

/-! The slots of a message that is being rebuilt from whatever packets, refused ones among them. The
missing places are always the empty slots, and there are no more slots than a message may have
packets. -/
namespace JobBroker

namespace Reassembly
variable {r r' : Reassembly} {p : Packet}

def emptySlots (r : Reassembly) : List Nat :=
  (List.range r.total).filter fun seq => r.slots[seq]? = some none

def after (r : Reassembly) (packets : List Packet) : Reassembly :=
  packets.foldl (fun r p => (r.add p).1) r

/-- What no packet changes: missing are the empty slots, which are few, and none before the slots
are fixed. -/
structure Aligned (r : Reassembly) : Prop where
  missing : r.missing = r.emptySlots
  few : r.total ≤ maxMessagePackets
  unfixed : r.sequenced = false → r.total = 0

theorem Aligned.keep (h : r.Aligned) (hslots : r'.slots = r.slots)
    (hmissing : r'.missing = r.missing) (hsequenced : r'.sequenced = r.sequenced) :
    r'.Aligned where
  missing := by
    rw [emptySlots, total, hslots, hmissing]
    exact h.missing
  few := by
    rw [total, hslots]
    exact h.few
  unfixed := by
    rw [total, hslots, hsequenced]
    exact h.unfixed

theorem mem_emptySlots {seq : Nat} : seq ∈ r.emptySlots ↔ r.slots[seq]? = some none := by
  rw [emptySlots, List.mem_filter, List.mem_range, decide_eq_true_iff, and_iff_right_iff_imp]
  exact fun hslot => (Array.getElem?_eq_some_iff.1 hslot).1

theorem nodup_emptySlots (r : Reassembly) : r.emptySlots.Nodup := List.nodup_range.filter _

theorem Aligned.note (h : r.Aligned) (p : Packet) : (r.noteCompleted p).Aligned := by
  obtain ⟨hslots, hmissing, hsequenced⟩ := slots_noteCompleted r p
  exact h.keep hslots hmissing hsequenced

theorem Aligned.addUnsequenced (h : r.Aligned) (p : Packet) : (r.addUnsequenced p).Aligned := by
  rw [addUnsequenced_eq]
  exact h.keep rfl rfl rfl

theorem Aligned.fixSlots (h : r.Aligned) (hfix : r.fixSlots p = .ok r') : r'.Aligned := by
  obtain ⟨-, rfl⟩ | ⟨-, total, -, -, -, hfew, rfl⟩ := fixSlots_ok hfix
  · exact h
  · have hsize : (Array.replicate total (none : Option Bytes)).size = total :=
      Array.size_replicate
    refine ⟨?_, ?_, nofun⟩
    · symm
      rw [emptySlots, Reassembly.total, hsize]
      refine List.filter_eq_self.2 fun seq hseq => ?_
      rw [Array.getElem?_replicate, if_pos (List.mem_range.1 hseq)]
      exact decide_eq_true rfl
    · rw [Reassembly.total, hsize]
      exact hfew

theorem fill_empty {seq : Nat} (hslot : r.slots[seq]? = some none) (p : Packet) :
    r.fill seq p =
      { r with
        slots := r.slots.setIfInBounds seq (some p.message)
        missing := r.missing.erase seq }.merge p := by
  rw [fill, hslot]

theorem total_fill (r : Reassembly) (seq : Nat) (p : Packet) : (r.fill seq p).total = r.total := by
  unfold fill
  split
  · exact Array.size_setIfInBounds
  · rfl

theorem emptySlots_fill {seq : Nat} (hslot : r.slots[seq]? = some none) (p : Packet) :
    (r.fill seq p).emptySlots = r.emptySlots.erase seq := by
  have hlt : seq < r.slots.size := (Array.getElem?_eq_some_iff.1 hslot).1
  rw [r.nodup_emptySlots.erase_eq_filter, emptySlots, emptySlots, total_fill, List.filter_filter]
  refine List.filter_congr fun other _ => ?_
  rw [fill_empty hslot, merge]
  by_cases hother : seq = other
  · subst hother
    simp [Array.getElem?_setIfInBounds_self_of_lt hlt]
  · simp [Array.getElem?_setIfInBounds_ne hother, Ne.symm hother]

theorem Aligned.fill (h : r.Aligned) (seq : Nat) (p : Packet) : (r.fill seq p).Aligned := by
  by_cases hslot : r.slots[seq]? = some none
  · have hmissing : (r.fill seq p).missing = r.missing.erase seq := by
      rw [fill_empty hslot]
      rfl
    have hsequenced : (r.fill seq p).sequenced = r.sequenced := by
      rw [fill_empty hslot]
      rfl
    refine ⟨?_, ?_, fun hfresh => ?_⟩
    · rw [hmissing, h.missing, emptySlots_fill hslot]
    · rw [total_fill]
      exact h.few
    · rw [total_fill]
      exact h.unfixed (hsequenced.symm.trans hfresh)
  · have hsame : r.fill seq p = r := by
      unfold Reassembly.fill
      split
      · exact absurd ‹_› hslot
      · rfl
    rwa [hsame]

theorem Aligned.add (h : r.Aligned) (p : Packet) : (r.add p).1.Aligned := by
  rw [Reassembly.add]
  split
  · exact h.note p
  · exact (h.note p).addUnsequenced p
  · split
    · exact h.note p
    · rename_i hfix
      exact ((h.note p).fixSlots hfix).fill _ p

theorem aligned_empty : Aligned {} := ⟨rfl, Nat.zero_le _, fun _ => rfl⟩

theorem Aligned.length_missing_le_total (h : r.Aligned) : r.missing.length ≤ r.total :=
  calc
    r.missing.length = r.emptySlots.length := congrArg List.length h.missing
    _ ≤ (List.range r.total).length := List.length_filter_le ..
    _ = r.total := List.length_range

theorem Aligned.fixed_of_lt (h : r.Aligned) {place : Nat} (hlt : place < r.total) :
    r.sequenced = true := by
  rw [← Bool.not_eq_false]
  intro hfresh
  rw [h.unfixed hfresh] at hlt
  exact Nat.not_lt_zero _ hlt

theorem Aligned.after (h : r.Aligned) (packets : List Packet) : (r.after packets).Aligned := by
  induction packets generalizing r with
  | nil => exact h
  | cons p packets ih => exact ih (h.add p)

/-! Filling the empty slots. -/

theorem Aligned.place_lt (h : r.Aligned) {seq : Nat} (hmissing : seq ∈ r.missing) :
    seq < r.total := by
  rw [h.missing, mem_emptySlots] at hmissing
  exact (Array.getElem?_eq_some_iff.1 hmissing).1

theorem Aligned.place_lt_limit (h : r.Aligned) {seq : Nat} (hmissing : seq ∈ r.missing) :
    seq < maxMessagePackets :=
  Nat.lt_of_lt_of_le (h.place_lt hmissing) h.few

theorem Aligned.place_le_maxWord (h : r.Aligned) {seq : Nat} (hmissing : seq ∈ r.missing) :
    seq ≤ Decimal.maxWord :=
  Nat.le_trans (Nat.le_of_lt (h.place_lt_limit hmissing)) (by decide)

theorem Aligned.toNat_place (h : r.Aligned) {seq : Nat} (hmissing : seq ∈ r.missing) :
    (UInt64.ofNat seq).toNat = seq :=
  UInt64.toNat_ofNat_of_lt (Nat.lt_succ_of_le (h.place_le_maxWord hmissing))

theorem Aligned.missing_add (h : r.Aligned) {seq : UInt64}
    (hplace : p.number .sequenceNum = .ok (some seq)) (hmissing : seq.toNat ∈ r.missing) :
    ∃ r', r.add p = (r', .ok ()) ∧ r'.missing = r.missing.erase seq.toNat := by
  obtain ⟨hslots, hsame, hsequenced⟩ := slots_noteCompleted r p
  have hlt : seq.toNat < r.total := h.place_lt hmissing
  rw [h.missing, mem_emptySlots] at hmissing
  have hfixed : (r.noteCompleted p).sequenced = true := hsequenced.trans (h.fixed_of_lt hlt)
  have hfix : (r.noteCompleted p).fixSlots p = .ok (r.noteCompleted p) := by
    rw [Reassembly.fixSlots, if_pos hfixed]
  refine ⟨(r.noteCompleted p).fill seq.toNat p, ?_, ?_⟩
  · simp only [Reassembly.add, hplace, hfix]
  · rw [fill_empty (by rwa [hslots]), ← hsame]
    rfl

theorem Aligned.complete (h : r.Aligned) {packets : List Packet}
    (hplaces : (packets.map (·.number .sequenceNum)).Perm
      (r.missing.map fun seq => .ok (some (UInt64.ofNat seq)))) :
    ∃ r', r.addAll packets = (r', .ok ()) ∧ r'.isComplete = true := by
  induction packets generalizing r with
  | nil =>
    have hnone : r.missing = [] := List.map_eq_nil_iff.1 hplaces.nil_eq.symm
    exact ⟨r, rfl, List.isEmpty_iff.2 hnone⟩
  | cons p packets ih =>
    rw [List.map_cons] at hplaces
    obtain ⟨seq, hseq, hplace⟩ := List.mem_map.1 (hplaces.subset List.mem_cons_self)
    have hword : (UInt64.ofNat seq).toNat = seq := h.toNat_place hseq
    obtain ⟨r', hadd, hmissing⟩ := h.missing_add hplace.symm (by rwa [hword])
    rw [hword] at hmissing
    have haligned : r'.Aligned := by
      have hnext := h.add p
      rwa [hadd] at hnext
    have hleft : (packets.map (·.number .sequenceNum)).Perm
        (r'.missing.map fun seq => .ok (some (UInt64.ofNat seq))) := by
      have hsplit := hplaces.trans ((List.perm_cons_erase hseq).map _)
      rw [List.map_cons, hplace] at hsplit
      rw [hmissing]
      exact hsplit.cons_inv
    obtain ⟨last, hall, hcomplete⟩ := ih haligned hleft
    exact ⟨last, by simp only [addAll, hadd, hall], hcomplete⟩

end Reassembly

end JobBroker
