import JobBroker.Proofs.Message.Slots
import Mathlib.Data.List.Induction

/-! The slots of a message from its first packet on. The first packet that has a place and a number
of packets within the limits says how many slots there are, and no later one changes that or what a
slot holds. On a connection a message stays under way only while a slot of it is empty and its
sender has not marked a last packet: what becomes complete is handed out by the call that completes
it. -/
namespace JobBroker

def Packet.opens? (p : Packet) : Option Nat :=
  match p.number .sequenceNum, p.number .totalPackets with
  | .ok (some _), .ok (some total) =>
    if 0 < total.toNat ∧ total.toNat ≤ maxMessagePackets then some total.toNat else none
  | _, _ => none

namespace Reassembly
variable {r r' : Reassembly} {p : Packet}

def size? (r : Reassembly) : Option Nat := if r.sequenced then some r.total else none

theorem size?_congr (hslots : r'.slots = r.slots) (hsequenced : r'.sequenced = r.sequenced) :
    r'.size? = r.size? := by
  rw [size?, size?, total, total, hslots, hsequenced]

theorem sequenced_eq (r : Reassembly) : r.sequenced = r.size?.isSome := by
  unfold size?
  cases r.sequenced <;> rfl

theorem Aligned.total_eq (h : r.Aligned) : r.total = r.size?.getD 0 := by
  unfold size?
  cases hsequenced : r.sequenced with
  | true => rfl
  | false => exact h.unfixed hsequenced

/-! The number of slots. -/

theorem fixSlots_fixed (h : r.sequenced = true) (p : Packet) : r.fixSlots p = .ok r := by
  rw [fixSlots, if_pos h]

theorem size?_fixSlots {seq : UInt64} (hplace : p.number .sequenceNum = .ok (some seq)) :
    (∀ opened, r.fixSlots p = .ok opened → opened.size? = r.size?.or p.opens?) ∧
      ∀ e, r.fixSlots p = .error e → r.size?.or p.opens? = r.size? := by
  cases hsequenced : r.sequenced with
  | true =>
    have hsize : r.size? = some r.total := by rw [size?, if_pos hsequenced]
    rw [fixSlots_fixed hsequenced, hsize]
    refine ⟨fun opened hopened => ?_, fun e he => ?_⟩
    · cases hopened
      exact hsize
    · cases he
  | false =>
    have hsize : r.size? = none := by rw [size?, hsequenced, if_neg Bool.false_ne_true]
    rw [hsize, Option.none_or, fixSlots, hsequenced, if_neg Bool.false_ne_true, Packet.opens?,
      hplace]
    cases p.number .totalPackets with
    | error e => simp
    | ok declared =>
      cases declared with
      | none => simp
      | some total =>
        dsimp only
        by_cases hlimits : 0 < total.toNat ∧ total.toNat ≤ maxMessagePackets
        · have hin : ¬ (total.toNat = 0 ∨ maxMessagePackets < total.toNat) := by omega
          rw [Option.getD_some, if_neg hin, if_pos hlimits]
          simp [size?, Reassembly.total]
        · have hout : total.toNat = 0 ∨ maxMessagePackets < total.toNat := by omega
          rw [Option.getD_some, if_pos hout, if_neg hlimits]
          simp

theorem size?_fill (r : Reassembly) (seq : Nat) (p : Packet) : (r.fill seq p).size? = r.size? := by
  have hsequenced : (r.fill seq p).sequenced = r.sequenced := by
    unfold fill
    split <;> rfl
  rw [size?, size?, total_fill, hsequenced]

theorem size?_add (r : Reassembly) (p : Packet) : (r.add p).1.size? = r.size?.or p.opens? := by
  obtain ⟨hslots, -, hsequenced⟩ := slots_noteCompleted r p
  have hnote : (r.noteCompleted p).size? = r.size? := size?_congr hslots hsequenced
  rw [add]
  split
  · rename_i e hplace
    have hnone : p.opens? = none := by rw [Packet.opens?, hplace]
    rw [hnone, Option.or_none, hnote]
  · rename_i hplace
    have hnone : p.opens? = none := by rw [Packet.opens?, hplace]
    rw [hnone, Option.or_none, ← hnote, addUnsequenced_eq]
    exact size?_congr rfl rfl
  · rename_i seq hplace
    obtain ⟨hopens, hrefuses⟩ := size?_fixSlots (r := r.noteCompleted p) hplace
    rw [← hnote]
    split
    · rename_i e hfix
      exact (hrefuses e hfix).symm
    · rename_i opened hfix
      rw [size?_fill, hopens opened hfix]

theorem size?_after (packets : List Packet) (r : Reassembly) :
    (r.after packets).size? = r.size?.or (packets.findSome? Packet.opens?) := by
  induction packets generalizing r with
  | nil => exact (Option.or_none ..).symm
  | cons p packets ih =>
    have hstep : r.after (p :: packets) = (r.add p).1.after packets := rfl
    rw [hstep, ih, size?_add, Option.or_assoc, List.findSome?_cons]
    cases p.opens? <;> rfl

/-! What the slots hold. -/

theorem fill_filled {place : Nat} {bytes : Bytes} (hslot : r.slots[place]? = some (some bytes))
    (seq : Nat) (p : Packet) : (r.fill seq p).slots[place]? = some (some bytes) := by
  unfold fill
  split
  · rename_i hempty
    have hother : seq ≠ place := by
      rintro rfl
      rw [hempty] at hslot
      cases hslot
    exact (Array.getElem?_setIfInBounds_ne hother).trans hslot
  · exact hslot

theorem Aligned.filled_add (h : r.Aligned) {place : Nat} {bytes : Bytes}
    (hslot : r.slots[place]? = some (some bytes)) (p : Packet) :
    (r.add p).1.slots[place]? = some (some bytes) := by
  obtain ⟨hslots, -, hsequenced⟩ := slots_noteCompleted r p
  have hfixed : (r.noteCompleted p).sequenced = true :=
    hsequenced.trans (h.fixed_of_lt (Array.getElem?_eq_some_iff.1 hslot).1)
  rw [← hslots] at hslot
  rw [Reassembly.add, fixSlots_fixed hfixed]
  split
  · exact hslot
  · rw [addUnsequenced_eq]
    exact hslot
  · exact fill_filled hslot _ p

theorem Aligned.filled_after (h : r.Aligned) {place : Nat} {bytes : Bytes}
    (hslot : r.slots[place]? = some (some bytes)) (packets : List Packet) :
    (r.after packets).slots[place]? = some (some bytes) := by
  induction packets generalizing r with
  | nil => exact hslot
  | cons p packets ih => exact ih (h.add p) (h.filled_add hslot p)

theorem Aligned.fullMessage_eq_none_iff (h : r.Aligned) :
    r.fullMessage true = none ↔ ∃ place : Nat, r.slots[place]? = some none := by
  rw [fullMessage, isComplete, h.missing]
  cases hempty : r.emptySlots with
  | nil =>
    refine iff_of_false (by simp) ?_
    rintro ⟨place, hslot⟩
    rw [← mem_emptySlots, hempty] at hslot
    cases hslot
  | cons place rest =>
    refine iff_of_true rfl ⟨place, ?_⟩
    rw [← mem_emptySlots, hempty]
    exact List.mem_cons_self

/-! The mark of the last packet. -/

theorem args_fixSlots (h : r.fixSlots p = .ok r') : r'.args = r.args := by
  obtain ⟨-, rfl⟩ | ⟨-, -, -, -, -, -, rfl⟩ := fixSlots_ok h
  · rfl
  · rfl

theorem completed_add {flag : String} (hflag : p.scalar? .completed = some flag)
    (hadd : r.add p = (r', .ok ())) : r'.args.get? .completed = some (.scalar flag) := by
  have hpacket : p.get? .completed = some (.scalar flag) := by
    rw [Packet.scalar?, Option.bind_eq_some_iff] at hflag
    obtain ⟨v, hv, hscalar⟩ := hflag
    cases v with
    | scalar text =>
      cases hscalar
      exact hv
    | array elements => cases hscalar
  have hnoted : (r.noteCompleted p).args.get? .completed = some (.scalar flag) := by
    simp [noteCompleted, hflag]
  have hmerged : ∀ s : Reassembly, (s.merge p).args.get? .completed = some (.scalar flag) := by
    intro s
    rw [get?_merge s p (by decide) (by decide), hpacket, Option.some_or]
  obtain ⟨-, rfl⟩ | ⟨n, opened, -, hopened, rfl⟩ := add_ok hadd
  · rw [addUnsequenced_eq]
    exact hmerged _
  · unfold fill
    split
    · exact hmerged _
    · rw [args_fixSlots hopened]
      exact hnoted

theorem senderCompleted_add (hmark : p.completed? = some true) (hadd : r.add p = (r', .ok ())) :
    r'.senderCompleted = true := by
  rw [Packet.completed?, Option.bind_eq_some_iff] at hmark
  obtain ⟨flag, hflag, hread⟩ := hmark
  have hargs := completed_add hflag hadd
  simp [senderCompleted, Packet.completed?, Packet.scalar?, hargs, Value.scalar?, hread]

/-- What holds of a message to which these packets have been added, refused ones among them. -/
structure Consistent (packets : List Packet) (r : Reassembly) : Prop where
  /-- Missing are exactly the places of the empty slots. -/
  missing : r.missing = r.emptySlots
  /-- There are no slots before the first packet that opens some, and from then on as many as it
  opens. -/
  total : r.total = (packets.findSome? Packet.opens?).getD 0
  sequenced : r.sequenced = (packets.findSome? Packet.opens?).isSome
  filled : ∀ (place : Nat) (bytes : Bytes), r.slots[place]? = some (some bytes) →
    ∀ later, (r.after later).slots[place]? = some (some bytes)
  /-- The number of slots that are not missing is no less than zero. -/
  received : r.received + r.missing.length = r.total
  full : r.fullMessage true = none ↔ ∃ place : Nat, r.slots[place]? = some none

theorem consistent_after (packets : List Packet) : (after {} packets).Consistent packets := by
  have haligned : (after {} packets).Aligned := aligned_empty.after packets
  have hsize : (after {} packets).size? = packets.findSome? Packet.opens? := size?_after packets {}
  exact {
    missing := haligned.missing
    total := by rw [haligned.total_eq, hsize]
    sequenced := by rw [sequenced_eq, hsize]
    filled := fun _ _ hslot later => haligned.filled_after hslot later
    received := Nat.sub_add_cancel haligned.length_missing_le_total
    full := haligned.fullMessage_eq_none_iff }

/-- What holds of a message that is under way when these packets have been accepted. -/
structure Waits (packets : List Packet) (r : Reassembly) : Prop where
  sequenced : r.sequenced = true
  lacking : ∃ place : Nat, r.slots[place]? = some none
  unmarked : r.senderCompleted = false
  /-- It is made of some of the packets, in order, and none of these marks the last. -/
  made : ∃ added, added.Sublist packets ∧ r = after {} added ∧
    ∀ p ∈ added, p.completed? ≠ some true

theorem Waits.mono {packets more : List Packet} (h : r.Waits packets)
    (hmore : packets.Sublist more) : r.Waits more := by
  obtain ⟨added, hsub, hmade⟩ := h.made
  exact ⟨h.sequenced, h.lacking, h.unmarked, added, hsub.trans hmore, hmade⟩

theorem Aligned.incomplete (h : r.Aligned) (hincomplete : r.isComplete = false) :
    r.sequenced = true ∧ ∃ place : Nat, r.slots[place]? = some none := by
  have hfull : r.fullMessage true = none := by
    rw [fullMessage, hincomplete]
    rfl
  obtain ⟨place, hslot⟩ := h.fullMessage_eq_none_iff.1 hfull
  exact ⟨h.fixed_of_lt (Array.getElem?_eq_some_iff.1 hslot).1, place, hslot⟩

theorem waits_of_add {packets added : List Packet} (hsub : added.Sublist packets)
    (hmade : r = after {} added) (hunmarked : ∀ q ∈ added, q.completed? ≠ some true)
    (hadd : r.add p = (r', .ok ())) (hincomplete : r'.isComplete = false)
    (hgoesOn : r'.senderCompleted = false) : r'.Waits (packets ++ [p]) := by
  have hmade' : r' = after {} (added ++ [p]) := by
    have hlast : after {} (added ++ [p]) = ((after {} added).add p).1 := List.foldl_concat ..
    rw [hlast, ← hmade, hadd]
  have haligned : r'.Aligned := hmade' ▸ aligned_empty.after (added ++ [p])
  obtain ⟨hsequenced, hlacking⟩ := haligned.incomplete hincomplete
  have hsub' : (added ++ [p]).Sublist (packets ++ [p]) := hsub.append (List.Sublist.refl _)
  refine ⟨hsequenced, hlacking, hgoesOn, added ++ [p], hsub', hmade', ?_⟩
  intro q hq hmark
  obtain hq | hq := List.mem_append.1 hq
  · exact hunmarked q hq hmark
  · rw [List.mem_singleton.1 hq] at hmark
    rw [senderCompleted_add hmark hadd] at hgoesOn
    cases hgoesOn

end Reassembly

namespace Assembler
variable {a : Assembler} {p : Packet} {r : Reassembly}

/-- What the owner of an assembler does with it. -/
inductive Call where
  | accept (p : Packet)
  | takeDeferred

def call (a : Assembler) : Call → Assembler × Option Decoded
  | .accept p => a.accept p
  | .takeDeferred => a.takeDeferred

def run (calls : List Call) : Assembler := calls.foldl (fun a c => (a.call c).1) {}

def brought (calls : List Call) : List Packet :=
  calls.filterMap fun
    | .accept p => some p
    | .takeDeferred => none

theorem run_concat (calls : List Call) (c : Call) :
    run (calls ++ [c]) = ((run calls).call c).1 := by
  rw [run, List.foldl_append]
  rfl

/-- The message to which a packet with a place is added: the one under way if it can be one of it,
and otherwise a new one. -/
def target (a : Assembler) (p : Packet) : Reassembly :=
  match a.pending with
  | some r => if r.belongs p then r else {}
  | none => {}

theorem target_cases (a : Assembler) (p : Packet) :
    a.target p = {} ∨ a.pending = some (a.target p) := by
  unfold target
  split
  · rename_i r hpending
    split
    · exact .inr hpending
    · exact .inl rfl
  · exact .inl rfl

theorem accept_placed (hplaced : p.contains .sequenceNum = true) :
    ∃ b : Assembler, b.pending.getD {} = a.target p ∧
      (a.accept p).1.pending = (b.addSequenced p).1.pending ∧
      ((a.accept p).2 = (b.addSequenced p).2 ∨
        (a.accept p).1.deferred = (b.addSequenced p).2) := by
  rw [accept, hplaced, target, if_neg (by simp)]
  cases hpending : a.pending with
  | none => exact ⟨a, by rw [hpending]; rfl, rfl, .inl rfl⟩
  | some r =>
    dsimp only
    split
    · exact ⟨a, by rw [hpending]; rfl, rfl, .inl rfl⟩
    · exact ⟨{ a with pending := none }, rfl, rfl, .inr rfl⟩

theorem accept_unplaced (hunplaced : p.contains .sequenceNum = false) :
    a.accept p = (a, some (.ok p)) := by
  rw [accept, hunplaced]
  rfl

theorem pending_addSequenced (h : (a.addSequenced p).1.pending = some r) :
    (a.pending.getD {}).add p = (r, .ok ()) ∧ r.isComplete = false ∧
      r.senderCompleted = false := by
  unfold addSequenced at h
  split at h
  · cases h
  · rename_i added hadd
    split at h
    · cases h
    · rename_i hincomplete
      split at h
      · cases h
      · rename_i hgoesOn
        cases h
        exact ⟨hadd, Bool.not_eq_true _ ▸ hincomplete, Bool.not_eq_true _ ▸ hgoesOn⟩

theorem addSequenced_complete (hadd : (a.pending.getD {}).add p = (r, .ok ()))
    (hcomplete : r.isComplete = true) :
    (a.addSequenced p).1.pending = none ∧ (a.addSequenced p).2 = some (.ok r.toPacket) := by
  rw [addSequenced, hadd]
  dsimp only
  rw [if_pos hcomplete]
  exact ⟨rfl, rfl⟩

theorem waits_call {packets : List Packet}
    (h : ∀ r, a.pending = some r → r.Waits packets) (c : Call) :
    ∀ r, (a.call c).1.pending = some r → r.Waits (packets ++ brought [c]) := by
  intro r hr
  have hlater : packets.Sublist (packets ++ brought [c]) := List.sublist_append_left ..
  cases c with
  | takeDeferred => exact (h r hr).mono hlater
  | accept p =>
    cases hplaced : p.contains .sequenceNum with
    | false =>
      have haccept : (a.call (.accept p)).1 = a := congrArg Prod.fst (accept_unplaced hplaced)
      rw [haccept] at hr
      exact (h r hr).mono hlater
    | true =>
      obtain ⟨b, htarget, hpending, -⟩ := accept_placed (a := a) hplaced
      obtain ⟨hadd, hincomplete, hgoesOn⟩ := pending_addSequenced (hpending.symm.trans hr)
      rw [htarget] at hadd
      obtain hnew | hunder := target_cases a p
      · have hmade : a.target p = Reassembly.after {} [] := hnew
        exact Reassembly.waits_of_add (List.nil_sublist packets) hmade (List.forall_mem_nil _) hadd
          hincomplete hgoesOn
      · obtain ⟨added, hsub, hmade, hunmarked⟩ := (h _ hunder).made
        exact Reassembly.waits_of_add hsub hmade hunmarked hadd hincomplete hgoesOn

theorem waits_run (calls : List Call) :
    ∀ r, (run calls).pending = some r → r.Waits (brought calls) := by
  induction calls using List.reverseRecOn with
  | nil =>
    intro r hr
    cases hr
  | append_singleton calls c ih =>
    rw [run_concat, brought, List.filterMap_append]
    exact waits_call ih c

/-- Whatever packets have been added to a message: missing are its empty slots, the first packet
that opens slots has fixed their number, filled slots stay as they are, and it counts as full if no
slot is empty. Whatever calls an assembler has seen: a message under way has slots, one of them
empty, and no packet that was added to it marked the last; and a packet that completes a message
leaves none under way, but has the message returned, or deferred because another is reported as
abandoned. -/
theorem slots_kept (packets : List Packet) (calls : List Call) :
    (Reassembly.after {} packets).Consistent packets ∧
      ((run calls).inProgress = true →
        ∃ r, (run calls).pending = some r ∧ r.Waits (brought calls)) ∧
      ∀ p r, p.contains .sequenceNum = true → ((run calls).target p).add p = (r, .ok ()) →
        r.isComplete = true →
        ((run calls).accept p).1.inProgress = false ∧
          (((run calls).accept p).2 = some (.ok r.toPacket) ∨
            ((run calls).accept p).1.deferred = some (.ok r.toPacket)) := by
  refine ⟨Reassembly.consistent_after packets, ?_, ?_⟩
  · intro hunderWay
    obtain ⟨r, hr⟩ := Option.isSome_iff_exists.1 hunderWay
    exact ⟨r, hr, waits_run calls r hr⟩
  · intro p r hplaced hadd hcomplete
    obtain ⟨b, htarget, hpending, hyields⟩ := accept_placed (a := run calls) hplaced
    rw [← htarget] at hadd
    obtain ⟨hnone, houtcome⟩ := addSequenced_complete hadd hcomplete
    rw [houtcome] at hyields
    rw [inProgress, hpending, hnone]
    exact ⟨rfl, hyields⟩

/-- The second of two packets waits for the first, which completes the message and has it
returned. -/
theorem slots_kept_pair :
    let calls : List Call := [.accept (Packet.ofChunk {} 2 1 [66]), .takeDeferred]
    let p := Packet.ofChunk {} 2 0 [65]
    (Reassembly.after {} (brought calls)).total = 2 ∧ (run calls).inProgress = true ∧
      (∃ r, (run calls).pending = some r ∧ r.Waits (brought calls)) ∧
      ∃ r, ((run calls).target p).add p = (r, .ok ()) ∧ r.isComplete = true ∧
        r.toPacket.message = [65, 66] ∧ ((run calls).accept p).1.inProgress = false := by
  intro calls p
  obtain ⟨hconsistent, hwaits, hreturns⟩ := slots_kept (brought calls) calls
  have hunderWay : (run calls).inProgress = true := by decide +kernel
  have hopens : (brought calls).findSome? Packet.opens? = some 2 := by decide +kernel
  have hadd : ((run calls).target p).add p = ((((run calls).target p).add p).1, .ok ()) := by
    decide +kernel
  have hcomplete : (((run calls).target p).add p).1.isComplete = true := by decide +kernel
  refine ⟨?_, hunderWay, hwaits hunderWay, _, hadd, hcomplete, by decide +kernel, ?_⟩
  · rw [hconsistent.total, hopens]
    rfl
  · exact (hreturns p _ (by decide +kernel) hadd hcomplete).1

end Assembler

end JobBroker
