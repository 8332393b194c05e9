import JobBroker.Message.Assembler
import JobBroker.Proofs.Message.Split
import Mathlib.Data.List.Dedup
import Mathlib.Data.List.Nodup
import Mathlib.Data.List.Range

/-! What an assembler makes of the packets of one message, some of which may be missing while the
others keep their order. Its state is not found by running it: `gathered` computes the state from
the places that were heard. -/
namespace JobBroker

namespace Assembler

def hear (a : Assembler) : Decoded → Assembler × List Decoded
  | .error e => (a, [.error e])
  | .ok p =>
    ((a.accept p).1.takeDeferred.1,
      (a.accept p).2.toList ++ (a.accept p).1.takeDeferred.2.toList)

def hearAll (a : Assembler) : List Decoded → Assembler × List Decoded
  | [] => (a, [])
  | d :: ds => (((a.hear d).1.hearAll ds).1, (a.hear d).2 ++ ((a.hear d).1.hearAll ds).2)

theorem hearAll_append (a : Assembler) (ds es : List Decoded) :
    a.hearAll (ds ++ es) =
      (((a.hearAll ds).1.hearAll es).1, (a.hearAll ds).2 ++ ((a.hearAll ds).1.hearAll es).2) := by
  induction ds generalizing a with
  | nil => rfl
  | cons d ds ih => simp only [List.cons_append, hearAll, ih, List.append_assoc]

@[simp] theorem addSequenced_deferred (a : Assembler) (p : Packet) :
    (a.addSequenced p).1.deferred = a.deferred := by
  unfold addSequenced
  split
  · rfl
  · split
    · rfl
    · split <;> rfl

def holding (pending : Option Reassembly) : Assembler := { pending := pending }

end Assembler

structure Chunked where
  template : Packet
  pieces : List Bytes
  unplaced : template.Unplaced
  few : pieces.length ≤ maxMessagePackets

namespace Chunked
variable (m : Chunked)

def total : Nat := m.pieces.length

def sent (seq place : Nat) (mark : Bool) : Packet :=
  (((m.template.setCompleted mark).set .totalPackets (.ofNat m.total)).set
    .sequenceNum (.ofNat place)).withMessage (m.pieces[seq]?.getD [])

def packet (seq : Nat) : Packet := m.template.stamped m.total seq (m.pieces[seq]?.getD [])

/-- The state of a reassembly with the slots of the message once the places `heard` are filled. -/
def opened (args : Packet) (heard : List Nat) : Reassembly where
  args := args
  slots := ((List.range m.total).map fun seq =>
    if seq ∈ heard then m.pieces[seq]? else none).toArray
  missing := (List.range m.total).filter (· ∉ heard)
  sequenced := true

/-- The arguments that have come together when the last packet was heard, or when it was not. -/
def merged (last : Bool) : Packet := (m.template.setCompleted last).withMessage []

def gathered (heard : List Nat) : Reassembly :=
  m.opened (m.merged (m.total - 1 ∈ heard)) heard

def whole : Packet := (m.template.setCompleted true).withMessage m.pieces.flatten

/-- What a message amounts to of which so many packets have come, the last of them among them. -/
def verdict (count : Nat) : Decoded :=
  if count = m.total then .ok m.whole else .error (.incompleteMessage (m.total - count) m.total)

theorem total_le : m.total ≤ 65536 := m.few

variable {m} {seq place : Nat} {heard : List Nat} {args : Packet} {mark : Bool}

theorem packet_eq_sent (seq : Nat) : m.packet seq = m.sent seq seq (seq + 1 == m.total) := rfl

theorem get?_sent (seq place : Nat) (mark : Bool) (k : Key) : (m.sent seq place mark).get? k =
    if k = .sequenceNum then some (.ofNat place)
    else if k = .totalPackets then some (.ofNat m.total)
    else if k = .completed then some (.scalar (if mark then "T" else "F"))
    else m.template.get? k := by
  simp [sent]

theorem get?_packet (seq : Nat) (k : Key) : (m.packet seq).get? k =
    if k = .sequenceNum then some (.ofNat seq)
    else if k = .totalPackets then some (.ofNat m.total)
    else if k = .completed then some (.scalar (if seq + 1 == m.total then "T" else "F"))
    else m.template.get? k := get?_sent seq seq _ k

theorem total_le_maxWord : m.total ≤ Decimal.maxWord := Nat.le_trans m.total_le (by decide)

theorem sequenceNum_sent (h : place ≤ Decimal.maxWord) :
    (m.sent seq place mark).number .sequenceNum = .ok (some (UInt64.ofNat place)) :=
  Packet.number_ofNat (by simp [get?_sent]) h

theorem sequenceNum_packet (h : seq < m.total) :
    (m.packet seq).number .sequenceNum = .ok (some (UInt64.ofNat seq)) :=
  sequenceNum_sent (Nat.le_trans (Nat.le_of_lt h) total_le_maxWord)

theorem totalPackets_sent (seq place : Nat) (mark : Bool) :
    (m.sent seq place mark).number .totalPackets = .ok (some (UInt64.ofNat m.total)) :=
  Packet.number_ofNat (by simp [get?_sent]) total_le_maxWord

theorem totalPackets_packet (seq : Nat) :
    (m.packet seq).number .totalPackets = .ok (some (UInt64.ofNat m.total)) :=
  totalPackets_sent seq seq _

theorem toNat_ofNat_total : (UInt64.ofNat m.total).toNat = m.total := by
  have htotal := m.total_le
  rw [UInt64.toNat_ofNat']
  omega

theorem toNat_ofNat_place (h : seq < m.total) : (UInt64.ofNat seq).toNat = seq := by
  have htotal := m.total_le
  rw [UInt64.toNat_ofNat']
  omega

theorem mapIdx_stamped (m : Chunked) :
    (m.pieces.mapIdx fun seq chunk => m.template.stamped m.total seq chunk) =
      (List.range m.total).map m.packet := by
  refine List.ext_getElem (by simp [total]) fun seq hseq _ => ?_
  have hlt : seq < m.pieces.length := by simpa using hseq
  simp [packet, hlt]

theorem fixSlots_first (hsome : 0 < m.total) :
    Reassembly.fixSlots { args := args } (m.sent seq place mark) = .ok (m.opened args []) := by
  have hnone : m.total ≠ 0 := by omega
  have hfew : ¬ maxMessagePackets < m.total := Nat.not_lt.2 m.few
  have hslots : Array.replicate m.total none = (m.opened args []).slots := by
    exact Array.ext' (by simp [opened, List.map_const'])
  have hmissing : List.range m.total = (m.opened args []).missing := by
    simp [opened]
  simp only [Reassembly.fixSlots, totalPackets_sent, Option.getD_some, toNat_ofNat_total, hnone,
    hfew, or_self, if_false, hslots, hmissing]
  rfl

theorem fixSlots_next (p : Packet) :
    Reassembly.fixSlots (m.opened args heard) p = .ok (m.opened args heard) := rfl

theorem fill_opened (h : seq < m.total) (hnew : seq ∉ heard) :
    (m.opened args heard).fill seq (m.sent seq place mark) =
      m.opened (args.mergeArgs (((m.sent seq place mark).erase .sequenceNum).erase .totalPackets))
        (heard ++ [seq]) := by
  have hslot : (m.opened args heard).slots[seq]? = some none := by
    simp [opened, h, hnew]
  have hpiece : m.pieces[seq]? = some (m.sent seq place mark).message := by
    have hlt : seq < m.pieces.length := h
    simp [sent, hlt]
  have hslots : (m.opened args heard).slots.setIfInBounds seq
      (some (m.sent seq place mark).message) = (m.opened args (heard ++ [seq])).slots := by
    simp only [opened, List.setIfInBounds_toArray]
    refine congrArg List.toArray (List.ext_getElem (by simp) fun place hplace _ => ?_)
    by_cases hother : seq = place
    · subst hother
      simp [hpiece]
    · simp [List.getElem_set_ne hother, Ne.symm hother]
  have hmissing : (m.opened args heard).missing.erase seq =
      (m.opened args (heard ++ [seq])).missing := by
    simp only [opened]
    rw [List.Nodup.erase_eq_filter (List.nodup_range.filter _), List.filter_filter]
    refine List.filter_congr fun other _ => ?_
    by_cases hother : other = seq <;> simp [hother]
  rw [Reassembly.fill, hslot]
  simp only [Reassembly.merge, hslots, hmissing]
  rfl

theorem mergeArgs_sent (hmessage : args.message = [])
    (hbefore : ∀ k ≠ .completed, args.get? k = none ∨ args.get? k = m.template.get? k) :
    args.mergeArgs (((m.sent seq place mark).erase .sequenceNum).erase .totalPackets) =
      m.merged mark := by
  have hplace := m.unplaced.sequenceNum
  have hnumber := m.unplaced.totalPackets
  refine Packet.ext_get? (fun k => ?_) hmessage
  have hmerge : (args.mergeArgs
      (((m.sent seq place mark).erase .sequenceNum).erase .totalPackets)).get? k =
        ((((m.sent seq place mark).erase .sequenceNum).erase .totalPackets).get? k).or
          (args.get? k) := Arguments.get?_merge ..
  rw [hmerge, Packet.get?_erase, Packet.get?_erase, get?_sent, merged, Packet.get?_withMessage,
    Packet.get?_setCompleted]
  by_cases hlast : k = .completed
  · -- The packet's own flag replaces the one that came before it.
    simp [hlast]
  · have hold := hbefore k hlast
    by_cases hseq : k = .sequenceNum
    · subst hseq
      simpa [hplace] using hold
    by_cases htotal : k = .totalPackets
    · subst htotal
      simpa [hnumber] using hold
    · rw [if_neg htotal, if_neg hseq, if_neg hseq, if_neg htotal, if_neg hlast]
      cases hsome : m.template.get? k with
      | none => simpa [hsome] using hold
      | some v => rfl

theorem noteCompleted_sent (r : Reassembly) (seq place : Nat) (mark : Bool) :
    r.noteCompleted (m.sent seq place mark) = { r with args := r.args.setCompleted mark } := by
  simp only [Reassembly.noteCompleted, Packet.scalar?, get?_sent]
  rfl

theorem noteCompleted_merged (before : Bool) (heard : List Nat) (seq place : Nat) (mark : Bool) :
    (m.opened (m.merged before) heard).noteCompleted (m.sent seq place mark) =
      m.opened (m.merged mark) heard := by
  have hmerged : (m.merged before).setCompleted mark = m.merged mark := by
    refine Packet.ext_get? (fun k => ?_) rfl
    simp only [merged, Packet.get?_setCompleted, Packet.get?_withMessage]
    split <;> rfl
  rw [noteCompleted_sent]
  exact congrArg (m.opened · heard) hmerged

theorem add_opening (h : seq < m.total) :
    Reassembly.add {} (m.sent seq seq mark) = (m.opened (m.merged mark) [seq], .ok ()) := by
  have hempty : ∀ k, Packet.get? {} k = none := by
    intro k
    cases k <;> rfl
  have hmerged : (Packet.setCompleted {} mark).mergeArgs
      (((m.sent seq seq mark).erase .sequenceNum).erase .totalPackets) = m.merged mark :=
    mergeArgs_sent rfl fun k hk => .inl (by rw [Packet.get?_setCompleted, if_neg hk, hempty])
  have hword : seq ≤ Decimal.maxWord := Nat.le_trans (Nat.le_of_lt h) total_le_maxWord
  rw [Reassembly.add, noteCompleted_sent]
  simp only [sequenceNum_sent hword, fixSlots_first (Nat.zero_lt_of_lt h), toNat_ofNat_place h,
    fill_opened h List.not_mem_nil, hmerged, List.nil_append]

theorem add_filling (before : Bool) (h : seq < m.total) (hnew : seq ∉ heard) :
    Reassembly.add (m.opened (m.merged before) heard) (m.sent seq seq mark) =
      (m.opened (m.merged mark) (heard ++ [seq]), .ok ()) := by
  have hmerged : (m.merged mark).mergeArgs
      (((m.sent seq seq mark).erase .sequenceNum).erase .totalPackets) = m.merged mark :=
    mergeArgs_sent rfl fun k hk => .inr (by simp [merged, hk])
  have hword : seq ≤ Decimal.maxWord := Nat.le_trans (Nat.le_of_lt h) total_le_maxWord
  rw [Reassembly.add, noteCompleted_merged]
  simp only [sequenceNum_sent hword, fixSlots_next, toNat_ofNat_place h, fill_opened h hnew,
    hmerged]

theorem decide_last_mem (h : seq < m.total) (hopen : m.total - 1 ∉ heard) :
    decide (m.total - 1 ∈ heard ++ [seq]) = (seq + 1 == m.total) := by
  rw [Bool.eq_iff_iff, decide_eq_true_iff, List.mem_append, List.mem_singleton, beq_iff_eq]
  constructor
  · rintro (hold | hlast)
    · exact absurd hold hopen
    · omega
  · intro hlast
    exact .inr (by omega)

theorem add_first (h : seq < m.total) :
    Reassembly.add {} (m.packet seq) = (m.gathered [seq], .ok ()) := by
  have hlast : decide (m.total - 1 ∈ [seq]) = (seq + 1 == m.total) :=
    decide_last_mem h List.not_mem_nil
  rw [packet_eq_sent, add_opening h, gathered, hlast]

theorem add_next (h : seq < m.total) (hnew : seq ∉ heard) (hopen : m.total - 1 ∉ heard) :
    Reassembly.add (m.gathered heard) (m.packet seq) = (m.gathered (heard ++ [seq]), .ok ()) := by
  rw [packet_eq_sent, gathered, add_filling _ h hnew, gathered, decide_last_mem h hopen]

@[simp] theorem total_opened (args : Packet) (heard : List Nat) :
    (m.opened args heard).total = m.total := by
  simp [opened, Reassembly.total]

theorem belongs_packet (seq : Nat) : (m.gathered heard).belongs (m.packet seq) = true := by
  have hsize : (m.gathered heard).total = m.total := total_opened ..
  have hjob : (m.packet seq).scalar? .jobId = (m.gathered heard).args.scalar? .jobId := by
    simp [Packet.scalar?, get?_packet, gathered, opened, merged]
  have hsequenced : (m.gathered heard).sequenced = true := rfl
  rw [Reassembly.belongs, if_pos hsequenced]
  simp only [totalPackets_packet, toNat_ofNat_total, hsize, beq_self_eq_true, Bool.true_and, hjob]
  cases (m.gathered heard).args.scalar? .jobId <;> simp

theorem contains_packet (seq : Nat) : (m.packet seq).contains .sequenceNum = true := by
  simp [Packet.contains, get?_packet]

theorem length_missing_opened (args : Packet) (h : ∀ seq ∈ heard, seq < m.total) :
    (m.opened args heard).missing.length + heard.dedup.length = m.total := by
  have hheard : ((List.range m.total).filter (· ∈ heard)).Perm heard.dedup := by
    refine (List.perm_ext_iff_of_nodup (List.nodup_range.filter _) heard.nodup_dedup).2
      fun seq => ?_
    rw [List.mem_filter, decide_eq_true_iff, List.mem_dedup, List.mem_range]
    exact ⟨And.right, fun hseq => ⟨h seq hseq, hseq⟩⟩
  have hmissing : (m.opened args heard).missing.length =
      ((List.range m.total).filter fun seq => !decide (seq ∈ heard)).length := by
    simp only [opened, decide_not]
  have hsplit := List.length_eq_length_filter_add (l := List.range m.total) (· ∈ heard)
  rw [hheard.length_eq, List.length_range] at hsplit
  omega

/-! The places that were heard are some of `0, …, total - 1`, in their order. -/

theorem length_missing (h : heard.Sublist (List.range m.total)) :
    (m.gathered heard).missing.length = m.total - heard.length := by
  have hplaces : ∀ seq ∈ heard, seq < m.total := fun seq hseq =>
    List.mem_range.1 (h.subset hseq)
  have hsplit := length_missing_opened (m.merged (m.total - 1 ∈ heard)) hplaces
  rw [(List.nodup_range.sublist h).dedup] at hsplit
  rw [gathered]
  omega

theorem isComplete_gathered (h : heard.Sublist (List.range m.total)) :
    (m.gathered heard).isComplete = true ↔ heard.length = m.total := by
  have hle := h.length_le
  rw [List.length_range] at hle
  rw [Reassembly.isComplete, List.isEmpty_iff_length_eq_zero, length_missing h]
  omega

theorem senderCompleted_gathered (heard : List Nat) :
    (m.gathered heard).senderCompleted = decide (m.total - 1 ∈ heard) := by
  have hflag : readFlag? "T" = some true ∧ readFlag? "F" = some false := by decide
  simp only [Reassembly.senderCompleted, gathered, opened, merged, Packet.completed?,
    Packet.scalar?, Packet.get?_withMessage, Packet.get?_setCompleted, if_true, Option.bind_some,
    Value.scalar?]
  cases decide (m.total - 1 ∈ heard) <;> simp [hflag]

theorem abandoned_gathered (h : heard.Sublist (List.range m.total)) :
    (m.gathered heard).abandoned = .incompleteMessage (m.total - heard.length) m.total := by
  rw [Reassembly.abandoned, length_missing h, gathered, total_opened]

theorem eq_range_of_length (h : heard.Sublist (List.range m.total))
    (hall : heard.length = m.total) : heard = List.range m.total :=
  h.eq_of_length (by rw [hall, List.length_range])

theorem toPacket_gathered (hsome : 0 < m.total) :
    (m.gathered (List.range m.total)).toPacket = m.whole := by
  have hlast : decide (m.total - 1 ∈ List.range m.total) = true := by
    rw [decide_eq_true_iff, List.mem_range]
    omega
  have hslots : (m.gathered (List.range m.total)).slots.toList = m.pieces.map some := by
    refine List.ext_getElem (by simp [gathered, opened, total]) fun place hplace _ => ?_
    have hlt : place < m.total := by simpa [gathered, opened] using hplace
    have hpiece : place < m.pieces.length := hlt
    simp [gathered, opened, hlt, hpiece]
  have harrived : (m.gathered (List.range m.total)).arrived = m.pieces.flatten := by
    have hsequenced : (m.gathered (List.range m.total)).sequenced = true := rfl
    rw [Reassembly.arrived, if_pos hsequenced, hslots, List.filterMap_map]
    simp
  have hargs : (m.gathered (List.range m.total)).args = m.merged true := by
    rw [← hlast]
    rfl
  rw [Reassembly.toPacket, harrived, hargs]
  rfl

def underWay (m : Chunked) (heard : List Nat) : Option Reassembly :=
  if heard = [] then none else some (m.gathered heard)

@[simp] theorem underWay_nil : m.underWay [] = none := if_pos rfl

theorem underWay_concat (heard : List Nat) (seq : Nat) :
    m.underWay (heard ++ [seq]) = some (m.gathered (heard ++ [seq])) := by
  rw [underWay, if_neg (by simp)]

theorem add_underWay (h : seq < m.total) (hnew : seq ∉ heard) (hopen : m.total - 1 ∉ heard) :
    ((m.underWay heard).getD {}).add (m.packet seq) = (m.gathered (heard ++ [seq]), .ok ()) := by
  by_cases hfirst : heard = []
  · subst hfirst
    exact add_first h
  · rw [underWay, if_neg hfirst]
    exact add_next h hnew hopen

theorem accept_packet (heard : List Nat) (seq : Nat) :
    (Assembler.holding (m.underWay heard)).accept (m.packet seq) =
      (Assembler.holding (m.underWay heard)).addSequenced (m.packet seq) := by
  have hplaced : (!(m.packet seq).contains .sequenceNum) = false := by rw [contains_packet]; rfl
  rw [Assembler.accept, hplaced, if_neg (by simp)]
  by_cases hfirst : heard = []
  · rw [underWay, if_pos hfirst]
    rfl
  · rw [underWay, if_neg hfirst]
    simp only [Assembler.holding, belongs_packet, if_true]

theorem hear_packet (hsub : (heard ++ [seq]).Sublist (List.range m.total))
    (hopen : m.total - 1 ∉ heard) :
    (Assembler.holding (m.underWay heard)).hear (.ok (m.packet seq)) =
      if seq = m.total - 1 then (.holding none, [m.verdict (heard.length + 1)])
      else (.holding (m.underWay (heard ++ [seq])), []) := by
  have hlt : seq < m.total := List.mem_range.1 (hsub.subset (by simp))
  have hnew : seq ∉ heard := fun hold =>
    (List.nodup_append.1 (List.nodup_range.sublist hsub)).2.2 seq hold seq
      (List.mem_singleton_self seq) rfl
  have hcomplete := isComplete_gathered hsub
  have hlast : m.total - 1 ∈ heard ++ [seq] ↔ seq = m.total - 1 := by
    rw [List.mem_append, List.mem_singleton, eq_comm, or_iff_right hopen]
  rw [Assembler.hear, accept_packet, Assembler.addSequenced]
  simp only [Assembler.holding, add_underWay hlt hnew hopen, senderCompleted_gathered, hlast]
  by_cases hall : (heard ++ [seq]).length = m.total
  · -- Nothing is missing, so that this was the last packet.
    have hrange := eq_range_of_length hsub hall
    have hseq : seq = m.total - 1 := by
      rw [← hlast, hrange, List.mem_range]
      omega
    rw [if_pos (hcomplete.2 hall), if_pos hseq, hrange, toPacket_gathered (by omega), verdict]
    rw [List.length_append, List.length_singleton] at hall
    rw [if_pos hall]
    rfl
  · rw [if_neg (fun h => hall (hcomplete.1 h))]
    by_cases hseq : seq = m.total - 1
    · -- The sender is done, but a packet before this one was lost.
      rw [if_pos (by simpa using hseq), if_pos hseq, abandoned_gathered hsub, verdict]
      rw [List.length_append, List.length_singleton] at hall ⊢
      rw [if_neg hall]
      rfl
    · rw [if_neg (by simpa using hseq), if_neg hseq, underWay_concat]
      rfl

/-- The packets at some of the places, in their order: once the last packet was heard nothing is
under way, and the message or the fault of its incompleteness is out. -/
theorem hearAll_packets {places : List Nat}
    (hsub : (heard ++ places).Sublist (List.range m.total)) (hopen : m.total - 1 ∉ heard) :
    (Assembler.holding (m.underWay heard)).hearAll (places.map fun seq => .ok (m.packet seq)) =
      if m.total - 1 ∈ places then (.holding none, [m.verdict (heard.length + places.length)])
      else (.holding (m.underWay (heard ++ places)), []) := by
  induction places generalizing heard with
  | nil => simp [Assembler.hearAll]
  | cons seq places ih =>
    have hprefix : (heard ++ [seq]).Sublist (List.range m.total) :=
      (by simp : (heard ++ [seq]).Sublist (heard ++ seq :: places)).trans hsub
    rw [List.map_cons, Assembler.hearAll, hear_packet hprefix hopen]
    by_cases hseq : seq = m.total - 1
    · -- Nothing comes after the last place.
      have hnone : places = [] := by
        rw [List.eq_nil_iff_forall_not_mem]
        intro later hlater
        have hafter := (List.sublist_append_right heard _).trans hsub
        have hlt : seq < later :=
          (List.pairwise_cons.1 (List.pairwise_lt_range.sublist hafter)).1 later hlater
        have hrange := List.mem_range.1 (hafter.subset (List.mem_cons_of_mem _ hlater))
        omega
      subst hnone
      simp [hseq, Assembler.hearAll]
    · have hrest : (heard ++ [seq] ++ places).Sublist (List.range m.total) := by simpa using hsub
      have hopen' : m.total - 1 ∉ heard ++ [seq] := by simp [hopen, Ne.symm hseq]
      simp only [if_neg hseq, ih hrest hopen']
      have hmem : m.total - 1 ∈ seq :: places ↔ m.total - 1 ∈ places := by
        simp [Ne.symm hseq]
      simp only [hmem, List.append_assoc, List.singleton_append, List.nil_append,
        List.length_append, List.length_cons, List.length_nil]
      split
      · rw [Nat.add_assoc, Nat.add_comm 1]
      · rfl

theorem hearAll_alone {places : List Nat} (hsub : places.Sublist (List.range m.total)) :
    (Assembler.holding none).hearAll (places.map fun seq => .ok (m.packet seq)) =
      if m.total - 1 ∈ places then (.holding none, [m.verdict places.length])
      else (.holding (m.underWay places), []) := by
  have hprefix : ([] ++ places).Sublist (List.range m.total) := hsub
  have hall := hearAll_packets hprefix List.not_mem_nil
  rwa [underWay_nil, List.length_nil, Nat.zero_add, List.nil_append] at hall

theorem hearAll_range (m : Chunked) (hsome : 0 < m.total) :
    (Assembler.holding none).hearAll ((List.range m.total).map fun seq => .ok (m.packet seq)) =
      (.holding none, [.ok m.whole]) := by
  have hlast : m.total - 1 ∈ List.range m.total := List.mem_range.2 (by omega)
  rw [hearAll_alone (List.Sublist.refl _), if_pos hlast, verdict, List.length_range, if_pos rfl]

def ofMessage (template : Packet) (body : Bytes) (size : Nat) (unplaced : template.Unplaced)
    (few : (chunks size body).length ≤ maxMessagePackets) : Chunked where
  template := template
  pieces := chunks size body
  unplaced := unplaced
  few := few

theorem messagePackets_ofMessage {template : Packet} {body : Bytes} {size : Nat}
    (unplaced : template.Unplaced) (few : (chunks size body).length ≤ maxMessagePackets)
    (hbody : body ≠ []) :
    messagePackets template body size =
      (List.range (ofMessage template body size unplaced few).total).map
        (ofMessage template body size unplaced few).packet := by
  rw [messagePackets_eq template hbody, ← mapIdx_stamped]
  rfl

end Chunked

def Packet.assembled (template : Packet) (body : Bytes) : Packet :=
  (if body.isEmpty then template else template.setCompleted true).withMessage body

theorem Packet.Unplaced.assembled {template : Packet} (h : template.Unplaced) (body : Bytes) :
    (template.assembled body).Unplaced := by
  unfold Packet.assembled
  split
  · exact ⟨h.sequenceNum, h.totalPackets⟩
  · exact ⟨by simp [h.sequenceNum], by simp [h.totalPackets]⟩

theorem Chunked.whole_ofMessage {template : Packet} {body : Bytes} {size : Nat}
    (unplaced : template.Unplaced) (few : (chunks size body).length ≤ maxMessagePackets)
    (hbody : body ≠ []) :
    (ofMessage template body size unplaced few).whole = template.assembled body := by
  have hsome : body.isEmpty = false := by simpa using hbody
  rw [Packet.assembled, hsome, if_neg (by simp)]
  exact congrArg _ (flatten_chunks size body)

theorem Assembler.hearAll_messagePackets {template : Packet} {body : Bytes} {size : Nat}
    (unplaced : template.Unplaced) (few : (chunks size body).length ≤ maxMessagePackets) :
    hearAll {} ((messagePackets template body size).map .ok) =
      ({}, [.ok (template.assembled body)]) := by
  by_cases hbody : body = []
  · subst hbody
    have hplain : (template.withMessage []).contains .sequenceNum = false := by
      simp [Packet.contains, unplaced.sequenceNum]
    simp [messagePackets_nil, hearAll, hear, accept, hplain, takeDeferred, Packet.assembled]
  · have hsome : 0 < (Chunked.ofMessage template body size unplaced few).total :=
      List.length_pos_iff.2 (mt (chunks_eq_nil_iff size body).1 hbody)
    have hall := Chunked.hearAll_range _ hsome
    rw [Chunked.whole_ofMessage unplaced few hbody] at hall
    rw [Chunked.messagePackets_ofMessage unplaced few hbody, List.map_map]
    exact hall

end JobBroker
