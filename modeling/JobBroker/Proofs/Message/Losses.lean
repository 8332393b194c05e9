import JobBroker.Proofs.Message.Gathering

/-! Losses on a connection stay with the messages that they hit. Messages for different jobs are
sent one after the other and some of their packets are lost: every message that comes whole is
given as it was sent, and every other one of which anything comes is reported once. -/
namespace JobBroker

namespace Assembler

def faultOf (pending : Option Reassembly) : List Decoded :=
  pending.toList.map fun r => .error r.abandoned

theorem hear_foreign {r : Reassembly} {p : Packet} (hplaced : p.contains .sequenceNum = true)
    (hforeign : r.belongs p = false) :
    (holding (some r)).hear (.ok p) =
      (((holding none).hear (.ok p)).1, faultOf (some r) ++ ((holding none).hear (.ok p)).2) := by
  have hnone : (holding none).accept p = (holding none).addSequenced p := by
    simp [accept, hplaced, holding]
  have hdeferred : ((holding none).addSequenced p).1.deferred = none := addSequenced_deferred ..
  have hsome : (holding (some r)).accept p =
      ({ ((holding none).addSequenced p).1 with deferred := ((holding none).addSequenced p).2 },
        some (.error r.abandoned)) := by
    simp [accept, hplaced, holding, hforeign]
  simp only [hear, hnone, hsome, takeDeferred, hdeferred, faultOf]
  simp

end Assembler

/-- A message with a body for a job, sent in chunks, and those of its packets that arrive. -/
structure Batch where
  template : Packet
  body : Bytes
  chunkSize : Nat
  jobId : String
  arriving : List Packet
  nonempty : body ≠ []
  unplaced : template.Unplaced
  few : (splitMessage template body chunkSize).length ≤ maxMessagePackets
  named : template.scalar? .jobId = some jobId
  arrives : arriving.Sublist (markLast (splitMessage template body chunkSize))

namespace Batch
variable (b : Batch)

def packets : List Packet := markLast (splitMessage b.template b.body b.chunkSize)

def lost : Nat := b.packets.length - b.arriving.length

def message : Packet := (b.template.setCompleted true).withMessage b.body

def outcome : Decoded :=
  if b.lost = 0 then .ok b.message else .error (.incompleteMessage b.lost b.packets.length)

def isHeard : Bool := !b.arriving.isEmpty

def isOpen : Bool := b.arriving.getLast? != b.packets.getLast?

theorem few_chunks : (chunks b.chunkSize b.body).length ≤ maxMessagePackets := by
  have hfew := b.few
  have hbody : b.body.isEmpty = false := by simpa using b.nonempty
  rw [splitMessage, hbody, if_neg (by simp)] at hfew
  simpa using hfew

def chunked : Chunked := .ofMessage b.template b.body b.chunkSize b.unplaced b.few_chunks

theorem packets_eq : b.packets = (List.range b.chunked.total).map b.chunked.packet := by
  have hbody : b.body.isEmpty = false := by simpa using b.nonempty
  have hpackets : b.packets = messagePackets b.template b.body b.chunkSize := by
    simp [packets, messagePackets, hbody]
  rw [hpackets]
  exact Chunked.messagePackets_ofMessage b.unplaced b.few_chunks b.nonempty

theorem length_packets : b.packets.length = b.chunked.total := by simp [packets_eq]

theorem whole_chunked : b.chunked.whole = b.message := congrArg _ (flatten_chunks ..)

variable {b}

theorem exists_places (b : Batch) : ∃ places : List Nat,
    places.Sublist (List.range b.chunked.total) ∧
      b.arriving = places.map b.chunked.packet := by
  have harrives : b.arriving.Sublist b.packets := b.arrives
  rwa [packets_eq, List.sublist_map_iff] at harrives

theorem outcome_eq {places : List Nat} (hsub : places.Sublist (List.range b.chunked.total))
    (harriving : b.arriving = places.map b.chunked.packet) :
    b.outcome = b.chunked.verdict places.length := by
  have hle := hsub.length_le
  rw [List.length_range] at hle
  rw [outcome, Chunked.verdict, lost, length_packets, harriving, List.length_map, whole_chunked]
  by_cases hall : places.length = b.chunked.total
  · rw [if_pos hall, if_pos (by omega)]
  · rw [if_neg hall, if_neg (by omega)]

theorem packet_inj {seq seq' : Nat} (h : seq < b.chunked.total) (h' : seq' < b.chunked.total)
    (hsame : b.chunked.packet seq = b.chunked.packet seq') : seq = seq' := by
  have hnumber := congrArg (fun p => p.number .sequenceNum) hsame
  simp only [Chunked.sequenceNum_packet h, Chunked.sequenceNum_packet h', Except.ok.injEq,
    Option.some.injEq] at hnumber
  rw [← Chunked.toNat_ofNat_place h, hnumber, Chunked.toNat_ofNat_place h']

theorem isOpen_eq {places : List Nat} (hsub : places.Sublist (List.range b.chunked.total))
    (harriving : b.arriving = places.map b.chunked.packet) (hsome : places ≠ []) :
    b.isOpen = decide (b.chunked.total - 1 ∉ places) := by
  obtain ⟨front, final, rfl⟩ : ∃ front final, places = front ++ [final] :=
    ⟨_, _, (List.dropLast_concat_getLast hsome).symm⟩
  have hfinal : final < b.chunked.total := List.mem_range.1 (hsub.subset (by simp))
  have hfront : b.chunked.total - 1 ∉ front := by
    intro hmem
    have hlt := (List.pairwise_append.1 (List.pairwise_lt_range.sublist hsub)).2.2 _ hmem final
      (List.mem_singleton_self final)
    omega
  have hmem : b.chunked.total - 1 ∈ front ++ [final] ↔ final = b.chunked.total - 1 := by
    rw [List.mem_append, List.mem_singleton, or_iff_right hfront, eq_comm]
  have hlast : b.packets.getLast? = some (b.chunked.packet (b.chunked.total - 1)) := by
    rw [packets_eq, List.getLast?_map, List.getLast?_range, if_neg (by omega)]
    rfl
  rw [isOpen, hlast, harriving, List.map_append, List.map_singleton, List.getLast?_concat,
    Bool.eq_iff_iff, decide_eq_true_iff, hmem, bne_iff_ne, ne_eq, Option.some.injEq]
  refine not_congr ⟨packet_inj hfinal (by omega), fun h => by rw [h]⟩

theorem belongs_other {b c : Batch} (hother : b.jobId ≠ c.jobId) (heard : List Nat) (seq : Nat) :
    (b.chunked.gathered heard).belongs (c.chunked.packet seq) = false := by
  have hours : (b.chunked.gathered heard).args.scalar? .jobId = some b.jobId := by
    rw [← b.named]
    simp [Packet.scalar?, Chunked.gathered, Chunked.opened, Chunked.merged, chunked,
      Chunked.ofMessage]
  have htheirs : (c.chunked.packet seq).scalar? .jobId = some c.jobId := by
    rw [← c.named]
    simp [Packet.scalar?, Chunked.get?_packet, chunked, Chunked.ofMessage]
  have hsequenced : (b.chunked.gathered heard).sequenced = true := rfl
  rw [Reassembly.belongs, if_pos hsequenced, hours, htheirs]
  simp [hother]

theorem hear_arriving (b : Batch) (hsome : b.arriving ≠ []) (stale : Option Reassembly)
    (hforeign : ∀ r ∈ stale, ∀ seq, r.belongs (b.chunked.packet seq) = false) :
    ∃ left settled, (Assembler.holding stale).hearAll (b.arriving.map .ok) =
        (.holding left, Assembler.faultOf stale ++ settled) ∧
      settled ++ Assembler.faultOf left = [b.outcome] ∧ left.isSome = b.isOpen ∧
      ∀ r ∈ left, ∃ heard, r = b.chunked.gathered heard := by
  obtain ⟨places, hsub, harriving⟩ := b.exists_places
  have hplaces : places ≠ [] := by
    rintro rfl
    exact hsome harriving
  have halone : (Assembler.holding none).hearAll (b.arriving.map .ok) =
      if b.chunked.total - 1 ∈ places then
        (.holding none, [b.chunked.verdict places.length])
      else (.holding (b.chunked.underWay places), []) := by
    rw [harriving, List.map_map]
    exact Chunked.hearAll_alone hsub
  have hstale : (Assembler.holding stale).hearAll (b.arriving.map .ok) =
      (((Assembler.holding none).hearAll (b.arriving.map .ok)).1, Assembler.faultOf stale ++
        ((Assembler.holding none).hearAll (b.arriving.map .ok)).2) := by
    cases stale with
    | none => rfl
    | some r =>
      -- Only the first packet meets what was under way.
      obtain ⟨seq, later, rfl⟩ := List.exists_cons_of_ne_nil hplaces
      have hfirst := Assembler.hear_foreign (b.chunked.contains_packet seq)
        (hforeign r rfl seq)
      simp [harriving, Assembler.hearAll, hfirst]
  rw [hstale, halone, isOpen_eq hsub harriving hplaces, outcome_eq hsub harriving]
  split
  · rename_i hlast
    exact ⟨none, _, rfl, rfl, by simp [hlast], by simp⟩
  · rename_i hlast
    have hunder : b.chunked.underWay places = some (b.chunked.gathered places) := if_neg hplaces
    have hcount : places.length ≠ b.chunked.total := by
      intro hall
      have hpositive := List.length_pos_of_ne_nil hplaces
      rw [Chunked.eq_range_of_length hsub hall, List.mem_range] at hlast
      omega
    refine ⟨_, [], rfl, ?_, by simp [hunder, hlast], ?_⟩
    · rw [hunder, Assembler.faultOf, Option.toList_some, List.map_singleton,
        Chunked.abandoned_gathered hsub, Chunked.verdict, if_neg hcount]
      rfl
    · rintro r hr
      rw [hunder] at hr
      exact ⟨places, (Option.some.inj hr).symm⟩

def stream (batches : List Batch) : List Decoded :=
  batches.flatMap fun b => b.arriving.map .ok

/-- What is out, together with what the message under way amounts to, are the outcomes of all
batches of which something arrived. -/
theorem hear_stream (batches : List Batch)
    (hdistinct : batches.Pairwise fun b c => b.jobId ≠ c.jobId) (stale : Option Reassembly)
    (hforeign : ∀ r ∈ stale, ∀ b ∈ batches, ∀ seq, r.belongs (b.chunked.packet seq) = false) :
    ∃ left outcomes, (Assembler.holding stale).hearAll (stream batches) =
        (.holding left, outcomes) ∧
      outcomes ++ Assembler.faultOf left =
        Assembler.faultOf stale ++ (batches.filter isHeard).map outcome ∧
      left.isSome = ((batches.filter isHeard).getLast?.map isOpen).getD stale.isSome := by
  induction batches generalizing stale with
  | nil => exact ⟨stale, [], rfl, by simp, rfl⟩
  | cons b batches ih =>
    obtain ⟨hfirst, hrest⟩ := List.pairwise_cons.1 hdistinct
    have hstream : stream (b :: batches) = b.arriving.map .ok ++ stream batches := rfl
    by_cases hnone : b.arriving = []
    · obtain ⟨left, outcomes, hhear, htold, hopen⟩ := ih hrest stale fun r hr c hc =>
        hforeign r hr c (List.mem_cons_of_mem _ hc)
      have hheard : b.isHeard = false := by simp [isHeard, hnone]
      refine ⟨left, outcomes, ?_, ?_, ?_⟩
      · rw [hstream, hnone]
        exact hhear
      · rw [List.filter_cons_of_neg (by simp [hheard])]
        exact htold
      · rw [List.filter_cons_of_neg (by simp [hheard])]
        exact hopen
    · obtain ⟨mid, settled, hthis, hsettled, hmid, hgathered⟩ :=
        b.hear_arriving hnone stale fun r hr => hforeign r hr b (List.mem_cons_self ..)
      -- What is left of this batch is for its own job, and all later batches are for others.
      have hmidforeign : ∀ r ∈ mid, ∀ c ∈ batches, ∀ seq,
          r.belongs (c.chunked.packet seq) = false := by
        intro r hr c hc seq
        obtain ⟨heard, rfl⟩ := hgathered r hr
        exact belongs_other (hfirst c hc) heard seq
      obtain ⟨left, outcomes, hhear, htold, hopen⟩ := ih hrest mid hmidforeign
      have hheard : b.isHeard = true := by simp [isHeard, hnone]
      refine ⟨left, Assembler.faultOf stale ++ settled ++ outcomes, ?_, ?_, ?_⟩
      · rw [hstream, Assembler.hearAll_append, hthis, hhear]
      · rw [List.filter_cons_of_pos hheard, List.map_cons, List.append_assoc, htold,
          List.append_assoc, ← List.append_assoc settled, hsettled]
        rfl
      · rw [List.filter_cons_of_pos hheard, List.getLast?_cons, hopen, hmid]
        cases (batches.filter isHeard).getLast? <;> rfl

end Batch

/-- Messages for different jobs are sent in chunks, and some of the packets are lost. What the
assembler gives is, in the order of sending, the message itself for each that comes whole, and one
fault for each other of which something comes. The last of them is still under way, and not
reported, if its final packet was lost. -/
theorem Assembler.losses_contained (batches : List Batch)
    (distinct : batches.Pairwise fun b c => b.jobId ≠ c.jobId) :
    let heard := batches.filter Batch.isHeard
    let result := Assembler.hearAll {} (Batch.stream batches)
    if heard.getLast?.any Batch.isOpen then
      result.2 = heard.dropLast.map Batch.outcome ∧ result.1.inProgress = true
    else result.2 = heard.map Batch.outcome ∧ result.1.inProgress = false := by
  intro heard result
  obtain ⟨left, outcomes, hhear, htold, hopen⟩ := Batch.hear_stream batches distinct none (by simp)
  have hresult : result = (.holding left, outcomes) := hhear
  have hleft : left.isSome = heard.getLast?.any Batch.isOpen := by
    rw [hopen]
    cases heard.getLast? <;> rfl
  rw [hresult, ← hleft]
  cases left with
  | none =>
    rw [Assembler.faultOf, Option.toList_none, List.map_nil, List.append_nil] at htold
    exact ⟨htold, rfl⟩
  | some r =>
    refine ⟨?_, rfl⟩
    have hdrop := congrArg List.dropLast htold
    rw [Assembler.faultOf, Option.toList_some, List.map_singleton, List.dropLast_concat] at hdrop
    rw [hdrop, List.map_dropLast]
    rfl

namespace Batch

/-- A message of three chunks for job 7, of which the last is lost. -/
def cut : Batch where
  template := Packet.set {} .jobId (.scalar "7")
  body := [65, 66, 67]
  chunkSize := 1
  jobId := "7"
  arriving := (markLast (splitMessage (Packet.set {} .jobId (.scalar "7")) [65, 66, 67] 1)).take 2
  nonempty := by decide
  unplaced := ⟨rfl, rfl⟩
  few := by simp [splitMessage, chunks_cons, maxMessagePackets]
  named := rfl
  arrives := List.take_sublist ..

def short : Batch where
  template := Packet.set {} .jobId (.scalar "8")
  body := [68]
  chunkSize := 1
  jobId := "8"
  arriving := markLast (splitMessage (Packet.set {} .jobId (.scalar "8")) [68] 1)
  nonempty := by decide
  unplaced := ⟨rfl, rfl⟩
  few := by simp [splitMessage, chunks_cons, maxMessagePackets]
  named := rfl
  arrives := List.Sublist.refl _

end Batch

/-- The fault of a message comes out before the message of one chunk that displaced it. -/
theorem Assembler.losses_contained_displaced :
    ([Batch.cut, Batch.short].Pairwise fun b c => b.jobId ≠ c.jobId) ∧
    (Assembler.hearAll {} (Batch.stream [Batch.cut, Batch.short])).2 =
      [.error (.incompleteMessage 1 3), .ok Batch.short.message] ∧
    (Assembler.hearAll {} (Batch.stream [Batch.cut, Batch.short])).1.inProgress = false := by
  have hdistinct : [Batch.cut, Batch.short].Pairwise fun b c => b.jobId ≠ c.jobId := by
    simp [Batch.cut, Batch.short]
  have hresult := Assembler.losses_contained [Batch.cut, Batch.short] hdistinct
  have hcut : Batch.cut.packets.length = 3 := by
    simp [Batch.packets, Batch.cut, splitMessage, chunks_cons, markLast]
  have hshort : Batch.short.packets.length = 1 := by
    simp [Batch.packets, Batch.short, splitMessage, chunks_cons, markLast]
  have harriving : Batch.cut.arriving = Batch.cut.packets.take 2 := rfl
  have hwhole : Batch.short.arriving = Batch.short.packets := rfl
  have hheard : [Batch.cut, Batch.short].filter Batch.isHeard = [Batch.cut, Batch.short] := by
    have hboth : Batch.cut.isHeard = true ∧ Batch.short.isHeard = true := by
      simp [Batch.isHeard, harriving, hwhole, ← List.length_eq_zero_iff, hcut, hshort]
    simp [hboth]
  have houtcomes : Batch.cut.outcome = .error (.incompleteMessage 1 3) ∧
      Batch.short.outcome = .ok Batch.short.message := by
    simp [Batch.outcome, Batch.lost, harriving, hwhole, hcut]
  have hclosed : Batch.short.isOpen = false := by simp [Batch.isOpen, hwhole]
  simp only [hheard, List.getLast?_cons_cons, List.getLast?_singleton, Option.any_some, hclosed,
    Bool.false_eq_true, if_false, List.map_cons, List.map_nil, houtcomes] at hresult
  exact ⟨hdistinct, hresult⟩

end JobBroker
