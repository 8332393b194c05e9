import JobBroker.Proofs.Message.Losses
import JobBroker.Proofs.Message.Sources

/-! Messages are not mixed. Whatever packets come on a connection, in whatever order and however
malformed, a message that is given was put together from packets of one job with the places `0, …,
total - 1`, all of which came since the message before was done with, or it is the packet that was
just accepted. All that is asked of the packets is that those with a place name a job. -/
namespace JobBroker

namespace Assembler

def after (ps : List Packet) : Assembler := (hearAll {} (ps.map .ok)).1

theorem after_concat (ps : List Packet) (p : Packet) :
    after (ps ++ [p]) = ((after ps).hear (.ok p)).1 := by
  rw [after, List.map_append, hearAll_append]
  rfl

theorem after_holding (ps : List Packet) : after ps = holding (after ps).pending := by
  obtain rfl | ⟨front, p, rfl⟩ := List.eq_nil_or_concat ps
  · rfl
  · rw [List.concat_eq_append, after_concat]
    rfl

/-- What adding a packet with a place to a message can come to. -/
inductive Added (r : Reassembly) (p : Packet) : Option Reassembly → Option Decoded → Prop
  | fails (e : PacketError) : Added r p none (some (.error e))
  | gives {r' : Reassembly} (adds : r.add p = (r', .ok ())) (complete : r'.isComplete = true) :
    Added r p none (some (.ok r'.toPacket))
  | holds {r' : Reassembly} (adds : r.add p = (r', .ok ())) (incomplete : r'.isComplete = false) :
    Added r p (some r') none

theorem addSequenced_added (a : Assembler) (p : Packet) :
    Added (a.pending.getD {}) p (a.addSequenced p).1.pending (a.addSequenced p).2 := by
  unfold addSequenced
  split
  · exact .fails _
  · rename_i r' hadd
    cases hcomplete : r'.isComplete with
    | true => exact .gives hadd hcomplete
    | false =>
      rw [if_neg Bool.false_ne_true]
      split
      · exact .fails _
      · exact .holds hadd hcomplete

/-- What hearing a packet can come to: it passes, it is added to the message under way or to a new
one, or the message under way is abandoned and it is added to a new one. -/
inductive Heard (pending : Option Reassembly) (p : Packet) : Assembler × List Decoded → Prop
  | passes (unplaced : p.contains .sequenceNum = false) : Heard pending p (holding pending, [.ok p])
  | joins {next : Option Reassembly} {outcome : Option Decoded}
      (placed : p.contains .sequenceNum = true)
      (belongs : ∀ r, pending = some r → r.belongs p = true)
      (added : Added (pending.getD {}) p next outcome) :
    Heard pending p (holding next, outcome.toList)
  | displaces {r : Reassembly} {next : Option Reassembly} {outcome : Option Decoded}
      (placed : p.contains .sequenceNum = true) (underWay : pending = some r)
      (added : Added {} p next outcome) :
    Heard pending p (holding next, .error r.abandoned :: outcome.toList)

theorem hear_joins {pending : Option Reassembly} {p : Packet}
    (hplaced : p.contains .sequenceNum = true)
    (hbelongs : ∀ r, pending = some r → r.belongs p = true) :
    ∃ next outcome, (holding pending).hear (.ok p) = (holding next, outcome.toList) ∧
      Added (pending.getD {}) p next outcome := by
  have haccept : (holding pending).accept p = (holding pending).addSequenced p := by
    rw [accept, hplaced, if_neg (by simp)]
    cases pending with
    | none => rfl
    | some r =>
      have hthis : r.belongs p = true := hbelongs r rfl
      simp only [holding, hthis, if_true]
  have hdeferred : ((holding pending).addSequenced p).1.deferred = none := addSequenced_deferred ..
  refine ⟨((holding pending).addSequenced p).1.pending, ((holding pending).addSequenced p).2, ?_,
    addSequenced_added (holding pending) p⟩
  simp only [hear, haccept, takeDeferred, hdeferred, Option.toList_none, List.append_nil]
  rfl

theorem hear_heard (pending : Option Reassembly) (p : Packet) :
    Heard pending p ((holding pending).hear (.ok p)) := by
  cases hplaced : p.contains .sequenceNum with
  | false =>
    have haccept : (holding pending).accept p = (holding pending, some (.ok p)) := by
      rw [accept, hplaced, if_pos (by simp)]
    have hhear : (holding pending).hear (.ok p) = (holding pending, [.ok p]) := by
      rw [hear, haccept]
      rfl
    rw [hhear]
    exact .passes hplaced
  | true =>
    by_cases hbelongs : ∀ r, pending = some r → r.belongs p = true
    · obtain ⟨next, outcome, hhear, hadded⟩ := hear_joins hplaced hbelongs
      rw [hhear]
      exact .joins hplaced hbelongs hadded
    · simp only [not_forall, Bool.not_eq_true] at hbelongs
      obtain ⟨r, rfl, hforeign⟩ := hbelongs
      have hnone : ∀ r, (none : Option Reassembly) = some r → r.belongs p = true := by simp
      obtain ⟨next, outcome, hhear, hadded⟩ := hear_joins hplaced hnone
      rw [hear_foreign hplaced hforeign, hhear]
      exact .displaces hplaced rfl hadded

/-- Whether a message is returned, refused or abandoned when this packet is accepted. -/
def Closes (a : Assembler) (p : Packet) : Prop :=
  p.contains .sequenceNum = true ∧ (a.hear (.ok p)).2 ≠ []

/-- Whether a packet is among those that came since a message was last returned, refused or
abandoned. The one by which a message was abandoned may be the first of the next. -/
def Recent (ps : List Packet) (q : Packet) : Prop :=
  q ∈ ps ∧ ∀ front closing back, ps = front ++ closing :: back → (after front).Closes closing →
    q ∈ back ∨ (q = closing ∧ (after (front ++ [closing])).inProgress = true)

theorem Recent.later {ps : List Packet} {p q : Packet} (h : Recent ps q)
    (hquiet : ¬ (after ps).Closes p) : Recent (ps ++ [p]) q := by
  refine ⟨List.mem_append_left _ h.1, fun front closing back hsplit hcloses => ?_⟩
  obtain rfl | ⟨back, last, rfl⟩ := List.eq_nil_or_concat back
  · obtain ⟨rfl, hlast⟩ := List.append_inj' hsplit rfl
    cases hlast
    exact absurd hcloses hquiet
  · rw [List.concat_eq_append, ← List.cons_append, ← List.append_assoc] at hsplit
    obtain ⟨hfront, -⟩ := List.append_inj' hsplit rfl
    refine (h.2 front closing back hfront hcloses).imp_left fun hmem => ?_
    rw [List.concat_eq_append]
    exact List.mem_append_left _ hmem

theorem recent_last {ps : List Packet} {p : Packet}
    (hunderWay : (after (ps ++ [p])).inProgress = true) : Recent (ps ++ [p]) p := by
  refine ⟨List.mem_append_right _ (List.mem_singleton_self p),
    fun front closing back hsplit _ => ?_⟩
  obtain rfl | ⟨back, last, rfl⟩ := List.eq_nil_or_concat back
  · obtain ⟨rfl, hlast⟩ := List.append_inj' hsplit rfl
    cases hlast
    exact .inr ⟨rfl, hunderWay⟩
  · rw [List.concat_eq_append, ← List.cons_append, ← List.append_assoc] at hsplit
    obtain ⟨-, hlast⟩ := List.append_inj' hsplit rfl
    cases hlast
    exact .inl (by simp)

def Names (p : Packet) : Prop := p.contains .sequenceNum = true → (p.scalar? .jobId).isSome = true

/-- What is under way is gathered from recent packets, and is not complete. -/
def UnderWay (ps : List Packet) (pending : Option Reassembly) : Prop :=
  ∀ r, pending = some r → r.Gathers (Recent ps) ∧ r.isComplete = false

theorem gathers_of_opening {source : Packet → Prop} {p : Packet} {r : Reassembly} {job : String}
    (hnamed : p.scalar? .jobId = some job) (hsource : source p)
    (hadd : Reassembly.add {} p = (r, .ok ())) (hincomplete : r.isComplete = false) :
    r.Gathers source := by
  cases hplaced : p.scalar? .sequenceNum with
  | none =>
    have hcomplete := (Reassembly.add_alone hplaced hadd).1
    rw [hincomplete] at hcomplete
    cases hcomplete
  | some text =>
    obtain ⟨hnone, -⟩ | ⟨n, -, hn, -⟩ := Reassembly.add_ok hadd
    · rw [hplaced] at hnone
      cases hnone
    · exact Reassembly.gathers_of_first hn hnamed hsource hadd

theorem underWay_concat {ps : List Packet} {p : Packet} (hnames : Names p)
    (h : UnderWay ps (after ps).pending) :
    UnderWay (ps ++ [p]) (after (ps ++ [p])).pending := by
  have hheard := hear_heard (after ps).pending p
  have hconcat := after_concat ps p
  rw [← after_holding] at hheard
  intro r hr
  have hlast : Recent (ps ++ [p]) p := recent_last (by rw [inProgress, hr]; rfl)
  rw [hconcat] at hr
  generalize hresult : (after ps).hear (.ok p) = result at hheard hr
  cases hheard with
  | passes unplaced =>
    have hquiet : ¬ (after ps).Closes p := fun hcloses => by
      rw [Closes, unplaced] at hcloses
      cases hcloses.1
    obtain ⟨hgathers, hincomplete⟩ := h r hr
    exact ⟨hgathers.mono fun q hq => hq.later hquiet, hincomplete⟩
  | @joins next outcome placed belongs added =>
    obtain ⟨job, hnamed⟩ := Option.isSome_iff_exists.1 (hnames placed)
    cases added with
    | fails | gives => cases hr
    | @holds r' adds incomplete =>
      cases hr
      refine ⟨?_, incomplete⟩
      have hquiet : ¬ (after ps).Closes p := fun hcloses => by
        rw [Closes, hresult] at hcloses
        exact hcloses.2 rfl
      cases hunder : (after ps).pending with
      | none =>
        rw [hunder] at adds
        exact gathers_of_opening hnamed hlast adds incomplete
      | some r =>
        rw [hunder] at adds
        have hgathers := (h r hunder).1.mono fun q hq => Recent.later hq hquiet
        exact (hgathers.add (belongs r hunder) hnamed hlast adds).1
  | displaces placed _ added =>
    obtain ⟨job, hnamed⟩ := Option.isSome_iff_exists.1 (hnames placed)
    cases added with
    | fails | gives => cases hr
    | holds adds incomplete =>
      cases hr
      exact ⟨gathers_of_opening hnamed hlast adds incomplete, incomplete⟩

theorem underWay_after {ps : List Packet} (hnames : ∀ q ∈ ps, Names q) :
    UnderWay ps (after ps).pending := by
  induction ps using List.reverseRecOn with
  | nil =>
    intro r hr
    cases hr
  | append_singleton ps p ih =>
    refine underWay_concat (hnames p (by simp)) (ih fun q hq => hnames q (by simp [hq]))

/-- A message put together from packets of one job with the places `0, …, total - 1`. All of them
have come since the message before was returned, refused or abandoned, and if the last packet
abandoned that one, then there is no other. -/
structure PutTogether (earlier : List Packet) (p m : Packet) (chunks : List Packet) : Prop where
  nonempty : chunks ≠ []
  job : ∃ job, m.scalar? .jobId = some job ∧
    ∀ place (q : Packet), chunks[place]? = some q → q.IsChunk job chunks.length place
  message : m.message = (chunks.map Packet.message).flatten
  recent : ∀ q ∈ chunks, q = p ∨ Recent earlier q
  alone : (∃ e, ((after earlier).hear (.ok p)).2 = [.error e, .ok m]) → ∀ q ∈ chunks, q = p

/-- A message that is a packet alone. -/
structure Alone (p m : Packet) : Prop where
  message : m.message = p.message
  args : ∀ k, k ≠ .sequenceNum → k ≠ .totalPackets → m.get? k = p.get? k

theorem putTogether_of_gathers {earlier : List Packet} {p : Packet} {r : Reassembly}
    {source : Packet → Prop} (hgathers : r.Gathers source) (hcomplete : r.isComplete = true)
    (hsource : ∀ q, source q → q = p ∨ Recent earlier q)
    (halone : (∃ e, ((after earlier).hear (.ok p)).2 = [.error e, .ok r.toPacket]) →
      ∀ q, source q → q = p) :
    ∃ chunks, PutTogether earlier p r.toPacket chunks := by
  obtain ⟨job, chunks, hne, hchunks, hjob, hmessage⟩ := hgathers.complete hcomplete
  have hall : ∀ q ∈ chunks, source q := by
    intro q hq
    obtain ⟨place, hplace⟩ := List.getElem?_of_mem hq
    exact (hchunks place q hplace).1
  exact ⟨chunks, hne, ⟨job, hjob, fun place q hq => (hchunks place q hq).2⟩, hmessage,
    fun q hq => hsource q (hall q hq), fun hdisplaced q hq => halone hdisplaced q (hall q hq)⟩

theorem opening_given {earlier : List Packet} {p : Packet} {r : Reassembly} {job : String}
    (hnamed : p.scalar? .jobId = some job) (hadd : Reassembly.add {} p = (r, .ok ()))
    (hcomplete : r.isComplete = true) :
    ((∃ n, p.number .sequenceNum = .ok (some n)) ∧
        ∃ chunks, PutTogether earlier p r.toPacket chunks) ∨
      p.scalar? .sequenceNum = none ∧ Alone p r.toPacket := by
  obtain ⟨hnone, -⟩ | ⟨n, -, hn, -⟩ := Reassembly.add_ok hadd
  · obtain ⟨-, hmessage, hargs⟩ := Reassembly.add_alone hnone hadd
    exact .inr ⟨hnone, hmessage, hargs⟩
  · have hgathers : r.Gathers (· = p) := Reassembly.gathers_of_first hn hnamed rfl hadd
    refine .inl ⟨⟨n, hn⟩, putTogether_of_gathers hgathers hcomplete (fun q => .inl) ?_⟩
    exact fun _ q hq => hq

/-- Whatever packets came before, as long as those with a place name a job: a message that is given
is put together from packets of one job, which came since the message before was done with, or it is
the packet that was just accepted, which then has no place. -/
theorem messages_unmixed {earlier : List Packet} {p m : Packet}
    (names : ∀ q ∈ earlier ++ [p], Names q)
    (given : .ok m ∈ ((after earlier).hear (.ok p)).2) :
    ((∃ n, p.number .sequenceNum = .ok (some n)) ∧ ∃ chunks, PutTogether earlier p m chunks) ∨
      (p.scalar? .sequenceNum = none ∧ Alone p m) := by
  have hheard := hear_heard (after earlier).pending p
  rw [← after_holding] at hheard
  have hnames : Names p := names p (by simp)
  have hunder := underWay_after fun q hq => names q (List.mem_append_left _ hq)
  generalize hresult : (after earlier).hear (.ok p) = result at hheard given
  cases hheard with
  | passes unplaced =>
    rw [List.mem_singleton] at given
    cases given
    have hnone : p.scalar? .sequenceNum = none := by
      have hget : p.get? .sequenceNum = none := by simpa [Packet.contains] using unplaced
      rw [Packet.scalar?, hget]
      rfl
    exact .inr ⟨hnone, rfl, fun _ _ _ => rfl⟩
  | joins placed belongs added =>
    obtain ⟨job, hnamed⟩ := Option.isSome_iff_exists.1 (hnames placed)
    rw [Option.mem_toList] at given
    cases added with
    | fails | holds => cases given
    | @gives r' adds complete =>
      cases given
      cases hpending : (after earlier).pending with
      | none =>
        rw [hpending] at adds
        exact opening_given hnamed adds complete
      | some r =>
        rw [hpending] at adds
        obtain ⟨hgathers, hincomplete⟩ := hunder r hpending
        have hwider : r.Gathers fun q => q = p ∨ Recent earlier q := hgathers.mono fun q => .inr
        obtain ⟨hnext, hmissing⟩ := hwider.add (belongs r hpending) hnamed (.inl rfl) adds
        obtain ⟨hnone, -⟩ | ⟨n, -, hn, -⟩ := Reassembly.add_ok adds
        · -- Without a place it fills no slot, and the message is not complete.
          rw [Reassembly.isComplete, hmissing hnone, ← Reassembly.isComplete,
            hincomplete] at complete
          cases complete
        · refine .inl ⟨⟨n, hn⟩, putTogether_of_gathers hnext complete (fun _ => id) ?_⟩
          rintro ⟨e, hdisplaced⟩
          rw [hresult] at hdisplaced
          cases hdisplaced
  | displaces placed _ added =>
    obtain ⟨job, hnamed⟩ := Option.isSome_iff_exists.1 (hnames placed)
    cases added with
    | fails | holds => simp at given
    | @gives r' adds complete =>
      obtain rfl : m = r'.toPacket := by simpa using given
      exact opening_given hnamed adds complete

/-- Two packets of one job in the wrong order are one message. -/
theorem messages_unmixed_pair :
    let chunk (place : Nat) (bytes : Bytes) : Packet :=
      (((Packet.set {} .jobId (.scalar "7")).set .totalPackets (.ofNat 2)).set .sequenceNum
        (.ofNat place)).withMessage bytes
    let m := (Packet.set {} .jobId (.scalar "7")).withMessage [104, 105]
    (∀ q ∈ [chunk 1 [105]] ++ [chunk 0 [104]], Names q) ∧
      .ok m ∈ ((after [chunk 1 [105]]).hear (.ok (chunk 0 [104]))).2 ∧
      ∃ chunks, PutTogether [chunk 1 [105]] (chunk 0 [104]) m chunks := by
  intro chunk m
  have hnames : ∀ q ∈ [chunk 1 [105]] ++ [chunk 0 [104]], Names q := by
    intro q hq _
    rw [List.singleton_append, List.mem_cons, List.mem_singleton] at hq
    obtain rfl | rfl := hq <;> rfl
  have hgiven : .ok m ∈ ((after [chunk 1 [105]]).hear (.ok (chunk 0 [104]))).2 := by
    decide +kernel
  obtain ⟨-, hchunks⟩ | ⟨hnone, -⟩ := messages_unmixed hnames hgiven
  · exact ⟨hnames, hgiven, hchunks⟩
  · exact absurd hnone (by decide)

end Assembler

end JobBroker
