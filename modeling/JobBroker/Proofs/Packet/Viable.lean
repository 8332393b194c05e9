import JobBroker.Proofs.Packet.Closing

/-! Which inputs can still become a packet. The decoder is silent on the first part of every packet,
but also on bytes that no packet begins with: it looks at the text of a header and at the elements
of its arrays only when the body has ended, at a key only at its colon, and it does not ask whether
there is room for what the header still needs. -/
namespace JobBroker

namespace Decoder

def Sound : Decoder → Prop
  | start => True
  | length value digits => value ≤ maxBody ∧ digits ≤ maxLengthDigits ∧ (digits = 0 → value = 0)
  | header remaining lex text => 0 < remaining ∧ Lex.keyStart.Reads text.reverse lex
  | message remaining text _ => 0 < remaining ∧
      ∃ final, Lex.keyStart.Reads text.reverse final ∧ final.mayEnd text = true
  | skip _ | resync => False

theorem sound_of_pushLength {value digits : Nat} {b : UInt8} {next : Decoder}
    (hpush : pushLength value digits b = (next, none)) : next.Sound := by
  unfold pushLength at hpush
  dsimp only at hpush
  split at hpush
  · split at hpush
    · cases hpush
    · cases hpush
      refine ⟨by omega, by omega, fun hnone => ?_⟩
      cases hnone
  split at hpush
  · split at hpush
    · cases hpush
    split at hpush
    · cases hpush
    · cases hpush
      exact ⟨Nat.pos_of_ne_zero ‹_›, .done _⟩
  · cases hpush

theorem sound_of_pushHeader {left : Nat} {lex : Lex} {text : Bytes} {b : UInt8} {next : Decoder}
    (h : Lex.keyStart.Reads text.reverse lex)
    (hpush : pushHeader left lex text b = (next, none)) : next.Sound := by
  unfold pushHeader at hpush
  split at hpush
  · split at hpush
    · split at hpush
      · cases hpush
      · cases hpush
        exact ⟨Nat.pos_of_ne_zero ‹_›, lex, h, ‹_›⟩
    · cases hpush
  · rename_i hinline
    split at hpush
    · cases hpush
    · split at hpush
      · cases hpush
      · cases hpush
        refine ⟨Nat.pos_of_ne_zero ‹_›, ?_⟩
        rw [List.reverse_cons]
        exact h.append (.one (by simpa using hinline) ‹_›)

theorem Sound.push {d next : Decoder} {b : UInt8} (h : d.Sound) (hpush : d.push b = (next, none)) :
    next.Sound := by
  cases d with
  | start =>
    rw [Decoder.push] at hpush
    split at hpush <;> cases hpush
    exact ⟨Nat.zero_le _, Nat.zero_le _, fun _ => rfl⟩
  | length value digits => exact sound_of_pushLength hpush
  | header remaining lex text => exact sound_of_pushHeader h.2 hpush
  | message remaining text body =>
    obtain ⟨hsome, hends⟩ := h
    rw [Decoder.push] at hpush
    split at hpush <;> cases hpush
    exact ⟨by omega, hends⟩
  | skip | resync => cases h

theorem Sound.feed {d next : Decoder} {bytes : Bytes} (h : d.Sound)
    (hsilent : d.feed bytes = (next, [])) : next.Sound := by
  induction bytes generalizing d with
  | nil =>
    cases hsilent
    exact h
  | cons b bytes ih =>
    rw [feed_cons] at hsilent
    cases hpush : d.push b with
    | mk mid outcome =>
      rw [hpush] at hsilent
      cases outcome with
      | some outcome => cases hsilent
      | none => exact ih (h.push hpush) hsilent

def Completes (d : Decoder) : Prop := ∃ bytes p, d.only bytes = .ok p

theorem Completes.behind {d next : Decoder} {b : UInt8} (hpush : d.push b = (next, none))
    (h : next.Completes) : d.Completes := by
  obtain ⟨bytes, p, hp⟩ := h
  refine ⟨b :: bytes, p, ?_⟩
  rw [only, hpush]
  exact hp

/-- Whether what has been read is the first part of a packet. -/
def Viable : Decoder → Prop
  | start => True
  | length value digits => 0 < value ∨ digits < maxLengthDigits
  | header remaining lex text => lex.Closable remaining text.reverse
  | message _ text _ => Text.IsUtf8 text.reverse ∧ Header.Filled text.reverse
  | skip _ | resync => False

theorem header_completes_iff {remaining : Nat} {lex : Lex} {text : Bytes}
    (hsome : 0 < remaining) (hread : Lex.keyStart.Reads text.reverse lex) :
    (header remaining lex text).Completes ↔
      ∃ rest, rest.length + 1 ≤ remaining ∧ lex.Completes text.reverse rest := by
  have hreversed : ∀ rest : Bytes, (text.reverse ++ rest).reverse = rest.reverse ++ text :=
    fun rest => by rw [List.reverse_append, List.reverse_reverse]
  constructor
  · rintro ⟨bytes, p, hp⟩
    have hawaits : (header remaining lex text).Awaits remaining := rfl
    obtain rfl : bytes.length = remaining := body_ok hawaits hsome hp
    obtain ⟨rest, message, final, rfl, hreads, hend, hfinish⟩ := header_ok hp
    rw [← hreversed] at hend hfinish
    obtain ⟨hutf8, hfilled⟩ := (finish_ok_iff _ (hread.append hreads) hend).1 ⟨p, hfinish⟩
    refine ⟨rest, ?_, ⟨final, hreads, hend⟩, hutf8, hfilled⟩
    rw [List.length_append, List.length_cons]
    omega
  · rintro ⟨rest, hroom, ⟨final, hreads, hend⟩, hutf8, hfilled⟩
    obtain ⟨left, rfl⟩ : ∃ left, remaining = left + 1 + rest.length :=
      ⟨remaining - rest.length - 1, by omega⟩
    let message : Bytes := List.replicate left 0
    have hleft : left = message.length := List.length_replicate.symm
    obtain ⟨p, hp⟩ := (finish_ok_iff message.reverse (hread.append hreads) hend).2
      ⟨hutf8, hfilled⟩
    rw [hreversed] at hend hp
    refine ⟨rest ++ 10 :: message, p, ?_⟩
    rw [only_append (hreads.feed left text), hleft, newline_only hend]
    exact hp

theorem header_viable_iff {remaining : Nat} {lex : Lex} {text : Bytes}
    (h : (header remaining lex text).Sound) :
    (header remaining lex text).Completes ↔ (header remaining lex text).Viable := by
  obtain ⟨hsome, hread⟩ := h
  rw [header_completes_iff hsome hread]
  exact (Lex.closable_iff (hread.trail (.inl rfl))).symm

theorem length_completes {value digits : Nat} (hvalue : 0 < value)
    (h : (length value digits).Sound) : (length value digits).Completes := by
  obtain ⟨-, -, hnone⟩ := h
  have hpositive : value ≠ 0 := Nat.pos_iff_ne_zero.1 hvalue
  have hdigits : digits ≠ 0 := fun hzero => hpositive (hnone hzero)
  have hclose : (length value digits).push 41 = (header value .keyStart [], none) := by
    simp [push, pushLength, hdigits, hpositive]
  exact .behind hclose ((header_viable_iff ⟨hvalue, .done _⟩).2 (.inl ⟨rfl, hvalue⟩))

theorem length_viable_iff {value digits : Nat} (h : (length value digits).Sound) :
    (length value digits).Completes ↔ (length value digits).Viable := by
  constructor
  · rintro ⟨bytes, p, hp⟩
    obtain ⟨hvalue, hfew, -⟩ := h
    obtain ⟨spelled, body, -, -, hlength, -, hpositive, -⟩ := length_ok hfew hvalue hp
    cases spelled with
    | nil => exact .inl hpositive
    | cons b spelled =>
      rw [List.length_cons] at hlength
      exact .inr (by omega)
  · intro hviable
    by_cases hvalue : 0 < value
    · exact length_completes hvalue h
    · -- Only zeros have come: a one is put behind them.
      obtain rfl := Nat.eq_zero_of_not_pos hvalue
      have hroom : digits < maxLengthDigits := hviable.resolve_left hvalue
      have hbody : 1 ≤ maxBody := by decide
      have hone : (length 0 digits).push 49 = (length 1 (digits + 1), none) := by
        simp [push, pushLength]
        omega
      have hnext : (length 1 (digits + 1)).Sound :=
        ⟨by decide, hroom, fun hnone => absurd hnone (Nat.succ_ne_zero digits)⟩
      exact .behind hone (length_completes Nat.one_pos hnext)

theorem message_viable_iff {remaining : Nat} {text body : Bytes}
    (h : (message remaining text body).Sound) :
    (message remaining text body).Completes ↔ (message remaining text body).Viable := by
  obtain ⟨hsome, final, hread, hend⟩ := h
  have hfinish : ∀ earlier : Bytes, (∃ p, finish text earlier = .ok p) ↔
      Text.IsUtf8 text.reverse ∧ Header.Filled text.reverse := by
    intro earlier
    have hiff := finish_ok_iff earlier hread (by rwa [List.reverse_reverse])
    rwa [List.reverse_reverse] at hiff
  obtain ⟨left, rfl⟩ := Nat.exists_eq_add_one.2 hsome
  constructor
  · rintro ⟨bytes, p, hp⟩
    have hawaits : (message (left + 1) text body).Awaits (left + 1) := rfl
    rw [message_only (body_ok hawaits hsome hp)] at hp
    exact (hfinish _).1 ⟨p, hp⟩
  · intro hviable
    have hlength : (List.replicate (left + 1) (0 : UInt8)).length = left + 1 :=
      List.length_replicate
    obtain ⟨p, hp⟩ := (hfinish _).2 hviable
    exact ⟨_, p, (message_only hlength).trans hp⟩

theorem completes_iff {d : Decoder} (h : d.Sound) : d.Completes ↔ d.Viable := by
  cases d with
  | start =>
    refine iff_of_true ?_ trivial
    have hopen : start.push 40 = (length 0 0, none) := rfl
    have hlength : (length 0 0).Sound := ⟨Nat.zero_le _, Nat.zero_le _, fun _ => rfl⟩
    exact .behind hopen ((length_viable_iff hlength).2 (.inr (by decide)))
  | length value digits => exact length_viable_iff h
  | header remaining lex text => exact header_viable_iff h
  | message remaining text body => exact message_viable_iff h
  | skip | resync => cases h

/-- Bytes that were taken without a word are the first part of a packet exactly if the place that
the decoder has come to is viable. -/
theorem completes_of_silent {bytes : Bytes} {d : Decoder} (silent : start.feed bytes = (d, [])) :
    (∃ rest p, Packet.decode (bytes ++ rest) = .ok p) ↔ d.Viable := by
  have hstart : start.Sound := trivial
  rw [← completes_iff (hstart.feed silent), Completes]
  simp only [Packet.decode, only_append silent]

theorem refuses_of_length {value digits : Nat} (h : ¬ (length value digits).Viable) (b : UInt8) :
    ∃ next e, (length value digits).push b = (next, some (.error e)) := by
  rw [Viable, not_or] at h
  obtain ⟨hvalue, hdigits⟩ := h
  have hlast : maxLengthDigits < digits + 1 ∨ maxBody < value * 10 + (b.toNat - 48) := by omega
  rw [push, pushLength]
  split
  · exact ⟨resync, _, if_pos hlast⟩
  split
  · split
    · exact ⟨start, _, rfl⟩
    · exact ⟨start, _, if_pos (Nat.eq_zero_of_not_pos hvalue)⟩
  · exact ⟨resync, _, rfl⟩

theorem refuses_of_awaits {d : Decoder} {body : Bytes} (hawaits : d.Awaits body.length)
    (hsome : 0 < body.length) (h : ¬ d.Completes) : ∃ e, d.feed body = (start, [.error e]) := by
  rw [body_feed hawaits hsome]
  cases honly : d.only body with
  | error e => exact ⟨e, rfl⟩
  | ok p => exact absurd ⟨body, p, honly⟩ h

/-- Bytes that the decoder takes without a word. A packet can still begin with them exactly if the
place that the decoder has come to is viable. If it is not, the fault comes later, in a length with
the next byte and in a body by its declared end. Where a fault comes no packet begins so. -/
theorem viable_prefixes {bytes : Bytes} {d : Decoder} (silent : start.feed bytes = (d, [])) :
    ((∃ rest p, Packet.decode (bytes ++ rest) = .ok p) ↔ d.Viable) ∧
      (¬ d.Viable → (∀ b, ∃ next e, d.push b = (next, some (.error e))) ∨
        ∃ left, 0 < left ∧ d.Awaits left ∧
          ∀ body : Bytes, body.length = left → ∃ e, d.feed body = (start, [.error e])) ∧
      ∀ b next e, d.push b = (next, some (.error e)) →
        ∀ rest p, Packet.decode (bytes ++ b :: rest) ≠ .ok p := by
  have hstart : start.Sound := trivial
  have hsound := hstart.feed silent
  refine ⟨completes_of_silent silent, fun hdead => ?_, fun b next e hpush rest p hp => ?_⟩
  · have hnone : ¬ d.Completes := fun hcompletes => hdead ((completes_iff hsound).1 hcompletes)
    cases d with
    | start => exact absurd trivial hdead
    | length value digits => exact .inl (refuses_of_length hdead)
    | header remaining lex text =>
      refine .inr ⟨remaining, hsound.1, rfl, fun body hbody => ?_⟩
      subst hbody
      exact refuses_of_awaits rfl hsound.1 hnone
    | message remaining text earlier =>
      refine .inr ⟨remaining, hsound.1, rfl, fun body hbody => ?_⟩
      subst hbody
      exact refuses_of_awaits rfl hsound.1 hnone
    | skip | resync => cases hsound
  · rw [Packet.decode, only_append silent, only, hpush] at hp
    cases hp

/-- Behind a key and its colon there may be nothing but the newline. -/
theorem viable_prefixes_key :
    start.feed (Text.utf8 "(8)JOB_ID:".toList) =
        (header 1 (.value true) (Text.utf8 "JOB_ID:".toList).reverse, []) ∧
      ∃ rest p, Packet.decode (Text.utf8 "(8)JOB_ID:".toList ++ rest) = .ok p := by
  have hsilent : start.feed (Text.utf8 "(8)JOB_ID:".toList) =
      (header 1 (.value true) (Text.utf8 "JOB_ID:".toList).reverse, []) := by
    decide +kernel
  refine ⟨hsilent, (viable_prefixes hsilent).1.2 ⟨by decide, 0, ?_, Nat.le_refl 1⟩⟩
  rw [List.reverse_reverse]
  exact Text.lacks_zero.2 ⟨_, rfl⟩

/-- An empty element, a key without room for its end and a length of seven zeros are taken without a
word, and no packet begins with them. -/
theorem silent_dead_ends :
    let element := Text.utf8 "(14)JOB_ID:[1,,".toList
    let key := Text.utf8 "(2)J".toList
    let zeros := Text.utf8 "(0000000".toList
    ((start.feed element).2 = [] ∧ ¬ ∃ rest p, Packet.decode (element ++ rest) = .ok p) ∧
      ((start.feed key).2 = [] ∧ ¬ ∃ rest p, Packet.decode (key ++ rest) = .ok p) ∧
      ((start.feed zeros).2 = [] ∧ ¬ ∃ rest p, Packet.decode (zeros ++ rest) = .ok p) := by
  intro element key zeros
  have helement : start.feed element =
      (header 3 .array (Text.utf8 "JOB_ID:[1,,".toList).reverse, []) := by
    decide +kernel
  have hkey : start.feed key = (header 1 (.key [74]) [74], []) := by
    decide +kernel
  have hzeros : start.feed zeros = (length 0 7, []) := by
    decide +kernel
  rw [completes_of_silent helement, completes_of_silent hkey, completes_of_silent hzeros, helement,
    hkey, hzeros]
  refine ⟨⟨rfl, fun hviable => ?_⟩, ⟨rfl, fun hviable => ?_⟩, rfl, fun hviable => ?_⟩
  · obtain ⟨hfilled, -⟩ := hviable
    exact absurd hfilled (by decide)
  · obtain ⟨-, -, k, rest, -, hroom⟩ := hviable
    omega
  · obtain hvalue | hroom := hviable
    · exact Nat.lt_irrefl 0 hvalue
    · exact absurd hroom (by decide)

end Decoder

end JobBroker
