import JobBroker.Proofs.Packet.Capitals
import JobBroker.Proofs.Packet.Grammar

/-! Outside of bodies the decoder looks for the parenthesis that opens the next packet. Whatever
went wrong in front of a packet, the packet is read, unless its parenthesis comes while a length is
being read: then the parenthesis counts as a fault of that length, and the decoder reads on behind
it, so that the packet is lost and its message is searched for packets. -/
namespace JobBroker

namespace Packet

theorem paren_of_mem_utf8 {cs : List Char} (h : 40 ∈ Text.utf8 cs) : '(' ∈ cs := by
  obtain ⟨c, hc, hbyte⟩ := List.mem_flatMap.1 h
  by_cases hascii : c.toNat ≤ 127
  · rw [Text.utf8EncodeChar_ascii hascii, List.mem_singleton] at hbyte
    have hcode : c.toNat = 40 := by
      have hnat := congrArg UInt8.toNat hbyte
      rw [UInt8.toNat_ofNat'] at hnat
      have hforty : (40 : UInt8).toNat = 40 := rfl
      omega
    have hparen : c = '(' := Char.toNat_inj.1 hcode
    rwa [← hparen]
  · have hhigh := Text.utf8EncodeChar_high hascii 40 hbyte
    exact absurd hhigh (by decide)

theorem paren_not_mem_text {v : Value} (h : v.IsClean) : '(' ∉ v.text := by
  have hreserved : '(' ∈ reservedChars := by decide
  cases v with
  | scalar text => exact h '(' hreserved
  | array elements =>
    intro hmem
    rw [Value.text, List.mem_append, List.mem_cons, List.mem_singleton] at hmem
    obtain (hopen | hinner) | hclose := hmem
    · cases hopen
    · obtain hcomma | ⟨piece, hpiece, hparen⟩ := Lex.mem_intercalate_comma hinner
      · cases hcomma
      · obtain ⟨text, htext, rfl⟩ := List.mem_map.1 hpiece
        exact (h text htext).2 '(' hreserved hparen
    · cases hclose

theorem paren_not_mem_header {p : Packet} (h : p.IsClean) : '(' ∉ p.header := by
  intro hmem
  obtain hcomma | ⟨item, hitem, hparen⟩ := Lex.mem_intercalate_comma hmem
  · cases hcomma
  · obtain ⟨⟨k, v⟩, hkv, rfl⟩ := List.mem_map.1 hitem
    rw [Packet.item, List.mem_append, List.mem_cons] at hparen
    obtain hname | hcolon | htext := hparen
    · have htoken := List.all_eq_true.1 (Lex.name_token k).1 '(' hname
      cases htoken
    · cases hcolon
    · exact paren_not_mem_text (h k v ((p.args.mem_toList k v).1 hkv)) htext

theorem encoded_split {p : Packet} {f : Bytes} (h : p.encode = .ok f) :
    ∃ inside : Bytes, f = 40 :: inside ++ p.message ∧ 40 ∉ inside := by
  obtain ⟨hclean, -, rfl⟩ := (encode_ok_iff p f).1 h
  have hopen : Text.utf8 ['('] = [40] := by decide
  have hclose : Text.utf8 [')'] = [41] := by decide
  refine ⟨Text.utf8 (Decimal.digits p.body.length) ++ 41 :: Text.utf8 p.header ++ [10], ?_, ?_⟩
  · have hsplit : '(' :: Decimal.digits p.body.length ++ [')'] =
        ['('] ++ Decimal.digits p.body.length ++ [')'] := rfl
    rw [frame, hsplit, Text.utf8_append, Text.utf8_append, hopen, hclose]
    nth_rewrite 2 [body]
    simp
  · intro hmem
    simp only [List.mem_append, List.mem_cons, List.not_mem_nil, or_false] at hmem
    obtain (hdigits | hparen | hheader) | hnewline := hmem
    · have hdigit := Frame.digits_ascii (paren_of_mem_utf8 hdigits)
      exact absurd hdigit (by decide)
    · cases hparen
    · exact paren_not_mem_header hclean (paren_of_mem_utf8 hheader)
    · cases hnewline

end Packet

namespace Decoder

/-- Whether the decoder is outside of every declared body. -/
def IsOutside : Decoder → Prop
  | start | length .. | resync => True
  | header .. | message .. | skip _ => False

theorem resync_opening (bytes : Bytes) : resync.feed (40 :: bytes) = start.feed (40 :: bytes) := by
  rw [feed_cons, feed_cons]
  rfl

theorem resync_passes {bytes : Bytes} (h : 40 ∉ bytes) (rest : Bytes) :
    resync.feed (bytes ++ rest) = resync.feed rest := by
  induction bytes with
  | nil => rfl
  | cons b bytes ih =>
    rw [List.mem_cons, not_or] at h
    have hpush : resync.push b = (resync, none) := by
      simp [push, Ne.symm h.1]
    rw [List.cons_append, feed_cons, hpush, ih h.2]
    rfl

/-- A parenthesis that comes while a length is read is a fault of the length, and is not looked at
again. -/
theorem length_opening (value digits : Nat) (bytes : Bytes) :
    (length value digits).feed (40 :: bytes) =
      ((resync.feed bytes).1, .error (.badLength 40) :: (resync.feed bytes).2) := by
  have hpush : (length value digits).push 40 = (resync, some (.error (.badLength 40))) := rfl
  rw [feed_cons, hpush]
  rfl

/-! Of some bytes no message is decoded that is as long as they are. -/

def held : Decoder → Nat
  | message _ _ body => body.length
  | start | length .. | header .. | skip _ | resync => 0

theorem held_refused (remaining : Nat) : (refused remaining).held = 0 := by
  unfold refused
  split <;> rfl

theorem length_finish {text body : Bytes} {p : Packet} (h : finish text body = .ok p) :
    p.message.length = body.length := by
  obtain ⟨_, _, -, -, rfl⟩ := finish_ok h
  exact List.length_reverse

/-- A turn after which no message, held or decoded, is longer than this. -/
structure Within (bound : Nat) (turn : Decoder × Option Decoded) : Prop where
  holds : turn.1.held ≤ bound
  yields : ∀ p, turn.2 = some (.ok p) → p.message.length ≤ bound

theorem Within.mono {bound more : Nat} {turn : Decoder × Option Decoded} (h : Within bound turn)
    (hle : bound ≤ more) : Within more turn :=
  ⟨Nat.le_trans h.holds hle, fun p hp => Nat.le_trans (h.yields p hp) hle⟩

theorem Within.nothing {d : Decoder} {outcome : Option Decoded} (hheld : d.held = 0)
    (hnone : ∀ p, outcome ≠ some (.ok p)) : Within 0 (d, outcome) :=
  ⟨Nat.le_of_eq hheld, fun p hp => absurd hp (hnone p)⟩

theorem Within.finish (text body : Bytes) :
    Within body.length (start, some (Decoder.finish text body)) :=
  ⟨Nat.zero_le _, fun _ hp => Nat.le_of_eq (length_finish (Option.some.inj hp))⟩

theorem pushLength_within (value digits : Nat) (b : UInt8) :
    Within 0 (pushLength value digits b) := by
  unfold pushLength
  dsimp only
  split
  · split
    · exact .nothing rfl (by simp)
    · exact .nothing rfl (by simp)
  split
  · split
    · exact .nothing rfl (by simp)
    split
    · exact .nothing rfl (by simp)
    · exact .nothing rfl (by simp)
  · exact .nothing rfl (by simp)

theorem pushHeader_within (remaining : Nat) (lex : Lex) (text : Bytes) (b : UInt8) :
    Within 0 (pushHeader remaining lex text b) := by
  unfold pushHeader
  split
  · split
    · split
      · exact .finish text []
      · exact .nothing rfl (by simp)
    · exact .nothing (held_refused remaining) (by simp)
  split
  · exact .nothing (held_refused remaining) (by simp)
  split
  · exact .nothing rfl (by simp)
  · exact .nothing rfl (by simp)

theorem push_within (d : Decoder) (b : UInt8) : Within (d.held + 1) (d.push b) := by
  cases d with
  | start | skip | resync =>
    rw [push]
    split <;> exact (Within.nothing rfl (by simp)).mono (Nat.zero_le _)
  | length value digits => exact (pushLength_within value digits b).mono (Nat.zero_le _)
  | header remaining lex text =>
    exact (pushHeader_within (remaining - 1) lex text b).mono (Nat.zero_le _)
  | message remaining text body =>
    rw [push]
    split
    · exact .finish text (b :: body)
    · exact ⟨Nat.le_refl _, by simp⟩

theorem feed_held {d : Decoder} {bytes : Bytes} {p : Packet} (h : .ok p ∈ (d.feed bytes).2) :
    p.message.length ≤ d.held + bytes.length := by
  induction bytes generalizing d with
  | nil => cases h
  | cons b bytes ih =>
    obtain ⟨hnext, hnow⟩ := push_within d b
    rw [feed_cons, List.mem_append, Option.mem_toList] at h
    rw [List.length_cons]
    obtain hfirst | hlater := h
    · have hlength := hnow p hfirst
      omega
    · have hlength := ih hlater
      omega

theorem length_message_resync {bytes : Bytes} {p : Packet} (h : .ok p ∈ (resync.feed bytes).2) :
    p.message.length < bytes.length := by
  cases bytes with
  | nil => cases h
  | cons b bytes =>
    have hpush : (resync.push b).2 = none ∧ (resync.push b).1.held = 0 := by
      rw [push]
      exact ⟨rfl, by split <;> rfl⟩
    rw [feed_cons, hpush.1, Option.toList_none, List.nil_append] at h
    have hlength := feed_held h
    rw [hpush.2] at hlength
    rw [List.length_cons]
    omega

/-- A packet comes after anything that left the decoder outside of bodies. If no length was under
way, the packet is read, it is all that is yielded, and the decoder is ready for the next. If a
length was under way, the packet is never yielded: there is a fault for its opening parenthesis, and
then whatever is found in its message. -/
theorem resynchronises (garbage : Bytes) (outside : (start.feed garbage).1.IsOutside) {p : Packet}
    {f : Bytes} (encoded : p.encode = .ok f) :
    let d := (start.feed garbage).1
    (∃ q, Packet.decode f = .ok q) ∧
      ((∀ value digits, d ≠ length value digits) → d.feed f = (start, [Packet.decode f])) ∧
      ∀ value digits, d = length value digits →
        d.feed f = ((resync.feed p.message).1,
          .error (.badLength 40) :: (resync.feed p.message).2) ∧
        Packet.decode f ∉ (d.feed f).2 := by
  intro d
  have hdecode := Packet.decode_encoded encoded
  have hready : start.feed f = (start, [Packet.decode f]) := by
    rw [hdecode]
    exact Packet.feed_encoded encoded
  obtain ⟨inside, hsplit, hinside⟩ := Packet.encoded_split encoded
  refine ⟨⟨_, hdecode⟩, fun hnone => ?_, fun value digits hlength => ?_⟩
  · cases hd : d with
    | start => exact hready
    | resync => rwa [hsplit, List.cons_append, resync_opening, ← List.cons_append, ← hsplit]
    | length value digits => exact absurd hd (hnone value digits)
    | header | message | skip =>
      have hout : d.IsOutside := outside
      rw [hd] at hout
      cases hout
  · have hfeed : d.feed f = ((resync.feed p.message).1,
        .error (.badLength 40) :: (resync.feed p.message).2) := by
      rw [hlength, hsplit, List.cons_append, length_opening, resync_passes hinside]
    refine ⟨hfeed, fun hmem => ?_⟩
    rw [hfeed, hdecode, List.mem_cons] at hmem
    obtain hfault | hfound := hmem
    · cases hfault
    · exact Nat.lt_irrefl _ (length_message_resync hfound)

/-- Behind a length with a letter in it the next packet is read. -/
theorem resynchronises_letter :
    (start.feed (Text.utf8 "(1a".toList)).1.IsOutside ∧
      Packet.encode {} = .ok (Text.utf8 "(1)\n".toList) ∧
      (start.feed (Text.utf8 "(1a".toList)).1.feed (Text.utf8 "(1)\n".toList) =
        (start, [Packet.decode (Text.utf8 "(1)\n".toList)]) := by
  have hresync : (start.feed (Text.utf8 "(1a".toList)).1 = resync := by decide +kernel
  have houtside : (start.feed (Text.utf8 "(1a".toList)).1.IsOutside := by
    rw [hresync]
    trivial
  have hencoded : Packet.encode {} = .ok (Text.utf8 "(1)\n".toList) := by decide +kernel
  obtain ⟨-, hread, -⟩ := resynchronises (Text.utf8 "(1a".toList) houtside hencoded
  refine ⟨houtside, hencoded, hread fun value digits hlength => ?_⟩
  rw [hresync] at hlength
  cases hlength

/-- A packet behind a length that breaks off is lost, and a packet in its message is read. -/
theorem broken_length_loses_packet :
    let p := (Packet.set {} .jobId (.scalar "1")).withMessage (Text.utf8 "(1)\n".toList)
    let f := Text.utf8 "(13)JOB_ID:1\n(1)\n".toList
    p.encode = .ok f ∧ Packet.decode f = .ok p ∧
      start.feed (Text.utf8 "(1".toList) = (length 1 1, []) ∧
      (length 1 1).feed f = (start, [.error (.badLength 40), .ok {}]) := by
  decide +kernel

end Decoder

end JobBroker
