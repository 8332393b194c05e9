import JobBroker.Packet.Decoder

/-! Frames on a stream: a declared body ends where its length says, whatever is inside, so that
each frame yields one outcome and none touches its neighbours. -/
namespace JobBroker

namespace Decoder

def readLength (value : Nat) (digits : Bytes) : Nat :=
  digits.foldl (fun value b => value * 10 + (b.toNat - 48)) value

/-- Whether the decoder is inside a body of which so many bytes are to come. -/
def Awaits (left : Nat) : Decoder → Prop
  | header remaining _ _ | message remaining _ _ => remaining = left
  | _ => False

/-- What a byte of a body can do when `left` bytes are to come after it. An outcome comes once: what
is refused is skipped, and what ends has no bytes left. -/
inductive Turn (left : Nat) : Decoder × Option Decoded → Prop
  | takes (d : Decoder) (awaits : d.Awaits left) (more : 0 < left) : Turn left (d, none)
  | refuses (e : PacketError) : Turn left (refused left, some (.error e))
  | ends (outcome : Decoded) (last : left = 0) : Turn left (start, some outcome)

theorem pushHeader_turn (left : Nat) (lex : Lex) (text : Bytes) (b : UInt8) :
    Turn left (pushHeader left lex text b) := by
  unfold pushHeader
  split
  · split
    · split
      · exact .ends _ ‹_›
      · exact .takes _ rfl (by omega)
    · exact .refuses _
  · split
    · exact .refuses _
    · split
      · exact .ends _ ‹_›
      · exact .takes _ rfl (by omega)

theorem push_turn {d : Decoder} {left : Nat} (h : d.Awaits (left + 1)) (b : UInt8) :
    Turn left (d.push b) := by
  cases d with
  | header remaining lex text =>
    cases h
    exact pushHeader_turn left lex text b
  | message remaining text body =>
    cases h
    simp only [push, Nat.add_eq_right, Nat.add_sub_cancel]
    split
    · exact .ends _ ‹_›
    · exact .takes _ rfl (by omega)
  | start | length | skip | resync => cases h

/-! Feeding in pieces. -/

theorem collect_eq (s : Decoder × List Decoded) (b : UInt8) :
    collect s b = ((s.1.push b).1, (s.1.push b).2.toList ++ s.2) := by
  unfold collect
  split <;> rename_i h <;> rw [h] <;> rfl

theorem foldl_collect (bytes : Bytes) (d : Decoder) (earlier : List Decoded) :
    bytes.foldl collect (d, earlier) = ((d.feed bytes).1, (d.feed bytes).2.reverse ++ earlier) := by
  induction bytes generalizing d earlier with
  | nil => rfl
  | cons b bytes ih =>
    rw [feed, List.foldl_cons, List.foldl_cons, collect_eq, collect_eq, ih, ih,
      List.append_nil, List.reverse_reverse, List.reverse_append, List.reverse_reverse,
      List.append_assoc]

@[simp] theorem feed_nil (d : Decoder) : d.feed [] = (d, []) := rfl

theorem feed_cons (d : Decoder) (b : UInt8) (bytes : Bytes) :
    d.feed (b :: bytes) =
      (((d.push b).1.feed bytes).1, (d.push b).2.toList ++ ((d.push b).1.feed bytes).2) := by
  rw [feed, List.foldl_cons, collect_eq, foldl_collect, List.append_nil, List.reverse_append,
    List.reverse_reverse]
  cases (d.push b).2 <;> rfl

theorem feed_append (d : Decoder) (xs ys : Bytes) :
    d.feed (xs ++ ys) =
      (((d.feed xs).1.feed ys).1, (d.feed xs).2 ++ ((d.feed xs).1.feed ys).2) := by
  induction xs generalizing d with
  | nil => rfl
  | cons b xs ih => simp only [List.cons_append, feed_cons, ih, List.append_assoc]

theorem only_append {d next : Decoder} {xs : Bytes} (h : d.feed xs = (next, [])) (ys : Bytes) :
    d.only (xs ++ ys) = next.only ys := by
  induction xs generalizing d with
  | nil =>
    cases h
    rfl
  | cons b xs ih =>
    rw [feed_cons] at h
    cases hpush : d.push b with
    | mk after outcome =>
      rw [hpush] at h
      cases outcome with
      | some outcome => cases h
      | none =>
        simp only [List.cons_append, only, hpush]
        exact ih h

/-! The three phases of a frame. -/

theorem refused_feed (bytes : Bytes) : (refused bytes.length).feed bytes = (start, []) := by
  induction bytes with
  | nil => rfl
  | cons b bytes ih =>
    have hpush : (refused (b :: bytes).length).push b = (refused bytes.length, none) := by
      simp only [refused, List.length_cons, Nat.add_one_ne_zero, if_false, push,
        Nat.add_eq_right, Nat.add_sub_cancel]
    rw [feed_cons, hpush, ih]
    rfl

theorem body_feed {d : Decoder} {body : Bytes} (h : d.Awaits body.length) (hne : 0 < body.length) :
    d.feed body = (start, [d.only body]) := by
  induction body generalizing d with
  | nil => exact absurd hne (Nat.lt_irrefl 0)
  | cons b body ih =>
    have hturn := push_turn h b
    rw [feed_cons, only]
    cases hpush : d.push b with
    | mk next outcome =>
      rw [hpush] at hturn
      cases hturn with
      | takes _ awaits more => simp [ih awaits more]
      -- A refused body is skipped to its end, and tells nothing more.
      | refuses e => simp [refused_feed]
      | ends outcome last =>
        cases List.length_eq_zero_iff.1 last
        cases outcome <;> simp

theorem le_readLength (digits : Bytes) (value : Nat) : value ≤ readLength value digits := by
  induction digits generalizing value with
  | nil => exact Nat.le_refl value
  | cons b digits ih =>
    have hrest := ih (value * 10 + (b.toNat - 48))
    rw [readLength, List.foldl_cons, ← readLength]
    omega

theorem length_feed (digits : Bytes) (value count : Nat) (hdigits : ∀ b ∈ digits, 48 ≤ b ∧ b ≤ 57)
    (hcount : count + digits.length ≤ maxLengthDigits)
    (hvalue : readLength value digits ≤ maxBody) :
    (length value count).feed digits =
      (length (readLength value digits) (count + digits.length), []) := by
  induction digits generalizing value count with
  | nil => rfl
  | cons b digits ih =>
    obtain ⟨hlow, hhigh⟩ := hdigits b (List.mem_cons_self ..)
    have hstep : readLength value (b :: digits) =
        readLength (value * 10 + (b.toNat - 48)) digits := rfl
    have hle := le_readLength digits (value * 10 + (b.toNat - 48))
    rw [hstep] at hvalue
    rw [List.length_cons] at hcount
    have hfits : ¬ (maxLengthDigits < count + 1 ∨ maxBody < value * 10 + (b.toNat - 48)) := by omega
    have hpush : (length value count).push b =
        (length (value * 10 + (b.toNat - 48)) (count + 1), none) := by
      simp only [push, pushLength, hlow, hhigh, decide_true, Bool.and_self, if_true, if_neg hfits]
    rw [feed_cons, hpush, ih _ _ (fun b hb => hdigits b (List.mem_cons_of_mem _ hb)) (by omega)
      hvalue, hstep, List.length_cons, Nat.add_assoc, Nat.add_comm 1]
    rfl

end Decoder

/-- A frame: a length of at most seven digits, and a body of that length, whatever it holds. -/
structure Frame where
  digits : Bytes
  body : Bytes
  ascii : ∀ b ∈ digits, 48 ≤ b ∧ b ≤ 57
  few : digits.length ≤ 7
  spells : Decoder.readLength 0 digits = body.length
  nonempty : 1 ≤ body.length
  bounded : body.length ≤ maxBody

namespace Frame

def bytes (f : Frame) : Bytes := 40 :: f.digits ++ 41 :: f.body

def opened (f : Frame) : Decoder := .header f.body.length .keyStart []

theorem feed_opened (f : Frame) :
    Decoder.start.feed (40 :: f.digits ++ [41]) = (f.opened, []) := by
  have hdigits := Decoder.length_feed f.digits 0 0 f.ascii (by rw [Nat.zero_add]; exact f.few)
    (f.spells ▸ f.bounded)
  have hsome : f.digits.length ≠ 0 := by
    intro h
    have hspells := f.spells
    have hbody := f.nonempty
    rw [List.length_eq_zero_iff.1 h] at hspells
    rw [← hspells] at hbody
    exact absurd hbody (Nat.not_succ_le_zero 0)
  have hpositive : f.body.length ≠ 0 := Nat.one_le_iff_ne_zero.1 f.nonempty
  have hopen : Decoder.start.push 40 = (.length 0 0, none) := rfl
  have hclose : (Decoder.length f.body.length f.digits.length).push 41 = (f.opened, none) := by
    simp [Decoder.push, Decoder.pushLength, opened, hsome, hpositive]
  rw [f.spells, Nat.zero_add] at hdigits
  rw [List.cons_append, Decoder.feed_cons, hopen, Decoder.feed_append, hdigits, Decoder.feed_cons,
    hclose]
  rfl

theorem decode_bytes (f : Frame) : Packet.decode f.bytes = f.opened.only f.body := by
  have hsplit : f.bytes = (40 :: f.digits ++ [41]) ++ f.body := by simp [bytes]
  rw [Packet.decode, hsplit, Decoder.only_append f.feed_opened]

theorem feed_bytes (f : Frame) :
    Decoder.start.feed f.bytes = (.start, [Packet.decode f.bytes]) := by
  have hsplit : f.bytes = (40 :: f.digits ++ [41]) ++ f.body := by simp [bytes]
  have hbody : f.opened.feed f.body = (.start, [f.opened.only f.body]) :=
    Decoder.body_feed rfl f.nonempty
  rw [decode_bytes, hsplit, Decoder.feed_append, feed_opened, hbody]
  rfl

end Frame

namespace Decoder

/-- Frames in a row yield one outcome each, the one that the frame has alone, and leave the decoder
as it was. -/
theorem frames_isolated (frames : List Frame) :
    start.feed (frames.flatMap Frame.bytes) =
      (start, frames.map fun f => Packet.decode f.bytes) := by
  induction frames with
  | nil => rfl
  | cons f frames ih =>
    rw [List.flatMap_cons, feed_append, f.feed_bytes, ih]
    rfl

example : (start.feed [40, 49, 41, 88, 40, 49, 41, 10]).2.map (·.toOption.isSome) =
    [false, true] := by decide

end Decoder

end JobBroker
