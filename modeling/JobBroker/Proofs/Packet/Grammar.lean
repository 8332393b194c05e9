import JobBroker.Proofs.Packet.Capitals
import JobBroker.Proofs.Packet.Lexemes

/-! The grammar of packets. A byte string is decoded exactly if it is a frame whose body is items
between commas, a newline and a message; nothing shorter is decoded, and nothing longer. -/
namespace JobBroker

namespace Decoder

/-! What is decoded ends where its packet ends. -/

theorem only_prefix {d : Decoder} {p : Packet} {xs ys : Bytes} (h : d.only (xs ++ ys) = .ok p)
    (hne : ys ≠ []) : d.only xs = .error .truncated := by
  induction xs generalizing d with
  | nil => rfl
  | cons b xs ih =>
    rw [List.cons_append, only] at h
    rw [only]
    cases hpush : d.push b with
    | mk next outcome =>
      rw [hpush] at h
      cases outcome with
      | none => exact ih h
      | some outcome =>
        cases outcome with
        | error e => cases h
        | ok q => simp [hne] at h

theorem only_trailing {d : Decoder} {p : Packet} {xs ys : Bytes} (h : d.only xs = .ok p)
    (hne : ys ≠ []) : d.only (xs ++ ys) = .error (.trailingBytes ys.length) := by
  induction xs generalizing d with
  | nil => cases h
  | cons b xs ih =>
    rw [only] at h
    rw [List.cons_append, only]
    cases hpush : d.push b with
    | mk next outcome =>
      rw [hpush] at h
      cases outcome with
      | none => exact ih h
      | some outcome =>
        cases outcome with
        | error e => cases h
        | ok q =>
          cases xs with
          | nil => simp [hne]
          | cons b xs => cases h

/-! What is decoded has gone through the three phases of a frame. -/

theorem body_ok {d : Decoder} {left : Nat} {body : Bytes} {p : Packet} (hawaits : d.Awaits left)
    (hleft : 0 < left) (h : d.only body = .ok p) : body.length = left := by
  induction body generalizing d left with
  | nil => cases h
  | cons b body ih =>
    obtain ⟨left, rfl⟩ := Nat.exists_eq_add_one.2 hleft
    have hturn := push_turn hawaits b
    rw [only] at h
    cases hpush : d.push b with
    | mk next outcome =>
      rw [hpush] at h hturn
      cases hturn with
      | takes _ awaits more => rw [List.length_cons, ih awaits more h]
      | refuses e => cases h
      | ends outcome last =>
        cases outcome with
        | error e => cases h
        | ok q =>
          cases body with
          | nil => rw [last, List.length_singleton]
          | cons b body => cases h

theorem header_ok {lex : Lex} {text body : Bytes} {p : Packet}
    (h : (header body.length lex text).only body = .ok p) :
    ∃ (header message : Bytes) (final : Lex), body = header ++ 10 :: message ∧
      lex.Reads header final ∧ final.mayEnd (header.reverse ++ text) = true ∧
      finish (header.reverse ++ text) message.reverse = .ok p := by
  induction body generalizing lex text with
  | nil => cases h
  | cons b body ih =>
    by_cases hnewline : b = 10
    · subst hnewline
      cases hend : lex.mayEnd text with
      | true =>
        rw [List.length_cons, newline_only hend] at h
        exact ⟨[], body, lex, rfl, .done lex, hend, h⟩
      | false => simp [only, push, pushHeader, hend] at h
    · cases hstep : lex.step b with
      | error e => simp [only, push, pushHeader, hnewline, hstep] at h
      | ok next =>
        cases body with
        | nil => simp [only, push, pushHeader, hnewline, hstep] at h
        | cons b' body =>
          have hrest : (header (b' :: body).length next (b :: text)).only (b' :: body) = .ok p := by
            simpa [only, push, pushHeader, hnewline, hstep] using h
          obtain ⟨rest, message, final, hbody, hreads, hend, hfinish⟩ := ih hrest
          refine ⟨b :: rest, message, final, by rw [hbody, List.cons_append],
            .next hnewline hstep hreads, ?_, ?_⟩
          · simpa using hend
          · simpa using hfinish

theorem length_ok {value count : Nat} {bytes : Bytes} {p : Packet}
    (hcount : count ≤ maxLengthDigits) (hvalue : value ≤ maxBody)
    (h : (length value count).only bytes = .ok p) :
    ∃ digits body : Bytes, bytes = digits ++ 41 :: body ∧ (∀ b ∈ digits, 48 ≤ b ∧ b ≤ 57) ∧
      count + digits.length ≤ maxLengthDigits ∧ readLength value digits ≤ maxBody ∧
      0 < readLength value digits ∧
      (header (readLength value digits) .keyStart []).only body = .ok p := by
  induction bytes generalizing value count with
  | nil => cases h
  | cons b bytes ih =>
    rw [only, push, pushLength] at h
    by_cases hdigit : 48 ≤ b ∧ b ≤ 57
    · simp only [hdigit, decide_true, Bool.and_self, if_true] at h
      by_cases hlarge : maxLengthDigits < count + 1 ∨ maxBody < value * 10 + (b.toNat - 48)
      · rw [if_pos hlarge] at h
        cases h
      · rw [if_neg hlarge] at h
        obtain ⟨digits, body, rfl, hdigits, hfew, hbound, hpositive, hbody⟩ :=
          ih (by omega) (by omega) h
        refine ⟨b :: digits, body, rfl, ?_, ?_, hbound, hpositive, hbody⟩
        · exact List.forall_mem_cons.2 ⟨hdigit, hdigits⟩
        · rw [List.length_cons]
          omega
    · have hno : (decide (48 ≤ b) && decide (b ≤ 57)) = false := by
        simpa using hdigit
      simp only [hno, Bool.false_eq_true, if_false] at h
      by_cases hclose : b = 41
      · subst hclose
        by_cases hnone : count = 0
        · simp [hnone] at h
        by_cases hzero : value = 0
        · simp [hnone, hzero] at h
        · simp only [beq_self_eq_true, if_true, if_neg hnone, if_neg hzero] at h
          exact ⟨[], bytes, rfl, List.forall_mem_nil _, hcount, hvalue, Nat.pos_of_ne_zero hzero, h⟩
      · simp [hclose] at h

theorem finish_ok {text : Bytes} {message : Bytes} {p : Packet}
    (h : finish text message = .ok p) :
    ∃ cs args, text.reverse = Text.utf8 cs ∧ Header.parse (cs.map Char.toUpper) = .ok args ∧
      p = { args := args, message := message.reverse } := by
  unfold finish at h
  split at h
  · cases h
  · rename_i s hs
    split at h
    · cases h
    · cases h
      exact ⟨s.toList, _, Text.decode?_some hs, ‹_›, rfl⟩

end Decoder

def Item.last? (k : Key) (items : List Item) : Option Item := items.reverse.find? fun i => i.key = k

theorem Arguments.get?_putAll_entries (items : List Item) (args : Arguments) (k : Key) :
    (args.putAll (items.map Item.entry)).get? k =
      ((Item.last? k items).map fun i => i.value.upper).or (args.get? k) := by
  induction items generalizing args with
  | nil => rfl
  | cons i items ih =>
    rw [List.map_cons, putAll, List.foldl_cons, ← putAll, ih, Item.last?, Item.last?,
      List.reverse_cons, List.find?_append, get?_put]
    cases List.find? (fun i => decide (i.key = k)) items.reverse with
    | some last => rfl
    | none =>
      by_cases hk : i.key = k
      · simp [hk, Item.entry]
      · simp [hk, Ne.symm hk, Item.entry]

/-- A packet as it may be spelled: a frame whose body is items between commas, a newline and a
message. Keys are in any case, and values have no reserved characters and no empty elements. -/
structure Spelling where
  frame : Frame
  items : List Item
  message : Bytes
  body : frame.body = Text.utf8 (List.intercalate [','] (items.map Item.text)) ++ 10 :: message
  clean : ∀ i ∈ items, i.value.IsClean

namespace Spelling

/-- What a spelling says: the message, and under each key the value of its last item in capitals. -/
def Says (s : Spelling) (p : Packet) : Prop :=
  p.message = s.message ∧ ∀ k, p.get? k = (Item.last? k s.items).map fun i => i.value.upper

theorem decode_frame (s : Spelling) :
    Packet.decode s.frame.bytes =
      .ok { args := Arguments.putAll {} (s.items.map Item.entry), message := s.message } := by
  have hbody := Packet.body_only (fun i hi => (Value.isWritable_iff i.value).2 (s.clean i hi))
    s.message
  simp only [← s.body] at hbody
  rw [Frame.decode_bytes]
  exact hbody

theorem says_iff (s : Spelling) (p : Packet) :
    s.Says p ↔
      p = { args := Arguments.putAll {} (s.items.map Item.entry), message := s.message } := by
  have hempty : ∀ k, Arguments.get? {} k = none := by
    intro k
    cases k <;> rfl
  have hget : ∀ k, (Arguments.putAll {} (s.items.map Item.entry)).get? k =
      (Item.last? k s.items).map fun i => i.value.upper := by
    intro k
    rw [Arguments.get?_putAll_entries, hempty, Option.or_none]
  constructor
  · rintro ⟨hmessage, hargs⟩
    exact Packet.ext_get? (fun k => (hargs k).trans (hget k).symm) hmessage
  · rintro rfl
    exact ⟨rfl, hget⟩

theorem items_of_header {cs : List Char} {final : Lex}
    (h : Lex.Reads .keyStart (Text.utf8 cs) final)
    (hend : final.mayEnd (Text.utf8 cs).reverse = true) :
    ∃ items : List Item, cs = List.intercalate [','] (items.map Item.text) ∧
      ∀ i ∈ items, i.value.Plain := by
  cases final with
  | keyStart =>
    have hnil : Text.utf8 cs = [] := by
      simpa [Lex.mayEnd] using hend
    exact ⟨[], Text.utf8_eq_nil hnil, nofun⟩
  | value | arrayEnd =>
    obtain ⟨items, -, hcs, hitems⟩ := Lex.items_of_reads h trivial
    exact ⟨items, hcs, hitems⟩
  | key | array => cases hend

/-- The second reading of a header refuses empty elements, which the first lets pass. -/
theorem clean_of_parse {items : List Item} (h : ∀ i ∈ items, i.value.Plain) {args : Arguments}
    (hparse : Header.parse ((List.intercalate [','] (items.map Item.text)).map Char.toUpper) =
      .ok args) : ∀ i ∈ items, i.value.IsClean := by
  have hplain : ∀ kv ∈ items.map Item.entry, kv.2.Plain := by
    intro kv hkv
    obtain ⟨i, hi, rfl⟩ := List.mem_map.1 hkv
    exact (h i hi).upper
  rw [← Item.header_entry, Header.parse_text hplain] at hparse
  split at hparse
  case isFalse => cases hparse
  case isTrue hall =>
    intro i hi
    have hwritable := List.all_eq_true.1 hall i.entry (List.mem_map_of_mem hi)
    rwa [Item.entry, Value.isWritable_upper, Value.isWritable_iff] at hwritable

theorem exists_of_decode {b : Bytes} {p : Packet} (h : Packet.decode b = .ok p) :
    ∃ s : Spelling, s.frame.bytes = b := by
  cases b with
  | nil => cases h
  | cons opening rest =>
    rw [Packet.decode, Decoder.only, Decoder.push] at h
    by_cases hopen : opening = 40
    · subst hopen
      have hlength : (Decoder.length 0 0).only rest = .ok p := h
      obtain ⟨digits, body, rfl, hdigits, hfew, hbounded, hpositive, hbody⟩ :=
        Decoder.length_ok (Nat.zero_le _) (Nat.zero_le _) hlength
      have hawaits : (Decoder.header (Decoder.readLength 0 digits) .keyStart []).Awaits
          (Decoder.readLength 0 digits) := rfl
      have hsize := Decoder.body_ok hawaits hpositive hbody
      rw [← hsize] at hbody
      obtain ⟨header, message, final, hsplit, hreads, hend, hfinish⟩ := Decoder.header_ok hbody
      rw [List.append_nil] at hend hfinish
      obtain ⟨cs, args, hcs, hparse, -⟩ := Decoder.finish_ok hfinish
      rw [List.reverse_reverse] at hcs
      subst hcs
      obtain ⟨items, rfl, hitems⟩ := items_of_header hreads hend
      exact ⟨{ frame :=
                { digits := digits
                  body := body
                  ascii := hdigits
                  few := by rwa [Nat.zero_add] at hfew
                  spells := hsize.symm
                  nonempty := hsize ▸ hpositive
                  bounded := hsize ▸ hbounded }
               items := items
               message := message
               body := hsplit
               clean := clean_of_parse hitems hparse }, by simp [Frame.bytes]⟩
    · simp [hopen] at h

end Spelling

/-- The decoder accepts exactly the spellings of packets: what it decodes is what the spelling says.
Of a byte string that is decoded every part in front is truncated, and what is behind it is counted
as trailing. -/
theorem Packet.decode_grammar (b : Bytes) (p : Packet) :
    (decode b = .ok p ↔ ∃ s : Spelling, s.frame.bytes = b ∧ s.Says p) ∧
      (decode b = .ok p →
        (∀ front back, front ++ back = b → back ≠ [] → decode front = .error .truncated) ∧
          ∀ behind ≠ [], decode (b ++ behind) = .error (.trailingBytes behind.length)) := by
  refine ⟨⟨fun h => ?_, ?_⟩, fun h => ⟨?_, ?_⟩⟩
  · obtain ⟨s, rfl⟩ := Spelling.exists_of_decode h
    rw [s.decode_frame] at h
    exact ⟨s, rfl, (s.says_iff p).2 (Except.ok.inj h).symm⟩
  · rintro ⟨s, rfl, hsays⟩
    rw [s.decode_frame, (s.says_iff p).1 hsays]
  · rintro front back rfl hback
    exact Decoder.only_prefix h hback
  · intro behind hbehind
    exact Decoder.only_trailing h hbehind

namespace Packet

/-- The second of two values of a key counts, and without its last byte the packet is truncated. -/
theorem decode_grammar_array :
    let b := Text.utf8 "(23)job_id:1,Job_Id:[a,b]\nx".toList
    let p := (Packet.set {} .jobId (.array ["A", "B"])).withMessage [120]
    (∃ s : Spelling, s.frame.bytes = b ∧ s.Says p) ∧ decode b.dropLast = .error .truncated ∧
      decode (b ++ [40, 49]) = .error (.trailingBytes 2) := by
  intro b p
  have hdecode : decode b = .ok p := by
    decide +kernel
  obtain ⟨hspelling, hends⟩ := decode_grammar b p
  obtain ⟨hfront, hbehind⟩ := hends hdecode
  have hsplit : b.dropLast ++ [120] = b := by
    decide +kernel
  exact ⟨hspelling.1 hdecode, hfront _ _ hsplit (List.cons_ne_nil _ _),
    hbehind [40, 49] (List.cons_ne_nil _ _)⟩

end Packet

end JobBroker
