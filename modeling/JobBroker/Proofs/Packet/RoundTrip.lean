import JobBroker.Proofs.Packet.Parsing
import JobBroker.Proofs.Text.Capitals

/-! What is encoded is decoded to the same packet in capitals, and what can be encoded is what has
no reserved characters, no empty elements and a body that is not too large. -/
namespace JobBroker

namespace Frame

theorem digits_ascii {n : Nat} {c : Char} (h : c ∈ Decimal.digits n) :
    48 ≤ c.toNat ∧ c.toNat ≤ 57 :=
  Char.isDigit_iff_toNat.1 (Nat.isDigit_of_mem_toDigits (by decide) (by decide) h)

theorem utf8_digits (n : Nat) :
    Text.utf8 (Decimal.digits n) = (Decimal.digits n).map fun c => UInt8.ofNat c.toNat :=
  Text.utf8_ascii fun c hc => by
    have hdigit := digits_ascii hc
    omega

theorem readLength_digits {cs : List Char} (h : ∀ c ∈ cs, 48 ≤ c.toNat ∧ c.toNat ≤ 57)
    (value : Nat) :
    Decoder.readLength value (cs.map fun c => UInt8.ofNat c.toNat) =
      Nat.ofDigitChars 10 cs value := by
  induction cs generalizing value with
  | nil => rfl
  | cons c cs ih =>
    have hc := h c (List.mem_cons_self ..)
    have hcode : (UInt8.ofNat c.toNat).toNat = c.toNat := by
      rw [UInt8.toNat_ofNat']
      omega
    have hzero : '0'.toNat = 48 := rfl
    rw [Nat.ofDigitChars_cons, ← ih fun c hc => h c (List.mem_cons_of_mem _ hc)]
    simp only [Decoder.readLength, List.map_cons, List.foldl_cons, hcode, hzero,
      Nat.mul_comm value]

def ofBody (body : Bytes) (nonempty : 1 ≤ body.length) (bounded : body.length ≤ maxBody) :
    Frame where
  digits := Text.utf8 (Decimal.digits body.length)
  body := body
  ascii b hb := by
    rw [utf8_digits] at hb
    obtain ⟨c, hc, rfl⟩ := List.mem_map.1 hb
    have hdigit := digits_ascii hc
    rw [UInt8.le_iff_toNat_le, UInt8.le_iff_toNat_le, UInt8.toNat_ofNat']
    exact ⟨by simp; omega, by simp; omega⟩
  few := by
    rw [utf8_digits, List.length_map, Decimal.digits, Nat.length_toDigits_le_iff (by decide)
      (by decide)]
    exact Nat.lt_of_le_of_lt bounded (by decide)
  spells := by
    rw [utf8_digits, readLength_digits fun c hc => digits_ascii hc, Decimal.digits,
      Nat.ofDigitChars_ten_toDigits]
  nonempty := nonempty
  bounded := bounded

theorem bytes_ofBody (body : Bytes) (nonempty : 1 ≤ body.length) (bounded : body.length ≤ maxBody) :
    (ofBody body nonempty bounded).bytes = Packet.frame body := by
  have hopen : String.utf8EncodeChar '(' = [40] := by decide
  have hclose : Text.utf8 [')'] = [41] := by decide
  simp [bytes, ofBody, Packet.frame, hopen, hclose]

end Frame

theorem isTokenChar_toUpper {c : Char} (h : isTokenChar c = true) :
    isTokenChar c.toUpper = true := by
  obtain ⟨-, hsame⟩ | ⟨hlow, hhigh, hcode⟩ := toUpper_cases c
  · rwa [hsame]
  · have hne : ∀ d : Char, ¬ (65 ≤ d.toNat ∧ d.toNat ≤ 90) → c.toUpper ≠ d := by
      rintro d hd rfl
      omega
    exact (Lex.isTokenChar_iff _).2 ⟨hne _ (by decide), hne _ (by decide), hne _ (by decide),
      hne _ (by decide), hne _ (by decide), hne _ (by decide), hne _ (by decide)⟩

theorem map_intercalate (f : Char → Char) (sep : Char) (pieces : List (List Char)) :
    (List.intercalate [sep] pieces).map f =
      List.intercalate [f sep] (pieces.map fun piece => piece.map f) := by
  induction pieces with
  | nil => rfl
  | cons piece pieces ih =>
    cases pieces with
    | nil => simp
    | cons next pieces =>
      rw [List.intercalate_cons_cons, List.map_append, ih]
      simp

namespace Value

theorem all_isTokenChar_upper (cs : List Char) :
    (cs.map Char.toUpper).all isTokenChar = cs.all isTokenChar := by
  have hchar : ∀ c : Char, isTokenChar c.toUpper = isTokenChar c := fun c =>
    Bool.eq_iff_iff.2 ⟨Lex.isTokenChar_of_toUpper, isTokenChar_toUpper⟩
  rw [List.all_map]
  congr
  exact funext hchar

theorem isInline_upper (v : Value) : v.upper.isInline = v.isInline := by
  cases v with
  | scalar text => rw [upper, isInline, String.toList_map, all_isTokenChar_upper, isInline]
  | array elements =>
    rw [upper, isInline, List.all_map, isInline]
    congr
    funext text
    rw [Function.comp_apply, String.toList_map, all_isTokenChar_upper]

theorem isWritable_upper (v : Value) : v.upper.isWritable = v.isWritable := by
  cases v with
  | scalar text => exact isInline_upper (scalar text)
  | array elements =>
    have hempty : ∀ text : String, (text.map Char.toUpper).isEmpty = text.isEmpty := by
      intro text
      rw [Bool.eq_iff_iff, String.isEmpty_iff, String.isEmpty_iff, ← String.toList_inj,
        ← String.toList_inj, String.toList_map]
      simp
    have hinline := isInline_upper (array elements)
    rw [upper] at hinline
    rw [upper, isWritable_array, isWritable_array, hinline, List.all_map]
    simp only [Function.comp_def, hempty]

theorem Plain.upper {v : Value} (h : v.Plain) : v.upper.Plain := by
  refine ⟨by rw [isInline_upper, h.inline], fun hlone => h.spoken ?_⟩
  cases v with
  | scalar text => cases hlone
  | array elements =>
    obtain ⟨text, rfl, htext⟩ := List.map_eq_singleton_iff.1 (array.inj hlone)
    have hnil : text.toList = [] := by
      rw [← String.toList_inj, String.toList_map] at htext
      exact List.map_eq_nil_iff.1 htext
    have hempty : text = "" := String.toList_inj.1 hnil
    rw [hempty]

theorem text_upper (v : Value) : v.upper.text = v.text.map Char.toUpper := by
  have hbrackets : '['.toUpper = '[' ∧ ']'.toUpper = ']' ∧ ','.toUpper = ',' := by decide
  cases v with
  | scalar text => exact String.toList_map
  | array elements =>
    have hinner := map_intercalate Char.toUpper ',' (elements.map String.toList)
    simp only [upper, text, List.cons_append, List.map_cons, List.map_append, List.map_nil, hinner,
      hbrackets, List.map_map]
    simp [Function.comp_def]

end Value

namespace Arguments

theorem mem_toList (args : Arguments) (k : Key) (v : Value) :
    (k, v) ∈ args.toList ↔ args.get? k = some v := by
  have hall : k ∈ Key.all := by cases k <;> decide
  simp [toList, hall]

theorem get?_putAll (held : Key → Option Value) (keys : List Key) (args : Arguments) (k : Key) :
    (args.putAll (keys.filterMap fun k => (held k).map fun v => (k, v))).get? k =
      if k ∈ keys then (held k).or (args.get? k) else args.get? k := by
  induction keys generalizing args with
  | nil => rfl
  | cons key keys ih =>
    cases hheld : held key with
    | none =>
      rw [List.filterMap_cons_none (by simp [hheld]), ih]
      by_cases hk : k = key
      · simp [hk, hheld]
      · simp [hk]
    | some v =>
      rw [List.filterMap_cons_some (by simp [hheld]; rfl), putAll, List.foldl_cons, ← putAll, ih]
      by_cases hk : k = key
      · simp [hk, hheld]
      · simp [hk]

end Arguments

namespace Item

def entry (i : Item) : Key × Value := (i.key, i.value.upper)

theorem item_entry (i : Item) : Packet.item i.entry = i.text.map Char.toUpper := by
  have hcolon : ':'.toUpper = ':' := by decide
  simp [Packet.item, entry, text, Value.text_upper, i.names, hcolon]

theorem header_entry (items : List Item) :
    List.intercalate [','] ((items.map entry).map Packet.item) =
      (List.intercalate [','] (items.map text)).map Char.toUpper := by
  have hcomma : ','.toUpper = ',' := by decide
  rw [map_intercalate, hcomma, List.map_map, List.map_map]
  simp [Function.comp_def, item_entry]

end Item

namespace Decoder

theorem only_last {d next : Decoder} {b : UInt8} {outcome : Decoded}
    (h : d.push b = (next, some outcome)) : d.only [b] = outcome := by
  rw [only, h]
  cases outcome <;> rfl

theorem message_only {left : Nat} {text earlier message : Bytes} (h : message.length = left + 1) :
    (Decoder.message (left + 1) text earlier).only message =
      finish text (message.reverse ++ earlier) := by
  induction message generalizing left earlier with
  | nil => cases h
  | cons b message ih =>
    rw [List.length_cons, Nat.add_right_cancel_iff] at h
    cases left with
    | zero =>
      cases List.length_eq_zero_iff.1 h
      have hpush : (Decoder.message (0 + 1) text earlier).push b =
          (start, some (finish text (b :: earlier))) := by
        simp [push]
      exact only_last hpush
    | succ left =>
      have hpush : (Decoder.message (left + 1 + 1) text earlier).push b =
          (Decoder.message (left + 1) text (b :: earlier), none) := by
        simp [push]
      rw [only, hpush]
      simpa using ih h

theorem newline_only {lex : Lex} {text message : Bytes} (h : lex.mayEnd text = true) :
    (header (message.length + 1) lex text).only (10 :: message) =
      finish text message.reverse := by
  cases message with
  | nil =>
    have hpush : (header (0 + 1) lex text).push 10 = (start, some (finish text [])) := by
      simp [push, pushHeader, h]
    exact only_last hpush
  | cons b message =>
    have hpush : (header ((b :: message).length + 1) lex text).push 10 =
        (Decoder.message (message.length + 1) text [], none) := by
      simp [push, pushHeader, h]
    have hmessage : (Decoder.message (message.length + 1) text []).only (b :: message) =
        finish text ((b :: message).reverse ++ []) := message_only rfl
    rw [only, hpush, ← List.append_nil (b :: message).reverse]
    exact hmessage

end Decoder

namespace Packet

theorem body_only {items : List Item} (h : ∀ i ∈ items, i.value.isWritable = true)
    (message : Bytes) :
    let header := Text.utf8 (List.intercalate [','] (items.map Item.text))
    (Decoder.header (header ++ 10 :: message).length .keyStart []).only (header ++ 10 :: message) =
      .ok { args := Arguments.putAll {} (items.map Item.entry), message := message } := by
  intro header
  -- A header without items ends where it starts, which no other header may.
  have hreads : ∃ final, Lex.Reads .keyStart header final ∧ final.mayEnd header.reverse = true := by
    by_cases hne : items = []
    · subst hne
      exact ⟨.keyStart, .done _, rfl⟩
    · obtain ⟨final, hread, hclosed⟩ := Lex.reads_items hne h
      exact ⟨final, hread, hclosed.mayEnd _⟩
  obtain ⟨final, hread, hend⟩ := hreads
  have hlength : (header ++ 10 :: message).length = message.length + 1 + header.length := by
    rw [List.length_append, List.length_cons, Nat.add_comm]
  have hfeed := hread.feed message.length []
  rw [List.append_nil] at hfeed
  have hupper : ∀ kv ∈ items.map Item.entry, kv.2.isWritable = true := by
    intro kv hkv
    obtain ⟨i, hi, rfl⟩ := List.mem_map.1 hkv
    rw [Item.entry, Value.isWritable_upper, h i hi]
  have hparse := Header.parse_written hupper
  rw [Item.header_entry] at hparse
  rw [hlength, Decoder.only_append hfeed, Decoder.newline_only hend, Decoder.finish,
    List.reverse_reverse, Text.decode?_utf8]
  simp only [String.toList_ofList, hparse, List.reverse_reverse]

end Packet

def reservedChars : List Char := [',', ':', '[', ']', '(', ')', '\n']

/-- A value without reserved characters and without empty elements. -/
def Value.IsClean : Value → Prop
  | scalar text => ∀ c ∈ reservedChars, c ∉ text.toList
  | array elements => ∀ text ∈ elements, text ≠ "" ∧ ∀ c ∈ reservedChars, c ∉ text.toList

theorem all_isTokenChar_iff (cs : List Char) :
    cs.all isTokenChar = true ↔ ∀ c ∈ reservedChars, c ∉ cs := by
  have hreserved : ∀ c, isTokenChar c = true ↔ c ∉ reservedChars := by
    intro c
    rw [Lex.isTokenChar_iff]
    simp [reservedChars]
  rw [List.all_eq_true]
  constructor
  · intro h c hc hmem
    exact (hreserved c).1 (h c hmem) hc
  · intro h c hmem
    exact (hreserved c).2 fun hc => h c hc hmem

theorem Value.isWritable_iff (v : Value) : v.isWritable = true ↔ v.IsClean := by
  cases v with
  | scalar text => exact all_isTokenChar_iff text.toList
  | array elements =>
    rw [isWritable, List.all_eq_true]
    refine forall_congr' fun text => imp_congr_right fun _ => ?_
    rw [Bool.and_eq_true, all_isTokenChar_iff]
    simp

namespace Packet

theorem all_writable_iff (p : Packet) :
    p.args.toList.find? (fun kv => !kv.2.isWritable) = none ↔
      ∀ k v, p.get? k = some v → v.IsClean := by
  rw [List.find?_eq_none]
  constructor
  · intro h k v hv
    have hwritable := h (k, v) ((p.args.mem_toList k v).2 hv)
    rw [← Value.isWritable_iff]
    simpa using hwritable
  · rintro h ⟨k, v⟩ hkv
    have hclean := h k v ((p.args.mem_toList k v).1 hkv)
    rw [← Value.isWritable_iff] at hclean
    simpa using hclean

theorem encode_ok_iff (p : Packet) (bytes : Bytes) :
    p.encode = .ok bytes ↔ (∀ k v, p.get? k = some v → v.IsClean) ∧ p.body.length ≤ maxBody ∧
      bytes = frame p.body := by
  unfold encode
  cases hfind : p.args.toList.find? fun kv => !kv.2.isWritable with
  | some kv =>
    have hnot : ¬ ∀ k v, p.get? k = some v → v.IsClean := by
      rw [← all_writable_iff, hfind]
      nofun
    simp [hnot]
  | none =>
    have hclean := (all_writable_iff p).1 hfind
    by_cases hlarge : maxBody < p.body.length
    · simp [hlarge, Nat.not_le.2 hlarge]
    · simp only [if_neg hlarge, Except.ok.injEq]
      exact ⟨fun h => ⟨hclean, Nat.not_lt.1 hlarge, h.symm⟩, fun h => h.2.2.symm⟩

theorem decode_frame {p : Packet} (hclean : ∀ k v, p.get? k = some v → v.IsClean)
    (hsize : p.body.length ≤ maxBody) :
    ∃ q, decode (frame p.body) = .ok q ∧ q.message = p.message ∧
      ∀ k, q.get? k = (p.get? k).map Value.upper := by
  have hwritable : ∀ i ∈ p.args.toList.map Item.written, i.value.isWritable = true := by
    intro i hi
    obtain ⟨⟨k, v⟩, hkv, rfl⟩ := List.mem_map.1 hi
    exact (Value.isWritable_iff v).2 (hclean k v ((p.args.mem_toList k v).1 hkv))
  have hsome : 1 ≤ p.body.length := by
    rw [body, List.length_append, List.length_cons]
    omega
  have hbody := body_only hwritable p.message
  simp only [List.map_map, Function.comp_def, Item.text_written] at hbody
  refine ⟨{ args := Arguments.putAll {} (p.args.toList.map fun kv => (kv.1, kv.2.upper))
            message := p.message }, ?_, rfl, fun k => ?_⟩
  · rw [← Frame.bytes_ofBody p.body hsome hsize, Frame.decode_bytes]
    exact hbody
  · have hkeys : p.args.toList.map (fun kv => (kv.1, kv.2.upper)) =
        Key.all.filterMap fun k => ((p.get? k).map Value.upper).map fun v => (k, v) := by
      rw [Arguments.toList, List.map_filterMap]
      simp [get?, Function.comp_def]
    have hall : k ∈ Key.all := by cases k <;> decide
    rw [get?, hkeys, Arguments.get?_putAll (fun k => (p.get? k).map Value.upper), if_pos hall]
    cases k <;> simp [Arguments.get?]

/-- A packet can be encoded exactly if its values are clean and its body is not too large, and what
is encoded is decoded to the same message and the same keys, with the values in capitals. -/
theorem round_trip (p : Packet) :
    ((∃ bytes, p.encode = .ok bytes) ↔
      (∀ k v, p.get? k = some v → v.IsClean) ∧ p.body.length ≤ maxBody) ∧
    ∀ bytes, p.encode = .ok bytes → ∃ q, decode bytes = .ok q ∧ q.message = p.message ∧
      ∀ k, q.get? k = (p.get? k).map Value.upper := by
  simp only [encode_ok_iff]
  refine ⟨⟨?_, ?_⟩, ?_⟩
  · rintro ⟨bytes, hclean, hsize, -⟩
    exact ⟨hclean, hsize⟩
  · rintro ⟨hclean, hsize⟩
    exact ⟨_, hclean, hsize, rfl⟩
  · rintro bytes ⟨hclean, hsize, rfl⟩
    exact decode_frame hclean hsize

end Packet

end JobBroker
