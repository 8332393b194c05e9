import JobBroker.Packet.Decoder
import JobBroker.Proofs.Text.Utf8
import JobBroker.Proofs.Packet.Frame

/-! The lexer on headers in any spelling: it reads every item through to its end, and the decoder
keeps the bytes. -/
namespace JobBroker

/-- An item of a header in some spelling: a token that names a key in any case, and a value. -/
structure Item where
  token : List Char
  key : Key
  value : Value
  names : token.map Char.toUpper = key.name.toList

namespace Item

def text (i : Item) : List Char := i.token ++ ':' :: i.value.text

def written (kv : Key × Value) : Item where
  token := kv.1.name.toList
  key := kv.1
  value := kv.2
  names := by cases kv.1 <;> decide

@[simp] theorem text_written (kv : Key × Value) : (written kv).text = Packet.item kv := rfl

end Item

namespace Lex

/-- The lexer reads these bytes, none of them a newline, and comes to `final`. -/
inductive Reads : Lex → Bytes → Lex → Prop
  | done (lex : Lex) : Reads lex [] lex
  | next {lex mid final : Lex} {b : UInt8} {bytes : Bytes} (inline : b ≠ 10)
      (takes : lex.step b = .ok mid) (rest : Reads mid bytes final) : Reads lex (b :: bytes) final

theorem Reads.append {lex mid final : Lex} {xs ys : Bytes} (h : Reads lex xs mid)
    (h' : Reads mid ys final) : Reads lex (xs ++ ys) final := by
  induction h with
  | done lex => exact h'
  | next inline takes rest ih => exact .next inline takes (ih h')

theorem Reads.one {lex final : Lex} {b : UInt8} (inline : b ≠ 10) (h : lex.step b = .ok final) :
    Reads lex [b] final := .next inline h (.done final)

theorem Reads.feed {lex final : Lex} {bytes : Bytes} (h : Reads lex bytes final) (left : Nat)
    (text : Bytes) :
    (Decoder.header (left + 1 + bytes.length) lex text).feed bytes =
      (Decoder.header (left + 1) final (bytes.reverse ++ text), []) := by
  induction h generalizing text with
  | done lex => rfl
  | @next lex mid final b bytes inline takes rest ih =>
    have hmore : left + 1 + bytes.length ≠ 0 := by omega
    have hpush : (Decoder.header (left + 1 + (b :: bytes).length) lex text).push b =
        (Decoder.header (left + 1 + bytes.length) mid (b :: text), none) := by
      simp only [Decoder.push, Decoder.pushHeader, beq_eq_false_iff_ne.2 inline, takes,
        List.length_cons, ← Nat.add_assoc, Nat.add_sub_cancel, if_neg hmore]
      rfl
    rw [Decoder.feed_cons, hpush, ih]
    simp

def Closed : Lex → Prop
  | value _ | arrayEnd => True
  | keyStart | key _ | array => False

theorem Closed.mayEnd {lex : Lex} (h : lex.Closed) (text : Bytes) : lex.mayEnd text = true := by
  cases lex with
  | value | arrayEnd => rfl
  | keyStart | key | array => cases h

theorem Closed.comma {lex : Lex} (h : lex.Closed) : lex.step 44 = .ok keyStart := by
  cases lex with
  | value | arrayEnd => rfl
  | keyStart | key | array => cases h

theorem isTokenByte_iff (b : UInt8) : isTokenByte b = true ↔
    b ≠ 44 ∧ b ≠ 58 ∧ b ≠ 91 ∧ b ≠ 93 ∧ b ≠ 40 ∧ b ≠ 41 ∧ b ≠ 10 := by
  simp [isTokenByte, and_assoc]

theorem isTokenChar_iff (c : Char) : isTokenChar c = true ↔
    c ≠ ',' ∧ c ≠ ':' ∧ c ≠ '[' ∧ c ≠ ']' ∧ c ≠ '(' ∧ c ≠ ')' ∧ c ≠ '\n' := by
  unfold isTokenChar
  split <;> simp_all

theorem reserved_cases {c : Char} (h : isTokenChar c = false) :
    c = ',' ∨ c = ':' ∨ c = '[' ∨ c = ']' ∨ c = '(' ∨ c = ')' ∨ c = '\n' := by
  unfold isTokenChar at h
  split at h <;> simp_all

theorem isTokenByte_of_mem {c : Char} (h : isTokenChar c = true) :
    ∀ b ∈ String.utf8EncodeChar c, isTokenByte b = true := by
  intro b hb
  by_cases hascii : c.toNat ≤ 127
  · rw [Text.utf8EncodeChar_ascii hascii, List.mem_singleton] at hb
    have hcode : b.toNat = c.toNat := by
      rw [hb, UInt8.toNat_ofNat']
      omega
    have hne : ∀ d : Char, c ≠ d → d.toNat ≤ 127 → b ≠ UInt8.ofNat d.toNat := by
      intro d hd hlow hsame
      refine hd (Char.toNat_inj.1 ?_)
      rw [← hcode, hsame, UInt8.toNat_ofNat']
      omega
    obtain ⟨h₁, h₂, h₃, h₄, h₅, h₆, h₇⟩ := (isTokenChar_iff c).1 h
    exact (isTokenByte_iff b).2 ⟨hne _ h₁ (by decide), hne _ h₂ (by decide), hne _ h₃ (by decide),
      hne _ h₄ (by decide), hne _ h₅ (by decide), hne _ h₆ (by decide), hne _ h₇ (by decide)⟩
  · have hhigh := Text.utf8EncodeChar_high hascii b hb
    have hne : ∀ d : UInt8, d.toNat ≤ 127 → b ≠ d := by
      rintro d hd rfl
      omega
    exact (isTokenByte_iff b).2 ⟨hne _ (by decide), hne _ (by decide), hne _ (by decide),
      hne _ (by decide), hne _ (by decide), hne _ (by decide), hne _ (by decide)⟩

theorem isTokenByte_utf8 {cs : List Char} (h : cs.all isTokenChar = true) :
    ∀ b ∈ Text.utf8 cs, isTokenByte b = true := by
  intro b hb
  obtain ⟨c, hc, hb⟩ := List.mem_flatMap.1 hb
  exact isTokenByte_of_mem (List.all_eq_true.1 h c hc) b hb

theorem inline_of_token {b : UInt8} (h : isTokenByte b = true) : b ≠ 10 :=
  ((isTokenByte_iff b).1 h).2.2.2.2.2.2

theorem reads_key {bytes : Bytes} (h : ∀ b ∈ bytes, isTokenByte b = true) (token : Bytes) :
    Reads (key token) bytes (key (bytes.reverse ++ token)) := by
  induction bytes generalizing token with
  | nil => exact .done _
  | cons b bytes ih =>
    have hb := h b (List.mem_cons_self ..)
    have hcolon := ((isTokenByte_iff b).1 hb).2.1
    have hrest := ih (fun b hb => h b (List.mem_cons_of_mem _ hb)) (b :: token)
    rw [List.reverse_cons, List.append_assoc]
    exact .next (inline_of_token hb) (by simp [step, hb, hcolon]) hrest

theorem reads_scalar {bytes : Bytes} (h : ∀ b ∈ bytes, isTokenByte b = true) (empty : Bool) :
    Reads (value empty) bytes (value (empty && bytes.isEmpty)) := by
  induction bytes generalizing empty with
  | nil =>
    rw [List.isEmpty_nil, Bool.and_true]
    exact .done _
  | cons b bytes ih =>
    have hb := h b (List.mem_cons_self ..)
    have hcomma := ((isTokenByte_iff b).1 hb).1
    have hbracket := ((isTokenByte_iff b).1 hb).2.2.1
    have hrest := ih (fun b hb => h b (List.mem_cons_of_mem _ hb)) false
    rw [List.isEmpty_cons, Bool.and_false]
    exact .next (inline_of_token hb) (by simp [step, hb, hcomma, hbracket]) hrest

theorem reads_array {bytes : Bytes} (h : ∀ b ∈ bytes, b = 44 ∨ isTokenByte b = true) :
    Reads array bytes array := by
  induction bytes with
  | nil => exact .done _
  | cons b bytes ih =>
    have hrest := ih fun b hb => h b (List.mem_cons_of_mem _ hb)
    obtain rfl | hb := h b (List.mem_cons_self ..)
    · exact .next (by decide) rfl hrest
    · have hbracket := ((isTokenByte_iff b).1 hb).2.2.2.1
      exact .next (inline_of_token hb) (by simp [step, hb, hbracket]) hrest

theorem name_token (k : Key) : k.name.toList.all isTokenChar = true ∧ k.name.toList ≠ [] := by
  cases k <;> decide

theorem ofToken?_eq {token : List Char} {k : Key} (h : token.map Char.toUpper = k.name.toList) :
    Key.ofToken? token = some k := by
  rw [Key.ofToken?, h]
  cases k <;> decide

theorem ofToken?_some {token : List Char} {k : Key} (h : Key.ofToken? token = some k) :
    token.map Char.toUpper = k.name.toList := by
  rw [Key.ofToken?] at h
  have hfound := List.find?_some h
  exact (beq_iff_eq.1 hfound).symm

theorem isTokenChar_of_toUpper {c : Char} (h : isTokenChar c.toUpper = true) :
    isTokenChar c = true := by
  rw [← Bool.not_eq_false]
  intro hc
  obtain rfl | rfl | rfl | rfl | rfl | rfl | rfl := reserved_cases hc <;> cases h

theorem token_inline (i : Item) : i.token.all isTokenChar = true ∧ i.token ≠ [] := by
  obtain ⟨hall, hne⟩ := name_token i.key
  rw [← i.names, List.all_map, List.all_eq_true] at hall
  refine ⟨List.all_eq_true.2 fun c hc => isTokenChar_of_toUpper (hall c hc), fun hnil => hne ?_⟩
  rw [← i.names, hnil, List.map_nil]

theorem keyOfBytes?_token (i : Item) : keyOfBytes? (Text.utf8 i.token) = some i.key := by
  rw [keyOfBytes?, Text.decode?_utf8, Option.bind_some, String.toList_ofList, ofToken?_eq i.names]

theorem reads_keyStart {bytes : Bytes} (h : ∀ b ∈ bytes, isTokenByte b = true) (hne : bytes ≠ []) :
    Reads keyStart bytes (key bytes.reverse) := by
  cases bytes with
  | nil => exact absurd rfl hne
  | cons b bytes =>
    have hb := h b (List.mem_cons_self ..)
    have hrest := reads_key (fun b hb => h b (List.mem_cons_of_mem _ hb)) [b]
    rw [List.reverse_cons]
    exact .next (inline_of_token hb) (by simp [step, hb]) hrest

theorem reads_token (i : Item) :
    Reads keyStart (Text.utf8 (i.token ++ [':'])) (value true) := by
  obtain ⟨htoken, hsome⟩ := token_inline i
  have hcolon : Text.utf8 [':'] = [58] := by decide
  have hne : Text.utf8 i.token ≠ [] := fun hnil => hsome (Text.utf8_eq_nil hnil)
  have hend : Lex.step 58 (key (Text.utf8 i.token).reverse) = .ok (value true) := by
    simp [step, keyOfBytes?_token]
  rw [Text.utf8_append, hcolon]
  exact (reads_keyStart (isTokenByte_utf8 htoken) hne).append (.one (by decide) hend)

theorem mem_intercalate_comma {c : Char} {pieces : List (List Char)}
    (h : c ∈ List.intercalate [','] pieces) : c = ',' ∨ ∃ piece ∈ pieces, c ∈ piece := by
  induction pieces with
  | nil => cases h
  | cons piece pieces ih =>
    cases pieces with
    | nil => exact .inr ⟨piece, List.mem_cons_self .., by simpa using h⟩
    | cons next pieces =>
      rw [List.intercalate_cons_cons, List.mem_append, List.mem_append, List.mem_singleton] at h
      obtain (h | h) | h := h
      · exact .inr ⟨piece, List.mem_cons_self .., h⟩
      · exact .inl h
      · exact (ih h).imp_right fun ⟨piece', hmem, hc⟩ => ⟨piece', List.mem_cons_of_mem _ hmem, hc⟩

theorem reads_text {v : Value} (h : v.isWritable = true) :
    ∃ final, Reads (value true) (Text.utf8 v.text) final ∧ final.Closed := by
  cases v with
  | scalar text => exact ⟨_, reads_scalar (isTokenByte_utf8 h) true, trivial⟩
  | array elements =>
    have hinner : ∀ b ∈ Text.utf8 (List.intercalate [','] (elements.map String.toList)),
        b = 44 ∨ isTokenByte b = true := by
      intro b hb
      obtain ⟨c, hc, hb⟩ := List.mem_flatMap.1 hb
      obtain rfl | ⟨piece, hpiece, hc⟩ := mem_intercalate_comma hc
      · exact .inl (List.mem_singleton.1 hb)
      · obtain ⟨text, htext, rfl⟩ := List.mem_map.1 hpiece
        have hwritable := List.all_eq_true.1 h text htext
        rw [Bool.and_eq_true] at hwritable
        exact .inr (isTokenByte_of_mem (List.all_eq_true.1 hwritable.2 c hc) b hb)
    have hopen : Text.utf8 ['['] = [91] := by decide
    have hclose : Text.utf8 [']'] = [93] := by decide
    have hsplit : (Value.array elements).text =
        ['['] ++ List.intercalate [','] (elements.map String.toList) ++ [']'] := rfl
    rw [hsplit, Text.utf8_append, Text.utf8_append, hopen, hclose]
    exact ⟨arrayEnd, ((Reads.one (by decide) rfl).append (reads_array hinner)).append
      (.one (by decide) rfl), trivial⟩

theorem reads_item {i : Item} (h : i.value.isWritable = true) :
    ∃ final, Reads keyStart (Text.utf8 i.text) final ∧ final.Closed := by
  obtain ⟨final, htext, hclosed⟩ := reads_text h
  have hsplit : i.text = (i.token ++ [':']) ++ i.value.text := by
    simp [Item.text]
  rw [hsplit, Text.utf8_append]
  exact ⟨final, (reads_token i).append htext, hclosed⟩

theorem reads_items {items : List Item} (hne : items ≠ [])
    (h : ∀ i ∈ items, i.value.isWritable = true) :
    ∃ final, Reads keyStart (Text.utf8 (List.intercalate [','] (items.map Item.text))) final ∧
      final.Closed := by
  induction items with
  | nil => exact absurd rfl hne
  | cons i items ih =>
    obtain ⟨mid, hitem, hmid⟩ := reads_item (h i (List.mem_cons_self ..))
    cases items with
    | nil => exact ⟨mid, by simpa using hitem, hmid⟩
    | cons i' items =>
      obtain ⟨final, hrest, hfinal⟩ :=
        ih (List.cons_ne_nil _ _) fun i hi => h i (List.mem_cons_of_mem _ hi)
      have hcomma : Text.utf8 [','] = [44] := by decide
      rw [List.map_cons, List.map_cons, List.intercalate_cons_cons, Text.utf8_append,
        Text.utf8_append, hcomma]
      exact ⟨final, (hitem.append (.one (by decide) hmid.comma)).append hrest, hfinal⟩

end Lex
end JobBroker
