import JobBroker.Proofs.Packet.Grammar
import Mathlib.Data.List.Chain

/-! Empty elements as they show in the bytes of a header: a comma next to an opening bracket or to
another comma, or a closing bracket next to a comma. A header that the lexer has read to its end is
refused for these, or for not being text, and for nothing else. -/
namespace JobBroker

namespace Header

/-- Whether an element between these two bytes is empty. -/
def isGap (a b : UInt8) : Bool := (a == 44 && (b == 44 || b == 93)) || (a == 91 && b == 44)

def Filled (text : Bytes) : Prop := text.IsChain fun a b => isGap a b = false

instance (text : Bytes) : Decidable (Filled text) :=
  inferInstanceAs (Decidable (text.IsChain fun a b => isGap a b = false))

theorem isGap_right {b : UInt8} (a : UInt8) (h : b ≠ 44) (h' : b ≠ 93) : isGap a b = false := by
  simp [isGap, h, h']

theorem isGap_left {a : UInt8} (b : UInt8) (h : a ≠ 44) (h' : a ≠ 91) : isGap a b = false := by
  simp [isGap, h, h']

theorem isGap_close {a : UInt8} (h : a ≠ 44) : isGap a 93 = false := by
  simp [isGap, h]

theorem Filled.append {text bytes : Bytes} (h : Filled text) (hb : ∀ b ∈ bytes, b ≠ 44 ∧ b ≠ 93) :
    Filled (text ++ bytes) := by
  induction bytes generalizing text with
  | nil => rwa [List.append_nil]
  | cons b bytes ih =>
    obtain ⟨hcomma, hclose⟩ := hb b (List.mem_cons_self ..)
    have hone : Filled (text ++ [b]) := by
      refine List.IsChain.append h (List.isChain_singleton b) fun a _ b' hb' => ?_
      rw [List.head?_cons, Option.mem_some_iff] at hb'
      subst hb'
      exact isGap_right a hcomma hclose
    rw [← List.singleton_append, ← List.append_assoc]
    exact ih hone fun b hb' => hb b (List.mem_cons_of_mem _ hb')

theorem Filled.concat {text : Bytes} (h : Filled text) {b : UInt8}
    (hlast : ∀ a ∈ text.getLast?, isGap a b = false) : Filled (text ++ [b]) := by
  refine List.IsChain.append h (List.isChain_singleton b) fun a ha b' hb' => ?_
  rw [List.head?_cons, Option.mem_some_iff] at hb'
  subst hb'
  exact hlast a ha

theorem filled_split {front back : Bytes} {b : UInt8} :
    Filled (front ++ b :: back) ↔ Filled (front ++ [b]) ∧ Filled (b :: back) :=
  List.isChain_split

theorem Filled.colon {text : Bytes} (h : Filled text) : Filled (text ++ [58]) :=
  h.append fun b hb => by
    rw [List.mem_singleton.1 hb]
    decide

theorem filled_cons {a : UInt8} {text : Bytes} (h : ∀ b ∈ text.head?, isGap a b = false) :
    Filled (a :: text) ↔ Filled text := by
  rw [Filled, List.isChain_cons]
  exact and_iff_right h

theorem plain_of_tokens {bytes : Bytes} (h : ∀ b ∈ bytes, Lex.isTokenByte b = true) :
    ∀ b ∈ bytes, b ≠ 44 ∧ b ≠ 93 := by
  intro b hb
  obtain ⟨hcomma, -, -, hclose, -⟩ := (Lex.isTokenByte_iff b).1 (h b hb)
  exact ⟨hcomma, hclose⟩

theorem filled_of_tokens {bytes : Bytes} (h : ∀ b ∈ bytes, Lex.isTokenByte b = true) :
    Filled bytes :=
  Filled.append List.isChain_nil (plain_of_tokens h)

theorem filled_token {bytes : Bytes} (h : ∀ b ∈ bytes, Lex.isTokenByte b = true) (hne : bytes ≠ [])
    (a b : UInt8) (rest : Bytes) : Filled (a :: (bytes ++ b :: rest)) ↔ Filled (b :: rest) := by
  have hfront : Filled (a :: bytes) :=
    Filled.append (List.isChain_singleton a) (plain_of_tokens h)
  have hjoint : Filled (a :: bytes ++ [b]) := by
    refine hfront.concat fun c hc => ?_
    rw [List.getLast?_cons, List.getLast?_eq_some_getLast hne] at hc
    obtain rfl : bytes.getLast hne = c := Option.mem_some_iff.1 hc
    obtain ⟨hcomma, -, hopen, -⟩ :=
      (Lex.isTokenByte_iff _).1 (h _ (List.getLast_mem hne))
    exact isGap_left b hcomma hopen
  rw [← List.cons_append, filled_split]
  exact and_iff_right hjoint

theorem filled_elements {elements : List String}
    (hinline : (Value.array elements).isInline = true) (hne : elements ≠ []) {a : UInt8}
    (ha : a = 44 ∨ (a = 91 ∧ elements ≠ [""])) :
    Filled (a :: (Text.utf8 (List.intercalate [','] (elements.map String.toList)) ++ [93])) ↔
      (elements.all fun text => !text.isEmpty) = true := by
  induction elements generalizing a with
  | nil => exact absurd rfl hne
  | cons text elements ih =>
    have htokens : ∀ b ∈ Text.utf8 text.toList, Lex.isTokenByte b = true :=
      Lex.isTokenByte_utf8 (element_inline hinline (List.mem_cons_self ..))
    have hcomma : Text.utf8 [','] = [44] := by decide
    cases elements with
    | nil =>
      by_cases hempty : text = ""
      · obtain rfl | ⟨-, hlone⟩ := ha
        · subst hempty
          decide
        · exact absurd (by rw [hempty]) hlone
      · have hbytes : Text.utf8 text.toList ≠ [] := fun hnil =>
          hempty (String.toList_inj.1 (Text.utf8_eq_nil hnil))
        have hclose := filled_token htokens hbytes a 93 []
        have hlast : Filled [93] := List.isChain_singleton 93
        simpa [hempty] using hclose.2 hlast
    | cons next elements =>
      have hrest : (Value.array (next :: elements)).isInline = true := by
        rw [Value.isInline, List.all_cons, Bool.and_eq_true] at hinline
        exact hinline.2
      rw [List.map_cons, List.map_cons, List.intercalate_cons_cons, Text.utf8_append,
        Text.utf8_append, hcomma, List.append_assoc, List.append_assoc, List.singleton_append,
        List.all_cons]
      by_cases hempty : text = ""
      · have hgap : isGap a 44 = true := by
          obtain rfl | ⟨rfl, -⟩ := ha <;> decide
        subst hempty
        simp [Filled, Text.utf8, hgap]
      · have hbytes : Text.utf8 text.toList ≠ [] := fun hnil =>
          hempty (String.toList_inj.1 (Text.utf8_eq_nil hnil))
        have hmore := ih hrest (List.cons_ne_nil _ _) (.inl rfl)
        rw [List.map_cons] at hmore
        rw [filled_token htokens hbytes, hmore]
        simp [hempty]

theorem filled_value {v : Value} (h : v.Plain) :
    Filled (Text.utf8 v.text) ↔ v.isWritable = true := by
  cases v with
  | scalar text =>
    have hwritable : (Value.scalar text).isWritable = true := h.inline
    exact iff_of_true (filled_of_tokens (Lex.isTokenByte_utf8 h.inline)) hwritable
  | array elements =>
    by_cases hne : elements = []
    · subst hne
      decide
    · have hspelled : Text.utf8 (Value.array elements).text =
          91 :: (Text.utf8 (List.intercalate [','] (elements.map String.toList)) ++ [93]) := by
        have hopen : Text.utf8 ['['] = [91] := by decide
        have hclose : Text.utf8 [']'] = [93] := by decide
        have hsplit : (Value.array elements).text =
            ['['] ++ List.intercalate [','] (elements.map String.toList) ++ [']'] := rfl
        rw [hsplit, Text.utf8_append, Text.utf8_append, hopen, hclose]
        rfl
      have hlone : elements ≠ [""] := by
        rintro rfl
        exact h.spoken rfl
      rw [hspelled, filled_elements h.inline hne (.inr ⟨rfl, hlone⟩), Value.isWritable_array,
        h.inline, Bool.true_and]

end Header

namespace Item
variable {i : Item}

theorem utf8_text (i : Item) :
    Text.utf8 i.text = Text.utf8 i.token ++ 58 :: Text.utf8 i.value.text := by
  have hcolon : String.utf8EncodeChar ':' = [58] := by decide
  rw [text, Text.utf8_append, Text.utf8_cons, hcolon]
  rfl

theorem head_text (i : Item) : ∀ b ∈ (Text.utf8 i.text).head?, Lex.isTokenByte b = true := by
  intro b hb
  obtain ⟨htoken, hsome⟩ := Lex.token_inline i
  have hbytes : Text.utf8 i.token ≠ [] := fun hnil => hsome (Text.utf8_eq_nil hnil)
  rw [utf8_text, List.head?_append, List.head?_eq_some_head hbytes, Option.some_or,
    Option.mem_some_iff] at hb
  rw [← hb]
  exact Lex.isTokenByte_utf8 htoken _ (List.head_mem hbytes)

theorem last_text (h : i.value.Plain) :
    ∀ b ∈ (Text.utf8 i.text).getLast?, b ≠ 44 ∧ b ≠ 91 := by
  intro b hb
  rw [utf8_text, List.getLast?_append, List.getLast?_cons] at hb
  obtain rfl : (Text.utf8 i.value.text).getLast?.getD 58 = b := by simpa using hb
  cases hv : i.value with
  | scalar text =>
    rw [hv] at h
    cases hlast : (Text.utf8 (Value.scalar text).text).getLast? with
    | none => decide
    | some b =>
      have hmem : b ∈ Text.utf8 text.toList := List.mem_of_getLast? hlast
      obtain ⟨hcomma, -, hopen, -⟩ :=
        (Lex.isTokenByte_iff b).1 (Lex.isTokenByte_utf8 h.inline b hmem)
      exact ⟨hcomma, hopen⟩
  | array elements =>
    have hclose : Text.utf8 [']'] = [93] := by decide
    have hsplit : (Value.array elements).text =
        ('[' :: List.intercalate [','] (elements.map String.toList)) ++ [']'] := rfl
    rw [hsplit, Text.utf8_append, hclose, List.getLast?_concat]
    decide

theorem filled_text (h : i.value.Plain) :
    Header.Filled (Text.utf8 i.text) ↔ i.value.isWritable = true := by
  have htoken : Header.Filled (Text.utf8 i.token) :=
    Header.filled_of_tokens (Lex.isTokenByte_utf8 (Lex.token_inline i).1)
  rw [utf8_text, Header.filled_split, and_iff_right htoken.colon, ← Header.filled_value h]
  exact Header.filled_cons fun b _ => Header.isGap_left b (by decide) (by decide)

/-- On the bytes of a header the empty elements of all its items show. -/
theorem filled_header {items : List Item} (h : ∀ i ∈ items, i.value.Plain) :
    Header.Filled (Text.utf8 (List.intercalate [','] (items.map Item.text))) ↔
      ∀ i ∈ items, i.value.isWritable = true := by
  induction items with
  | nil => exact iff_of_true List.isChain_nil (by simp)
  | cons i items ih =>
    have hi := h i (List.mem_cons_self ..)
    have hrest := ih fun i hi => h i (List.mem_cons_of_mem _ hi)
    cases items with
    | nil => simpa using filled_text hi
    | cons next items =>
      have hcomma : Text.utf8 [','] = [44] := by decide
      have hfront : Header.Filled (Text.utf8 i.text ++ [44]) ↔ i.value.isWritable = true := by
        rw [← filled_text hi]
        refine ⟨List.IsChain.left_of_append, fun hfilled => hfilled.concat fun b hb => ?_⟩
        obtain ⟨hne, hne'⟩ := last_text hi b hb
        exact Header.isGap_left 44 hne hne'
      have hhead : ∀ b ∈ (Text.utf8 (List.intercalate [','] ((next :: items).map text))).head?,
          Header.isGap 44 b = false := by
        intro b hb
        obtain ⟨more, hmore⟩ : ∃ more,
            List.intercalate [','] ((next :: items).map text) = next.text ++ more := by
          cases items with
          | nil => exact ⟨[], by simp⟩
          | cons i' items =>
            rw [List.map_cons, List.map_cons, List.intercalate_cons_cons, List.append_assoc]
            exact ⟨_, rfl⟩
        have hsome : Text.utf8 next.text ≠ [] := by simp [utf8_text]
        rw [hmore, Text.utf8_append, List.head?_append, List.head?_eq_some_head hsome,
          Option.some_or] at hb
        have htoken := head_text next b (by rwa [List.head?_eq_some_head hsome])
        obtain ⟨hne, -, -, hne', -⟩ := (Lex.isTokenByte_iff b).1 htoken
        exact Header.isGap_right 44 hne hne'
      rw [List.map_cons, List.map_cons, List.intercalate_cons_cons, Text.utf8_append,
        Text.utf8_append, hcomma, List.append_assoc, List.singleton_append, Header.filled_split,
        List.forall_mem_cons]
      refine and_congr hfront ?_
      rw [← hrest, ← List.map_cons]
      exact Header.filled_cons hhead

end Item

namespace Decoder

/-- A header that the lexer has read to its end is accepted if it is text and no element is empty.
-/
theorem finish_ok_iff {header : Bytes} {final : Lex} (message : Bytes)
    (hreads : Lex.Reads .keyStart header final) (hend : final.mayEnd header.reverse = true) :
    (∃ p, finish header.reverse message = .ok p) ↔ Text.IsUtf8 header ∧ Header.Filled header := by
  constructor
  · rintro ⟨p, hp⟩
    obtain ⟨cs, args, hcs, hparse, -⟩ := finish_ok hp
    rw [List.reverse_reverse] at hcs
    subst hcs
    obtain ⟨items, rfl, hplain⟩ := Spelling.items_of_header hreads hend
    refine ⟨⟨_, rfl⟩, (Item.filled_header hplain).2 fun i hi => ?_⟩
    exact (Value.isWritable_iff i.value).2 (Spelling.clean_of_parse hplain hparse i hi)
  · rintro ⟨⟨cs, rfl⟩, hfilled⟩
    obtain ⟨items, rfl, hplain⟩ := Spelling.items_of_header hreads hend
    have hwritable := (Item.filled_header hplain).1 hfilled
    have hupper : ∀ kv ∈ items.map Item.entry, kv.2.isWritable = true := by
      intro kv hkv
      obtain ⟨i, hi, rfl⟩ := List.mem_map.1 hkv
      rw [Item.entry, Value.isWritable_upper, hwritable i hi]
    have hparse := Header.parse_written hupper
    rw [Item.header_entry] at hparse
    rw [finish, List.reverse_reverse, Text.decode?_utf8]
    simp only [String.toList_ofList, hparse]
    exact ⟨_, rfl⟩

end Decoder

end JobBroker
