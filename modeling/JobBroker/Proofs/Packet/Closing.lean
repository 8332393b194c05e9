import JobBroker.Proofs.Packet.Elements

/-! How a header that has come in part can end well, and what room that takes: the rest of a
character, the rest of a key, an element behind a comma, a closing bracket, and the newline. -/
namespace JobBroker

namespace Text

def Lacks (text : Bytes) (n : Nat) : Prop :=
  ∃ bytes : Bytes, bytes.length = n ∧ (∀ b ∈ bytes, 128 ≤ b.toNat) ∧ IsUtf8 (text ++ bytes)

theorem lacks_zero {text : Bytes} : Lacks text 0 ↔ IsUtf8 text := by
  constructor
  · rintro ⟨bytes, hlength, -, htext⟩
    rwa [List.length_eq_zero_iff.1 hlength, List.append_nil] at htext
  · intro htext
    exact ⟨[], rfl, List.forall_mem_nil _, by rwa [List.append_nil]⟩

theorem IsUtf8.lacks {text more : Bytes} (h : IsUtf8 (text ++ more)) :
    ∃ bytes later, more = bytes ++ later ∧ (∀ b ∈ bytes, 128 ≤ b.toNat) ∧
      Lacks text bytes.length := by
  obtain ⟨cs, hcs⟩ := h
  obtain ⟨bytes, later, hmore, hhigh, htext, -, -⟩ := utf8_split hcs.symm
  exact ⟨bytes, later, hmore, hhigh, bytes, rfl, hhigh, htext⟩

end Text

namespace Lex

theorem tokens_of_high {bytes : Bytes} (h : ∀ b ∈ bytes, 128 ≤ b.toNat) :
    ∀ b ∈ bytes, isTokenByte b = true := by
  intro b hb
  have hhigh := h b hb
  refine (isTokenByte_iff b).2 ⟨?_, ?_, ?_, ?_, ?_, ?_, ?_⟩ <;>
    · rintro rfl
      exact absurd hhigh (by decide)

inductive Takes : Lex → UInt8 → Lex → Prop
  | begins {b : UInt8} (token : isTokenByte b = true) : Takes keyStart b (key [b])
  | goesOn {read : Bytes} {b : UInt8} (token : isTokenByte b = true) :
    Takes (key read) b (key (b :: read))
  | keyEnds (read : Bytes) : Takes (key read) 58 (value true)
  | scalar (empty : Bool) (b : UInt8) : Takes (value empty) b (value false)
  | valueEnds (empty : Bool) : Takes (value empty) 44 keyStart
  | opens : Takes (value true) 91 array
  | element {b : UInt8} (inside : b ≠ 93) : Takes array b array
  | closes : Takes array 93 arrayEnd
  | arrayEnds : Takes arrayEnd 44 keyStart

theorem takes_of_step {lex next : Lex} {b : UInt8} (h : lex.step b = .ok next) :
    Takes lex b next := by
  cases lex with
  | keyStart =>
    rw [step] at h
    split at h <;> cases h
    exact .begins ‹_›
  | key read =>
    rw [step] at h
    split at h
    · rename_i hcolon
      obtain rfl := beq_iff_eq.1 hcolon
      split at h <;> cases h
      exact .keyEnds read
    · split at h <;> cases h
      exact .goesOn ‹_›
  | value empty =>
    rw [step] at h
    split at h
    · rename_i hcomma
      obtain rfl := beq_iff_eq.1 hcomma
      cases h
      exact .valueEnds empty
    split at h
    · rename_i hopen
      obtain ⟨rfl, hbracket⟩ := Bool.and_eq_true_iff.1 hopen
      obtain rfl := beq_iff_eq.1 hbracket
      cases h
      exact .opens
    · split at h <;> cases h
      exact .scalar empty b
  | array =>
    rw [step] at h
    split at h
    · rename_i hclose
      obtain rfl := beq_iff_eq.1 hclose
      cases h
      exact .closes
    · rename_i hinside
      split at h <;> cases h
      exact .element fun hclose => hinside (beq_iff_eq.2 hclose)
  | arrayEnd =>
    rw [step] at h
    split at h <;> cases h
    rename_i hcomma
    obtain rfl := beq_iff_eq.1 hcomma
    exact .arrayEnds

def AtItem (text : Bytes) : Prop := text = [] ∨ ∃ front, text = front ++ [44]

/-- What the place in a header says about the bytes in front of it. -/
def Trail (text : Bytes) : Lex → Prop
  | keyStart => AtItem text
  | key token => ∃ front, AtItem front ∧ text = front ++ token.reverse ∧ token ≠ [] ∧
      ∀ b ∈ token.reverse, isTokenByte b = true
  | value _ | array => True
  | arrayEnd => ∃ front, text = front ++ [93]

theorem Trail.step {lex next : Lex} {text : Bytes} {b : UInt8} (h : lex.Trail text)
    (hstep : lex.step b = .ok next) : next.Trail (text ++ [b]) := by
  cases takes_of_step hstep with
  | begins token => exact ⟨text, h, rfl, List.cons_ne_nil _ _, by simpa⟩
  | goesOn token =>
    obtain ⟨front, hfront, rfl, -, htoken⟩ := h
    refine ⟨front, hfront, by simp, List.cons_ne_nil _ _, ?_⟩
    rw [List.reverse_cons, List.forall_mem_append]
    exact ⟨htoken, by simpa⟩
  | keyEnds | scalar | opens | element => trivial
  | valueEnds | arrayEnds => exact .inr ⟨text, rfl⟩
  | closes => exact ⟨text, rfl⟩

theorem Reads.trail {lex final : Lex} {text bytes : Bytes} (h : lex.Reads bytes final)
    (htrail : lex.Trail text) : final.Trail (text ++ bytes) := by
  induction h generalizing text with
  | done => rwa [List.append_nil]
  | next _ takes _ ih =>
    rw [← List.singleton_append, ← List.append_assoc]
    exact ih (htrail.step takes)

/-- The token completes to the name of the key by these characters, in capitals. -/
def OpensKey (token : Bytes) (k : Key) (rest : List Char) : Prop :=
  ∃ chars, token = Text.utf8 chars ∧ chars.map Char.toUpper ++ rest = k.name.toList

/-- Whether a header whose bytes so far are `text` can still end well within `room` bytes, its
newline among them. -/
def Closable (room : Nat) (text : Bytes) : Lex → Prop
  | keyStart => (text = [] ∧ 1 ≤ room) ∨ (Text.IsUtf8 text ∧ Header.Filled text ∧ 8 ≤ room)
  | key token => Text.IsUtf8 text ∧ Header.Filled text ∧
      ∃ k rest, OpensKey token.reverse k rest ∧ rest.length + 2 ≤ room
  | value _ => Header.Filled text ∧ ∃ n, Text.Lacks text n ∧ n + 1 ≤ room
  | array => Header.Filled text ∧ (text.getLast? = some 44 → 3 ≤ room) ∧
      ∃ n, Text.Lacks text n ∧ n + 2 ≤ room
  | arrayEnd => Text.IsUtf8 text ∧ Header.Filled text ∧ 1 ≤ room

/-- Whether `rest` takes a header whose bytes so far are `text` to a good end. -/
structure Completes (lex : Lex) (text rest : Bytes) : Prop where
  reads : ∃ final, lex.Reads rest final ∧ final.mayEnd (text ++ rest).reverse = true
  utf8 : Text.IsUtf8 (text ++ rest)
  filled : Header.Filled (text ++ rest)

namespace Completes
variable {text rest : Bytes}

theorem closed {lex : Lex} (h : lex.Completes text rest) (hsome : text ++ rest ≠ []) :
    ∃ final, lex.Reads rest final ∧ final.Closed := by
  obtain ⟨final, hreads, hend⟩ := h.reads
  refine ⟨final, hreads, ?_⟩
  cases final with
  | keyStart =>
    rw [mayEnd, List.isEmpty_iff, List.reverse_eq_nil_iff] at hend
    exact absurd hend hsome
  | value | arrayEnd => trivial
  | key | array => cases hend

theorem filled_left {lex : Lex} (h : lex.Completes text rest) : Header.Filled text :=
  List.IsChain.left_of_append h.filled

theorem of_keyStart (h : keyStart.Completes text rest) (htext : AtItem text) (hsome : text ≠ []) :
    Text.IsUtf8 text ∧ Header.Filled text ∧ 7 ≤ rest.length := by
  obtain rfl | ⟨front, rfl⟩ := htext
  · exact absurd rfl hsome
  · obtain ⟨final, hreads, hclosed⟩ := h.closed (by simp)
    have hutf8 := h.utf8
    rw [List.append_assoc, List.singleton_append] at hutf8
    obtain ⟨hfront, cs, rfl⟩ := hutf8.cut (by decide)
    obtain ⟨token, k, text, hnames, rfl, -⟩ := token_of_reads hreads hclosed
    have hname : 6 ≤ k.name.toList.length := by
      cases k <;> decide
    have hlong := Text.length_le_utf8 (token ++ ':' :: text)
    rw [← hnames, List.length_map] at hname
    rw [List.length_append, List.length_cons] at hlong
    exact ⟨hfront, h.filled_left, by omega⟩

end Completes

theorem name_ascii (k : Key) : ∀ c ∈ k.name.toList, c.toNat ≤ 127 := by
  have hall : (k.name.toList.all fun c => decide (c.toNat ≤ 127)) = true := by
    cases k <;> decide
  simpa using hall

theorem ascii_of_names {token : List Char} {k : Key} (h : token.map Char.toUpper = k.name.toList) :
    ∀ c ∈ token, c.toNat ≤ 127 := by
  intro c hc
  have hupper : c.toUpper.toNat ≤ 127 := by
    apply name_ascii k
    rw [← h]
    exact List.mem_map_of_mem hc
  obtain ⟨-, hsame⟩ | ⟨-, hlast, -⟩ := toUpper_cases c
  · rwa [hsame] at hupper
  · omega

theorem opensKey_of_prefix {token more text : Bytes} {chars : List Char} {k : Key}
    (hnames : chars.map Char.toUpper = k.name.toList)
    (hsplit : token ++ more = Text.utf8 chars ++ 58 :: text) (hcolon : 58 ∉ token) :
    ∃ rest, OpensKey token k rest ∧ rest.length + 1 ≤ more.length := by
  have hascii := ascii_of_names hnames
  obtain ⟨back, hchars, rfl⟩ | ⟨back, rfl, hmore⟩ := List.append_eq_append_iff.1 hsplit
  · rw [Text.utf8_ascii hascii] at hchars
    obtain ⟨front, rest, rfl, rfl, rfl⟩ := List.map_eq_append_iff.1 hchars
    have hfront : ∀ c ∈ front, c.toNat ≤ 127 := fun c hc => hascii c (List.mem_append_left _ hc)
    rw [List.map_append] at hnames
    refine ⟨rest.map Char.toUpper, ⟨front, (Text.utf8_ascii hfront).symm, hnames⟩, ?_⟩
    simp only [List.length_append, List.length_map, List.length_cons]
    omega
  · cases back with
    | nil =>
      rw [List.append_nil]
      refine ⟨[], ⟨chars, rfl, by rwa [List.append_nil]⟩, ?_⟩
      rw [List.nil_append] at hmore
      rw [← hmore, List.length_cons, List.length_nil]
      omega
    | cons b back =>
      rw [List.cons_append, List.cons.injEq] at hmore
      obtain ⟨rfl, -⟩ := hmore
      exact absurd (List.mem_append_right _ (List.mem_cons_self ..)) hcolon

/-! What a header that ends well has room for. -/

theorem AtItem.cut {front rest : Bytes} (h : AtItem front) (htext : Text.IsUtf8 (front ++ rest)) :
    Text.IsUtf8 front ∧ Text.IsUtf8 rest := by
  obtain rfl | ⟨front, rfl⟩ := h
  · exact ⟨⟨[], rfl⟩, htext⟩
  · rw [List.append_assoc, List.singleton_append] at htext
    exact htext.cut (by decide)

namespace Completes
variable {text rest : Bytes} {room : Nat}

theorem closable_key {token : Bytes} (h : (key token).Completes text rest)
    (htrail : (key token).Trail text) (hroom : rest.length + 1 ≤ room) :
    (key token).Closable room text := by
  obtain ⟨front, hfront, rfl, hsome, htoken⟩ := htrail
  have hbytes : token.reverse ≠ [] := fun hnil => hsome (List.reverse_eq_nil_iff.1 hnil)
  obtain ⟨final, hreads, hclosed⟩ := h.closed (by simp [hsome])
  have hutf8 := h.utf8
  rw [List.append_assoc] at hutf8
  obtain ⟨hbefore, cs, hcs⟩ := hfront.cut hutf8
  have hitem := reads_keyStart htoken hbytes
  rw [List.reverse_reverse] at hitem
  have hall := hitem.append hreads
  rw [hcs] at hall
  obtain ⟨chars, k, value, hnames, rfl, -⟩ := token_of_reads hall hclosed
  have hcolon : 58 ∉ token.reverse := fun hmem => ((isTokenByte_iff 58).1 (htoken 58 hmem)).2.1 rfl
  have hbyte : String.utf8EncodeChar ':' = [58] := by decide
  rw [Text.utf8_append, Text.utf8_cons, hbyte, List.singleton_append] at hcs
  obtain ⟨more, hopens, hlength⟩ := opensKey_of_prefix hnames hcs hcolon
  have hkey : Text.IsUtf8 token.reverse := hopens.imp fun _ hchars => hchars.1
  exact ⟨hbefore.append hkey, h.filled_left, k, more, hopens, by omega⟩

theorem closable_array (h : array.Completes text rest) (hroom : rest.length + 1 ≤ room) :
    array.Closable room text := by
  obtain ⟨final, hreads, hend⟩ := h.reads
  refine ⟨h.filled_left, fun hcomma => ?_, ?_⟩
  · -- Behind a comma comes first a byte of an element, and the bracket later.
    cases hreads with
    | done => cases hend
    | @next _ mid _ b bytes _ takes more =>
      obtain ⟨front, rfl⟩ := List.getLast?_eq_some_iff.1 hcomma
      have hfilled := h.filled
      rw [List.append_assoc, List.singleton_append, Header.filled_split] at hfilled
      have hgap : Header.isGap 44 b = false := (List.isChain_cons_cons.1 hfilled.2).1
      cases takes_of_step takes with
      | closes => cases hgap
      | element =>
        cases more with
        | done => cases hend
        | next =>
          simp only [List.length_cons] at hroom
          omega
  · obtain ⟨bytes, later, rfl, hhigh, hlacks⟩ := h.utf8.lacks
    refine ⟨bytes.length, hlacks, ?_⟩
    have hrest := (reads_array fun b hb => .inr (tokens_of_high hhigh b hb)).after hreads
    cases hrest with
    | done => cases hend
    | next =>
      simp only [List.length_append, List.length_cons] at hroom
      omega

theorem closable {lex : Lex} (h : lex.Completes text rest) (htrail : lex.Trail text)
    (hroom : rest.length + 1 ≤ room) : lex.Closable room text := by
  cases lex with
  | keyStart =>
    by_cases hnil : text = []
    · exact .inl ⟨hnil, by omega⟩
    · obtain ⟨hutf8, hfilled, hlength⟩ := h.of_keyStart htrail hnil
      exact .inr ⟨hutf8, hfilled, by omega⟩
  | key token => exact h.closable_key htrail hroom
  | value empty =>
    obtain ⟨bytes, later, rfl, -, hlacks⟩ := h.utf8.lacks
    refine ⟨h.filled_left, bytes.length, hlacks, ?_⟩
    rw [List.length_append] at hroom
    omega
  | array => exact h.closable_array hroom
  | arrayEnd =>
    obtain ⟨front, rfl⟩ := htrail
    have hutf8 := h.utf8
    rw [List.append_assoc, List.singleton_append] at hutf8
    exact ⟨(hutf8.cut (by decide)).1, h.filled_left, by omega⟩

end Completes

/-! How a header with that much room is taken to a good end. -/

theorem plain_of_high {bytes : Bytes} (h : ∀ b ∈ bytes, 128 ≤ b.toNat) :
    ∀ b ∈ bytes, b ≠ 44 ∧ b ≠ 93 :=
  Header.plain_of_tokens (tokens_of_high h)

theorem completes_item {text : Bytes} (hutf8 : Text.IsUtf8 text) (hfilled : Header.Filled text) :
    keyStart.Completes text (Text.utf8 (Key.jobId.name.toList ++ [':'])) where
  reads := ⟨_, reads_token (Item.written (.jobId, .scalar "")), rfl⟩
  utf8 := hutf8.append ⟨_, rfl⟩
  filled := by
    have htokens := isTokenByte_utf8 (name_token .jobId).1
    have hcolon : Text.utf8 [':'] = [58] := by decide
    rw [Text.utf8_append, hcolon, ← List.append_assoc]
    exact (hfilled.append (Header.plain_of_tokens htokens)).colon

theorem completes_key {token text : Bytes} {k : Key} {rest : List Char}
    (hopens : OpensKey token.reverse k rest) (hutf8 : Text.IsUtf8 text)
    (hfilled : Header.Filled text) :
    (key token).Completes text (Text.utf8 rest ++ [58]) := by
  obtain ⟨chars, hchars, hname⟩ := hopens
  have hcapitals : k.name.toList.map Char.toUpper = k.name.toList :=
    (Item.written (k, .scalar "")).names
  have hrest : rest.map Char.toUpper = rest := by
    rw [← hname, List.map_append] at hcapitals
    exact (List.append_inj' hcapitals (List.length_map _)).2
  let i : Item :=
    { token := chars ++ rest, key := k, value := .scalar ""
      names := by rw [List.map_append, hrest, hname] }
  obtain ⟨hinline, -⟩ := token_inline i
  have htokens : ∀ b ∈ Text.utf8 rest, isTokenByte b = true := by
    rw [List.all_append, Bool.and_eq_true] at hinline
    exact isTokenByte_utf8 hinline.2
  have hbytes : ((Text.utf8 rest).reverse ++ token).reverse = Text.utf8 i.token := by
    rw [List.reverse_append, List.reverse_reverse, hchars, ← Text.utf8_append]
  have hcolon : step 58 (key ((Text.utf8 rest).reverse ++ token)) = .ok (value true) := by
    rw [step, hbytes, keyOfBytes?_token]
    rfl
  refine ⟨⟨value true, (reads_key htokens token).append (.one (by decide) hcolon), rfl⟩, ?_, ?_⟩
  · exact hutf8.append ⟨rest ++ [':'], by rw [Text.utf8_append]; rfl⟩
  · rw [← List.append_assoc]
    exact (hfilled.append (Header.plain_of_tokens htokens)).colon

theorem completes_value {text bytes : Bytes} (empty : Bool) (hhigh : ∀ b ∈ bytes, 128 ≤ b.toNat)
    (hutf8 : Text.IsUtf8 (text ++ bytes)) (hfilled : Header.Filled text) :
    (value empty).Completes text bytes where
  reads := ⟨_, reads_scalar (tokens_of_high hhigh) empty, rfl⟩
  utf8 := hutf8
  filled := hfilled.append (plain_of_high hhigh)

theorem completes_array {text bytes : Bytes} (htokens : ∀ b ∈ bytes, isTokenByte b = true)
    (hutf8 : Text.IsUtf8 (text ++ bytes)) (hfilled : Header.Filled text)
    (hlast : bytes = [] → text.getLast? ≠ some 44) :
    array.Completes text (bytes ++ [93]) := by
  have hopen : Reads array bytes array := reads_array fun b hb => .inr (htokens b hb)
  have hfront : Header.Filled (text ++ bytes) := hfilled.append (Header.plain_of_tokens htokens)
  refine ⟨⟨arrayEnd, hopen.append (.one (by decide) rfl), rfl⟩, ?_, ?_⟩
  · rw [← List.append_assoc]
    exact hutf8.append ⟨[']'], by decide⟩
  · rw [← List.append_assoc]
    refine hfront.concat fun b hb => Header.isGap_close fun hcomma => ?_
    subst hcomma
    by_cases hnil : bytes = []
    · subst hnil
      rw [List.append_nil] at hb
      exact hlast rfl hb
    · rw [List.getLast?_append_of_ne_nil _ hnil] at hb
      have htoken := htokens 44 (List.mem_of_getLast? hb)
      exact absurd htoken (by decide)

theorem Closable.completes {lex : Lex} {text : Bytes} {room : Nat} (h : lex.Closable room text) :
    ∃ rest, rest.length + 1 ≤ room ∧ lex.Completes text rest := by
  cases lex with
  | keyStart =>
    obtain ⟨rfl, hroom⟩ | ⟨hutf8, hfilled, hroom⟩ := h
    · exact ⟨[], hroom, ⟨keyStart, .done _, rfl⟩, ⟨[], rfl⟩, List.isChain_nil⟩
    · refine ⟨_, ?_, completes_item hutf8 hfilled⟩
      exact hroom
  | key token =>
    obtain ⟨hutf8, hfilled, k, rest, hopens, hroom⟩ := h
    refine ⟨_, ?_, completes_key hopens hutf8 hfilled⟩
    have hrest : ∀ c ∈ rest, c.toNat ≤ 127 := by
      obtain ⟨chars, -, hname⟩ := hopens
      intro c hc
      apply name_ascii k
      rw [← hname]
      exact List.mem_append_right _ hc
    rw [Text.utf8_ascii hrest, List.length_append, List.length_map, List.length_singleton]
    omega
  | value empty =>
    obtain ⟨hfilled, -, ⟨bytes, rfl, hhigh, hutf8⟩, hroom⟩ := h
    exact ⟨bytes, hroom, completes_value empty hhigh hutf8 hfilled⟩
  | array =>
    obtain ⟨hfilled, hcomma, -, ⟨bytes, rfl, hhigh, hutf8⟩, hroom⟩ := h
    by_cases hlast : text.getLast? = some 44
    · obtain ⟨front, rfl⟩ := List.getLast?_eq_some_iff.1 hlast
      rw [List.append_assoc, List.singleton_append] at hutf8
      have helement : Text.IsUtf8 (front ++ [44] ++ [120]) :=
        (hutf8.cut (by decide)).1.append ⟨['x'], by decide⟩
      have htoken : ∀ b ∈ [120], isTokenByte b = true := fun b hb => by
        rw [List.mem_singleton.1 hb]
        decide
      refine ⟨[120] ++ [93], ?_, completes_array htoken helement hfilled ?_⟩
      · exact hcomma hlast
      · exact fun hnil => absurd hnil (List.cons_ne_nil _ _)
    · refine ⟨bytes ++ [93], ?_,
        completes_array (tokens_of_high hhigh) hutf8 hfilled fun _ => hlast⟩
      rw [List.length_append, List.length_singleton]
      omega
  | arrayEnd =>
    obtain ⟨hutf8, hfilled, hroom⟩ := h
    refine ⟨[], hroom, ⟨arrayEnd, .done _, rfl⟩, ?_, ?_⟩
    · rwa [List.append_nil]
    · rwa [List.append_nil]

/-- A header can be taken to a good end within its room exactly if its place has the room. -/
theorem closable_iff {lex : Lex} {text : Bytes} {room : Nat} (htrail : lex.Trail text) :
    lex.Closable room text ↔ ∃ rest, rest.length + 1 ≤ room ∧ lex.Completes text rest := by
  refine ⟨Closable.completes, ?_⟩
  rintro ⟨rest, hroom, hcompletes⟩
  exact hcompletes.closable htrail hroom

end Lex

end JobBroker
