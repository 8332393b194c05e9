import JobBroker.Proofs.Packet.Parsing

/-! The other way round: a header that the lexer reads to its end is a list of items between commas,
each with a key of the vocabulary and a value. The lexer is followed from one reserved character to
the next. -/
namespace JobBroker

theorem mem_splitOn {sep : Char} {cs piece : List Char} (h : piece ∈ cs.splitOn sep) :
    ∀ c ∈ piece, c ∈ cs ∧ c ≠ sep := by
  induction cs generalizing piece with
  | nil =>
    rw [List.splitOn_nil, List.mem_singleton] at h
    rw [h]
    nofun
  | cons first cs ih =>
    have hlater : ∀ piece ∈ cs.splitOn sep, ∀ c ∈ piece, c ∈ first :: cs ∧ c ≠ sep :=
      fun piece hpiece c hc => ⟨List.mem_cons_of_mem _ (ih hpiece c hc).1, (ih hpiece c hc).2⟩
    rw [List.splitOn_cons_eq_if_modifyHead] at h
    by_cases hsep : first = sep
    · rw [if_pos (beq_iff_eq.2 hsep), List.mem_cons] at h
      obtain rfl | h := h
      · nofun
      · exact hlater piece h
    · rw [if_neg (by simpa using hsep)] at h
      cases hpieces : cs.splitOn sep with
      | nil => exact absurd hpieces (List.splitOn_ne_nil sep cs)
      | cons next pieces =>
        rw [hpieces] at h hlater
        obtain rfl | h := List.mem_cons.1 h
        · intro c hc
          obtain rfl | hc := List.mem_cons.1 hc
          · exact ⟨List.mem_cons_self .., hsep⟩
          · exact hlater next (List.mem_cons_self ..) c hc
        · exact hlater piece (List.mem_cons_of_mem _ h)

theorem exists_longest (allowed : Char → Bool) (cs : List Char) :
    ∃ piece rest, cs = piece ++ rest ∧ piece.all allowed = true ∧
      (rest = [] ∨ ∃ c rest', rest = c :: rest' ∧ allowed c = false) := by
  refine ⟨cs.takeWhile allowed, cs.dropWhile allowed, List.takeWhile_append_dropWhile.symm,
    List.all_takeWhile, ?_⟩
  cases hrest : cs.dropWhile allowed with
  | nil => exact .inl rfl
  | cons c rest =>
    have hhead := List.head?_dropWhile_not allowed cs
    rw [hrest] at hhead
    exact .inr ⟨c, rest, rfl, by simpa using hhead⟩

namespace Lex

theorem Reads.after {lex mid final : Lex} {xs ys : Bytes} (h : Reads lex xs mid)
    (h' : Reads lex (xs ++ ys) final) : Reads mid ys final := by
  induction h with
  | done lex => exact h'
  | next inline takes rest ih =>
    cases h' with
    | next inline' takes' rest' =>
      rw [takes] at takes'
      cases takes'
      exact ih rest'

inductive Marks : Lex → Char → Lex → Prop
  | keyEnds {token : Bytes} {k : Key} (named : keyOfBytes? token.reverse = some k) :
    Marks (key token) ':' (value true)
  | valueEnds (empty : Bool) : Marks (value empty) ',' keyStart
  | opens : Marks (value true) '[' array
  | separates : Marks array ',' array
  | closes : Marks array ']' arrayEnd
  | arrayEnds : Marks arrayEnd ',' keyStart

theorem marks_of_step {lex mid : Lex} {c : Char} (hc : isTokenChar c = false)
    (h : lex.step (UInt8.ofNat c.toNat) = .ok mid) : Marks lex c mid := by
  cases lex with
  | keyStart =>
    obtain rfl | rfl | rfl | rfl | rfl | rfl | rfl := reserved_cases hc <;> cases h
  | key token =>
    obtain rfl | rfl | rfl | rfl | rfl | rfl | rfl := reserved_cases hc <;> try cases h
    have hcolon : Lex.step 58 (key token) = .ok mid := h
    rw [step, if_pos (beq_self_eq_true _)] at hcolon
    split at hcolon
    · cases hcolon
      exact .keyEnds ‹_›
    · cases hcolon
  | value empty =>
    cases empty <;> obtain rfl | rfl | rfl | rfl | rfl | rfl | rfl := reserved_cases hc <;>
      cases h
    exacts [.valueEnds false, .valueEnds true, .opens]
  | array =>
    obtain rfl | rfl | rfl | rfl | rfl | rfl | rfl := reserved_cases hc <;> cases h
    exacts [.separates, .closes]
  | arrayEnd =>
    obtain rfl | rfl | rfl | rfl | rfl | rfl | rfl := reserved_cases hc <;> cases h
    exact .arrayEnds

theorem Reads.reserved {lex final : Lex} {c : Char} {cs : List Char} (hc : isTokenChar c = false)
    (h : Reads lex (Text.utf8 (c :: cs)) final) :
    ∃ mid, Marks lex c mid ∧ Reads mid (Text.utf8 cs) final := by
  have hascii : c.toNat ≤ 127 := by
    obtain rfl | rfl | rfl | rfl | rfl | rfl | rfl := reserved_cases hc <;> decide
  rw [Text.utf8_cons, Text.utf8EncodeChar_ascii hascii, List.singleton_append] at h
  cases h with
  | next inline takes rest => exact ⟨_, marks_of_step hc takes, rest⟩

/-- What stands behind an item: nothing, or a comma and the next item. -/
def Tail (final : Lex) (rest : List Char) : Prop :=
  rest = [] ∨ ∃ more, rest = ',' :: more ∧ Reads keyStart (Text.utf8 more) final

theorem token_of_reads {cs : List Char} {final : Lex} (h : Reads keyStart (Text.utf8 cs) final)
    (hclosed : final.Closed) :
    ∃ (token : List Char) (k : Key) (text : List Char), token.map Char.toUpper = k.name.toList ∧
      cs = token ++ ':' :: text ∧ Reads (value true) (Text.utf8 text) final := by
  obtain ⟨token, rest, rfl, htoken, hend⟩ := exists_longest isTokenChar cs
  by_cases hsome : token = []
  · subst hsome
    obtain rfl | ⟨c, rest, rfl, hc⟩ := hend
    · cases h
      cases hclosed
    · obtain ⟨mid, hmarks, -⟩ := h.reserved hc
      cases hmarks
  · have hbytes : Text.utf8 token ≠ [] := fun hnil => hsome (Text.utf8_eq_nil hnil)
    rw [Text.utf8_append] at h
    have hafter := (reads_keyStart (isTokenByte_utf8 htoken) hbytes).after h
    obtain rfl | ⟨c, text, rfl, hc⟩ := hend
    · cases hafter
      cases hclosed
    · obtain ⟨mid, hmarks, htext⟩ := hafter.reserved hc
      cases hmarks with
      | @keyEnds _ k named =>
        rw [List.reverse_reverse, keyOfBytes?, Text.decode?_utf8, Option.bind_some,
          String.toList_ofList] at named
        exact ⟨token, k, text, ofToken?_some named, rfl, htext⟩

theorem tail_of_reads {cs : List Char} {final : Lex} (h : Reads arrayEnd (Text.utf8 cs) final) :
    Tail final cs := by
  cases cs with
  | nil => exact .inl rfl
  | cons c more =>
    cases hc : isTokenChar c with
    | true =>
      cases henc : String.utf8EncodeChar c with
      | nil => exact absurd henc String.utf8EncodeChar_ne_nil
      | cons b bytes =>
        have hb := isTokenByte_of_mem hc b (by rw [henc]; exact List.mem_cons_self ..)
        have hcomma := ((isTokenByte_iff b).1 hb).1
        rw [Text.utf8_cons, henc] at h
        cases h with
        | next inline takes rest => simp [step, hcomma] at takes
    | false =>
      obtain ⟨mid, hmarks, hmore⟩ := h.reserved hc
      cases hmarks
      exact .inr ⟨more, rfl, hmore⟩

theorem array_of_reads {cs : List Char} {final : Lex} (h : Reads array (Text.utf8 cs) final)
    (hclosed : final.Closed) :
    ∃ inner rest, (∀ c ∈ inner, c = ',' ∨ isTokenChar c = true) ∧ cs = inner ++ ']' :: rest ∧
      Tail final rest := by
  obtain ⟨inner, rest, rfl, hinner, hend⟩ :=
    exists_longest (fun c => c == ',' || isTokenChar c) cs
  have hchars : ∀ c ∈ inner, c = ',' ∨ isTokenChar c = true := fun c hc => by
    simpa using List.all_eq_true.1 hinner c hc
  have hbytes : ∀ b ∈ Text.utf8 inner, b = 44 ∨ isTokenByte b = true := by
    intro b hb
    obtain ⟨c, hc, hb⟩ := List.mem_flatMap.1 hb
    obtain rfl | hc := hchars c hc
    · exact .inl (List.mem_singleton.1 hb)
    · exact .inr (isTokenByte_of_mem hc b hb)
  rw [Text.utf8_append] at h
  have hafter := (reads_array hbytes).after h
  obtain rfl | ⟨c, rest, rfl, hc⟩ := hend
  · cases hafter
    cases hclosed
  · obtain ⟨hcomma, hc⟩ := Bool.or_eq_false_iff.1 hc
    obtain ⟨mid, hmarks, hrest⟩ := hafter.reserved hc
    cases hmarks with
    | separates => cases hcomma
    | closes => exact ⟨inner, rest, hchars, rfl, tail_of_reads hrest⟩

end Lex

theorem Value.exists_array {inner : List Char} (h : ∀ c ∈ inner, c = ',' ∨ isTokenChar c = true) :
    ∃ v : Value, v.Plain ∧ v.text = '[' :: inner ++ [']'] := by
  by_cases hinner : inner = []
  · subst hinner
    exact ⟨.array [], ⟨rfl, nofun⟩, rfl⟩
  · have htext : List.intercalate [',']
        (((inner.splitOn ',').map String.ofList).map String.toList) = inner := by
      simp [Function.comp_def]
    refine ⟨.array ((inner.splitOn ',').map String.ofList), ⟨?_, fun hlone => hinner ?_⟩, ?_⟩
    · rw [isInline, List.all_map, List.all_eq_true]
      intro piece hpiece
      rw [Function.comp_apply, String.toList_ofList, List.all_eq_true]
      intro c hc
      obtain ⟨hmem, hcomma⟩ := mem_splitOn hpiece c hc
      exact (h c hmem).resolve_left hcomma
    · rw [← htext, array.inj hlone]
      rfl
    · rw [text, htext]

namespace Lex

theorem value_of_reads {cs : List Char} {final : Lex} (h : Reads (value true) (Text.utf8 cs) final)
    (hclosed : final.Closed) :
    ∃ (v : Value) (rest : List Char), v.Plain ∧ cs = v.text ++ rest ∧ Tail final rest := by
  obtain ⟨text, rest, rfl, htext, hend⟩ := exists_longest isTokenChar cs
  have hspelled : (Value.scalar (String.ofList text)).text = text := String.toList_ofList
  have hscalar : (Value.scalar (String.ofList text)).Plain := by
    refine ⟨?_, nofun⟩
    rw [Value.isInline, String.toList_ofList, htext]
  rw [Text.utf8_append] at h
  have hafter := (reads_scalar (isTokenByte_utf8 htext) true).after h
  obtain rfl | ⟨c, rest, rfl, hc⟩ := hend
  · exact ⟨_, [], hscalar, by rw [hspelled], .inl rfl⟩
  · obtain ⟨mid, hmarks, hrest⟩ := hafter.reserved hc
    generalize hempty : (true && (Text.utf8 text).isEmpty) = empty at hmarks
    cases hmarks with
    | valueEnds => exact ⟨_, ',' :: rest, hscalar, by rw [hspelled], .inr ⟨rest, rfl, hrest⟩⟩
    | opens =>
      -- A bracket opens an array only where the value begins.
      obtain rfl : text = [] := Text.utf8_eq_nil (List.isEmpty_iff.1 hempty)
      obtain ⟨inner, rest, hinner, rfl, htail⟩ := array_of_reads hrest hclosed
      obtain ⟨v, hplain, hv⟩ := Value.exists_array hinner
      exact ⟨v, rest, hplain, by simp [hv], htail⟩

/-- What the lexer reads to its end is a list of items. -/
theorem items_of_reads {cs : List Char} {final : Lex} (h : Reads keyStart (Text.utf8 cs) final)
    (hclosed : final.Closed) :
    ∃ items : List Item, items ≠ [] ∧ cs = List.intercalate [','] (items.map Item.text) ∧
      ∀ i ∈ items, i.value.Plain := by
  obtain ⟨token, k, text, names, hcs, htext⟩ := token_of_reads h hclosed
  obtain ⟨v, rest, hplain, rfl, rfl | ⟨more, rfl, hmore⟩⟩ := value_of_reads htext hclosed
  · exact ⟨[⟨token, k, v, names⟩], List.cons_ne_nil _ _, by simp [hcs, Item.text], by simpa⟩
  · have hshorter : more.length < cs.length := by
      rw [hcs]
      simp only [List.length_append, List.length_cons]
      omega
    obtain ⟨items, hne, rfl, hitems⟩ := items_of_reads hmore hclosed
    refine ⟨⟨token, k, v, names⟩ :: items, List.cons_ne_nil _ _, ?_,
      by simpa using ⟨hplain, hitems⟩⟩
    cases items with
    | nil => exact absurd rfl hne
    | cons i items => simp [hcs, Item.text, List.intercalate_cons_cons]
termination_by cs.length

end Lex
end JobBroker
