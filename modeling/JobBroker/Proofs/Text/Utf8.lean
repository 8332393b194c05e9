import JobBroker.Text.Utf8

/-! UTF-8 as it is written: ASCII characters are single bytes below 128, every other character is
bytes from 128 on, what was written is read back, and nothing else is read. Text may be cut at an
ASCII byte, and text that breaks off inside a character is completed by bytes from 128 on. -/
namespace JobBroker.Text

@[simp] theorem utf8_append (cs ds : List Char) : utf8 (cs ++ ds) = utf8 cs ++ utf8 ds :=
  List.flatMap_append ..

@[simp] theorem utf8_cons (c : Char) (cs : List Char) :
    utf8 (c :: cs) = String.utf8EncodeChar c ++ utf8 cs := List.flatMap_cons ..

theorem utf8_eq_nil {cs : List Char} (h : utf8 cs = []) : cs = [] := by
  cases cs with
  | nil => rfl
  | cons c cs =>
    rw [utf8_cons, List.append_eq_nil_iff] at h
    exact absurd h.1 String.utf8EncodeChar_ne_nil

theorem utf8EncodeChar_ascii {c : Char} (h : c.toNat ≤ 127) :
    String.utf8EncodeChar c = [UInt8.ofNat c.toNat] := if_pos h

theorem utf8_ascii {cs : List Char} (h : ∀ c ∈ cs, c.toNat ≤ 127) :
    utf8 cs = cs.map fun c => UInt8.ofNat c.toNat := by
  induction cs with
  | nil => rfl
  | cons c cs ih =>
    rw [utf8_cons, utf8EncodeChar_ascii (h c (List.mem_cons_self ..)),
      ih fun c hc => h c (List.mem_cons_of_mem _ hc)]
    rfl

theorem utf8EncodeChar_high {c : Char} (h : ¬ c.toNat ≤ 127) :
    ∀ b ∈ String.utf8EncodeChar c, 128 ≤ b.toNat := by
  intro b hb
  simp only [String.utf8EncodeChar] at hb
  split at hb
  · exact absurd ‹_› h
  split at hb
  · simp only [List.mem_cons, List.not_mem_nil, or_false] at hb
    obtain rfl | rfl := hb <;> rw [UInt8.toNat_ofNat'] <;> omega
  split at hb
  · simp only [List.mem_cons, List.not_mem_nil, or_false] at hb
    obtain rfl | rfl | rfl := hb <;> rw [UInt8.toNat_ofNat'] <;> omega
  · simp only [List.mem_cons, List.not_mem_nil, or_false] at hb
    obtain rfl | rfl | rfl | rfl := hb <;> rw [UInt8.toNat_ofNat'] <;> omega

theorem decode?_utf8 (cs : List Char) : decode? (utf8 cs) = some (String.ofList cs) := by
  have hvalid : (utf8 cs).toByteArray.IsValidUTF8 := ByteArray.isValidUTF8_utf8Encode
  rw [decode?, String.fromUTF8?, dif_pos hvalid, Option.some.injEq, ← String.toByteArray_inj,
    String.toByteArray_ofList]
  rfl

theorem decode?_some {b : Bytes} {s : String} (h : decode? b = some s) : b = utf8 s.toList := by
  unfold decode? String.fromUTF8? at h
  split at h
  · rename_i hvalid
    obtain rfl := Option.some.inj h
    have hdata : (utf8 (String.fromUTF8 b.toByteArray hvalid).toList).toByteArray.data =
        b.toByteArray.data := congrArg ByteArray.data String.utf8Encode_toList
    rw [List.data_toByteArray, List.data_toByteArray] at hdata
    exact (List.toArray_inj hdata).symm
  · cases h

/-! Cutting text and completing it. -/

def IsUtf8 (b : Bytes) : Prop := ∃ cs, b = utf8 cs

theorem IsUtf8.append {xs ys : Bytes} (hx : IsUtf8 xs) (hy : IsUtf8 ys) : IsUtf8 (xs ++ ys) := by
  obtain ⟨cs, rfl⟩ := hx
  obtain ⟨ds, rfl⟩ := hy
  exact ⟨cs ++ ds, (utf8_append cs ds).symm⟩

theorem length_le_utf8 (cs : List Char) : cs.length ≤ (utf8 cs).length := by
  induction cs with
  | nil => exact Nat.le_refl 0
  | cons c cs ih =>
    have hsome : 0 < (String.utf8EncodeChar c).length :=
      List.length_pos_iff.2 String.utf8EncodeChar_ne_nil
    rw [utf8_cons, List.length_append, List.length_cons]
    omega

theorem high_of_split {c : Char} {xs ys : Bytes} (h : String.utf8EncodeChar c = xs ++ ys)
    (hxs : xs ≠ []) (hys : ys ≠ []) : ∀ b ∈ xs ++ ys, 128 ≤ b.toNat := by
  rw [← h]
  refine utf8EncodeChar_high fun hascii => ?_
  have hlength := congrArg List.length h
  have hx := List.length_pos_iff.2 hxs
  have hy := List.length_pos_iff.2 hys
  rw [utf8EncodeChar_ascii hascii, List.length_append, List.length_singleton] at hlength
  omega

/-- Text breaks off between two characters, or inside of one, whose other bytes are then from 128
on. -/
theorem utf8_split {cs : List Char} {xs ys : Bytes} (h : utf8 cs = xs ++ ys) :
    ∃ rest later, ys = rest ++ later ∧ (∀ b ∈ rest, 128 ≤ b.toNat) ∧ IsUtf8 (xs ++ rest) ∧
      IsUtf8 later ∧ (rest ≠ [] → ∃ b ∈ xs.getLast?, 128 ≤ b.toNat) := by
  induction cs generalizing xs with
  | nil =>
    obtain ⟨rfl, rfl⟩ := List.append_eq_nil_iff.1 h.symm
    exact ⟨[], [], rfl, by simp, ⟨[], rfl⟩, ⟨[], rfl⟩, by simp⟩
  | cons c cs ih =>
    rw [utf8_cons] at h
    obtain ⟨zs, rfl, hrest⟩ | ⟨zs, hchar, rfl⟩ := List.append_eq_append_iff.1 h
    · obtain ⟨rest, later, rfl, hhigh, ⟨ds, hds⟩, hlater, hlast⟩ := ih hrest
      refine ⟨rest, later, rfl, hhigh, ⟨c :: ds, ?_⟩, hlater, fun hne => ?_⟩
      · rw [List.append_assoc, hds, utf8_cons]
      · obtain ⟨b, hb, hbhigh⟩ := hlast hne
        refine ⟨b, ?_, hbhigh⟩
        rw [List.getLast?_append, Option.mem_def.1 hb]
        rfl
    · by_cases hxs : xs = []
      · subst hxs
        exact ⟨[], _, rfl, by simp, ⟨[], rfl⟩, ⟨c :: cs, by rw [utf8_cons, hchar]; rfl⟩, by simp⟩
      by_cases hzs : zs = []
      · subst hzs
        rw [List.append_nil] at hchar
        refine ⟨[], _, rfl, by simp, ⟨[c], ?_⟩, ⟨cs, rfl⟩, by simp⟩
        rw [List.append_nil, utf8_cons, hchar]
        exact (List.append_nil xs).symm
      · have hhigh := high_of_split hchar hxs hzs
        refine ⟨zs, _, rfl, fun b hb => hhigh b (List.mem_append_right _ hb), ⟨[c], ?_⟩, ⟨cs, rfl⟩,
          fun _ => ⟨xs.getLast hxs, List.getLast?_eq_some_getLast hxs, ?_⟩⟩
        · rw [utf8_cons, ← hchar]
          exact (List.append_nil _).symm
        · exact hhigh _ (List.mem_append_left _ (List.getLast_mem hxs))

theorem IsUtf8.cut {xs ys : Bytes} {b : UInt8} (h : IsUtf8 (xs ++ b :: ys)) (hb : b.toNat ≤ 127) :
    IsUtf8 (xs ++ [b]) ∧ IsUtf8 ys := by
  obtain ⟨cs, hcs⟩ := h
  rw [← List.singleton_append, ← List.append_assoc] at hcs
  obtain ⟨rest, later, rfl, -, hfront, hlater, hlast⟩ := utf8_split hcs.symm
  have hrest : rest = [] := by
    refine Decidable.byContradiction fun hne => ?_
    obtain ⟨b', hb', hhigh⟩ := hlast hne
    rw [List.getLast?_concat, Option.mem_some_iff] at hb'
    subst hb'
    omega
  subst hrest
  rw [List.append_nil] at hfront
  exact ⟨hfront, hlater⟩

end JobBroker.Text
