import JobBroker.Proofs.Text.Utf8

/-! ASCII capitals: a small letter becomes the capital that stands 32 places before it, and no other
character changes. -/
namespace JobBroker

theorem toUpper_cases (c : Char) :
    (¬ (97 ≤ c.toNat ∧ c.toNat ≤ 122) ∧ c.toUpper = c) ∨
    (97 ≤ c.toNat ∧ c.toNat ≤ 122 ∧ c.toUpper.toNat + 32 = c.toNat) := by
  by_cases hlower : 'a'.val ≤ c.val ∧ c.val ≤ 'z'.val
  · have hlow : 97 ≤ c.toNat := UInt32.le_iff_toNat_le.1 hlower.1
    have hhigh : c.toNat ≤ 122 := UInt32.le_iff_toNat_le.1 hlower.2
    have hval : c.toUpper.val = c.val + ('A'.val - 'a'.val) := by
      unfold Char.toUpper
      rw [dif_pos hlower]
    have hnat : c.toUpper.toNat = (c.toNat + 4294967264) % 4294967296 := by
      rw [Char.toNat, hval, UInt32.toNat_add]
      rfl
    exact .inr ⟨hlow, hhigh, by omega⟩
  · refine .inl ⟨fun h => hlower ?_, ?_⟩
    · exact ⟨UInt32.le_iff_toNat_le.2 h.1, UInt32.le_iff_toNat_le.2 h.2⟩
    · unfold Char.toUpper
      rw [dif_neg hlower]

theorem toUpper_digit {c : Char} (h : c.isDigit = true) : c.toUpper = c := by
  have hcode : 48 ≤ c.toNat ∧ c.toNat ≤ 57 := Char.isDigit_iff_toNat.1 h
  obtain ⟨-, hsame⟩ | ⟨hlow, -, -⟩ := toUpper_cases c
  · exact hsame
  · omega

theorem toUpper_toUpper (c : Char) : c.toUpper.toUpper = c.toUpper := by
  obtain ⟨-, hsame⟩ | ⟨hlow, hhigh, hcode⟩ := toUpper_cases c
  · rw [hsame, hsame]
  · obtain ⟨-, hsame⟩ | ⟨hlow', -, -⟩ := toUpper_cases c.toUpper
    · exact hsame
    · omega

theorem length_utf8_toUpper (cs : List Char) :
    (Text.utf8 (cs.map Char.toUpper)).length = (Text.utf8 cs).length := by
  induction cs with
  | nil => rfl
  | cons c cs ih =>
    have hchar : (String.utf8EncodeChar c.toUpper).length = (String.utf8EncodeChar c).length := by
      obtain ⟨-, hsame⟩ | ⟨-, hhigh, hcode⟩ := toUpper_cases c
      · rw [hsame]
      · rw [Text.utf8EncodeChar_ascii (by omega), Text.utf8EncodeChar_ascii (by omega)]
        rfl
    rw [List.map_cons, Text.utf8_cons, Text.utf8_cons, List.length_append, List.length_append, ih,
      hchar]

end JobBroker
