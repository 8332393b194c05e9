import JobBroker.Text.Decimal

/-! A number that was written is read back, as long as it is within the limit. -/
namespace JobBroker.Decimal

theorem maxWord_eq : maxWord = 18446744073709551615 := rfl

theorem le_ofDigitChars (cs : List Char) (value : Nat) :
    value ≤ Nat.ofDigitChars 10 cs value := by
  induction cs generalizing value with
  | nil => exact Nat.le_refl value
  | cons c cs ih =>
    have hrest := ih (10 * value + (c.toNat - '0'.toNat))
    rw [Nat.ofDigitChars_cons]
    omega

theorem accumulate_eq {limit : Nat} {cs : List Char} (value : Nat)
    (hdigits : ∀ c ∈ cs, c.isDigit = true) (hle : Nat.ofDigitChars 10 cs value ≤ limit) :
    accumulate limit value cs = some (Nat.ofDigitChars 10 cs value) := by
  induction cs generalizing value with
  | nil => rfl
  | cons c cs ih =>
    rw [Nat.ofDigitChars_cons] at hle ⊢
    have hfirst := le_ofDigitChars cs (10 * value + (c.toNat - '0'.toNat))
    have hfits : 10 * value + digitValue c ≤ limit := Nat.le_trans hfirst hle
    have htake : (c.isDigit && 10 * value + digitValue c ≤ limit) = true := by
      simp [hdigits c (List.mem_cons_self ..), hfits]
    rw [accumulate, if_pos htake]
    exact ih _ (fun c hc => hdigits c (List.mem_cons_of_mem _ hc)) hle

theorem isDigit_digits {n : Nat} {c : Char} (h : c ∈ digits n) : c.isDigit = true :=
  Nat.isDigit_of_mem_toDigits (by decide) (by decide) h

theorem accumulate_some {limit value n : Nat} {cs : List Char} (hvalue : value ≤ limit)
    (h : accumulate limit value cs = some n) : n ≤ limit ∧ n = Nat.ofDigitChars 10 cs value := by
  induction cs generalizing value with
  | nil =>
    cases h
    exact ⟨hvalue, rfl⟩
  | cons c cs ih =>
    rw [accumulate] at h
    split at h
    · rename_i htake
      rw [Bool.and_eq_true, decide_eq_true_iff] at htake
      exact ih htake.2 h
    · cases h

theorem read?_eq (limit n : Nat) : read? limit (digits n) = accumulate limit 0 (digits n) := by
  cases hdigits : digits n with
  | nil => exact absurd hdigits Nat.toDigits_ne_nil
  | cons c cs =>
    have hsign : c ≠ '+' := by
      rintro rfl
      have hdigit : '+'.isDigit = true := isDigit_digits (hdigits ▸ List.mem_cons_self ..)
      exact absurd hdigit (by decide)
    unfold read?
    split
    · rename_i heq
      cases heq
      exact absurd rfl hsign
    · rfl

theorem ofDigitChars_digits (n : Nat) : Nat.ofDigitChars 10 (digits n) 0 = n :=
  Nat.ofDigitChars_ten_toDigits

theorem read?_digits {limit n : Nat} (h : n ≤ limit) : read? limit (digits n) = some n := by
  rw [read?_eq, accumulate_eq 0 (fun c hc => isDigit_digits hc) (by rwa [ofDigitChars_digits]),
    ofDigitChars_digits]

theorem word?_write {n : Nat} (h : n ≤ maxWord) : word? (write n) = some (UInt64.ofNat n) := by
  rw [word?, write, String.toList_ofList, read?_digits h, Option.map_some]

theorem word?_write_some {n : Nat} {w : UInt64} (h : word? (write n) = some w) : w.toNat = n := by
  rw [word?, write, String.toList_ofList, read?_eq, Option.map_eq_some_iff] at h
  obtain ⟨value, hvalue, rfl⟩ := h
  obtain ⟨hle, rfl⟩ := accumulate_some (Nat.zero_le _) hvalue
  rw [ofDigitChars_digits] at hle ⊢
  exact UInt64.toNat_ofNat_of_lt (Nat.lt_of_le_of_lt hle (by decide))

end JobBroker.Decimal
