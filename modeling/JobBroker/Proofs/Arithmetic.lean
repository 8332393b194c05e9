import JobBroker.Arithmetic
import JobBroker.Proofs.Text.Decimal
import Mathlib.Algebra.Order.Ring.Nat

/-! A sum of 64-bit numbers comes to the sum of the numbers or ends the program. Whatever order the
additions have, only the whole sum decides which. -/
namespace JobBroker.Build

/-- The program goes on with such a sum. Without checks it goes on with any. -/
def Bears (build : Build) (total : Nat) : Prop := build = .checked → total ≤ Decimal.maxWord

instance (build : Build) (total : Nat) : Decidable (build.Bears total) :=
  inferInstanceAs (Decidable (_ → _))

variable {build : Build} {total part : Nat}

theorem Bears.of_le (h : total ≤ Decimal.maxWord) : build.Bears total := fun _ => h

theorem bears_wrapping (total : Nat) : wrapping.Bears total := nofun

theorem Bears.mono (h : build.Bears total) (hle : part ≤ total) : build.Bears part :=
  fun hchecked => Nat.le_trans hle (h hchecked)

theorem not_bears_iff : ¬ build.Bears total ↔ build = .checked ∧ Decimal.maxWord < total := by
  rw [Bears, Classical.not_imp, Nat.not_le]

theorem add_eq (build : Build) (m n : UInt64) :
    build.add m n =
      if build.Bears (m.toNat + n.toNat) then .ok (UInt64.ofNat (m.toNat + n.toNat))
      else .error .addOverflow := by
  have hsum : m + n = UInt64.ofNat (m.toNat + n.toNat) := by
    rw [UInt64.ofNat_add, UInt64.ofNat_toNat, UInt64.ofNat_toNat]
  cases build with
  | checked =>
    have hsize : m.toNat + n.toNat < UInt64.size ↔ checked.Bears (m.toNat + n.toNat) := by
      rw [Bears, Decimal.maxWord_eq]
      exact ⟨fun h _ => Nat.le_of_lt_succ h, fun h => Nat.lt_succ_of_le (h rfl)⟩
    simp only [add, hsize, hsum]
  | wrapping => rw [add, hsum, if_pos (bears_wrapping _)]

/-- A sum beyond 64 bits stays beyond them, and one that wraps is the same modulo their number. -/
theorem sumFrom_eq (build : Build) (start : UInt64) (ns : List UInt64) :
    build.sumFrom start ns =
      if build.Bears (start.toNat + (ns.map UInt64.toNat).sum) then
        .ok (UInt64.ofNat (start.toNat + (ns.map UInt64.toNat).sum))
      else .error .addOverflow := by
  induction ns generalizing start with
  | nil => simp [sumFrom, Bears.of_le (Nat.le_of_lt_succ start.toNat_lt)]
  | cons n ns ih =>
    rw [sumFrom, add_eq, List.map_cons, List.sum_cons, ← Nat.add_assoc]
    by_cases hfirst : build.Bears (start.toNat + n.toNat)
    · rw [if_pos hfirst]
      dsimp only
      rw [ih]
      cases build with
      | checked => rw [UInt64.toNat_ofNat_of_lt' (Nat.lt_succ_of_le (hfirst rfl))]
      | wrapping =>
        simp only [bears_wrapping, if_true, UInt64.ofNat_add, UInt64.ofNat_toNat]
    · have hall : ¬ build.Bears (start.toNat + n.toNat + (ns.map UInt64.toNat).sum) :=
        fun h => hfirst (h.mono (Nat.le_add_right _ _))
      rw [if_neg hfirst, if_neg hall]

theorem sum_eq (build : Build) (ns : List UInt64) :
    build.sum ns =
      if build.Bears (ns.map UInt64.toNat).sum then .ok (UInt64.ofNat (ns.map UInt64.toNat).sum)
      else .error .addOverflow := by
  rw [sum, sumFrom_eq, UInt64.toNat_zero, Nat.zero_add]

theorem sumFrom_concat {start sum n : UInt64} {ns : List UInt64}
    (h : build.sumFrom start ns = .ok sum) : build.sumFrom start (ns ++ [n]) = build.add sum n := by
  induction ns generalizing start with
  | nil =>
    cases h
    rw [List.nil_append, sumFrom]
    cases build.add sum n <;> rfl
  | cons m ns ih =>
    rw [List.cons_append, sumFrom]
    rw [sumFrom] at h
    split at h
    · cases h
    · exact ih h

theorem add_exact_iff (build : Build) (m n : UInt64) :
    (∃ sum, build.add m n = .ok sum ∧ sum.toNat = m.toNat + n.toNat) ↔
      m.toNat + n.toNat ≤ Decimal.maxWord := by
  rw [add_eq]
  constructor
  · rintro ⟨sum, -, hexact⟩
    rw [← hexact]
    exact Nat.le_of_lt_succ sum.toNat_lt
  · intro hfits
    rw [if_pos (Bears.of_le hfits)]
    exact ⟨_, rfl, UInt64.toNat_ofNat_of_lt' (Nat.lt_succ_of_le hfits)⟩

/-- An addition makes the sum smaller, or fails, exactly if it runs over. -/
theorem add_grows_iff (build : Build) (m n : UInt64) :
    (∃ sum, build.add m n = .ok sum ∧ m ≤ sum) ↔ m.toNat + n.toNat ≤ Decimal.maxWord := by
  constructor
  · rintro ⟨sum, hadd, hle⟩
    have hm := m.toNat_lt
    have hn := n.toNat_lt
    rw [add_eq] at hadd
    split at hadd
    · cases hadd
      rw [UInt64.le_iff_toNat_le, UInt64.toNat_ofNat'] at hle
      rw [Decimal.maxWord_eq]
      omega
    · cases hadd
  · intro hfits
    obtain ⟨sum, hadd, hexact⟩ := (build.add_exact_iff m n).2 hfits
    exact ⟨sum, hadd, UInt64.le_iff_toNat_le.2 (hexact ▸ Nat.le_add_right ..)⟩

end JobBroker.Build
