import JobBroker.Proofs.Placement.Selection

/-! The chosen candidate is the best of all. Only the least loaded candidate of each specialty is
compared with the others; but candidates of one specialty need the same time for the job, so that
none of those passed over would be done before the one that stands for them. -/
namespace JobBroker

namespace Candidate

/-- When the worker would be done with the job, however late that is. -/
def finish (c : Candidate) : Nat := c.load.toNat + c.serviceTime.toNat

/-- Before the other by a key, or level with it and of no higher number. -/
def Precedes (key : Candidate → Nat) (b c : Candidate) : Prop :=
  key b < key c ∨ key b = key c ∧ b.id ≤ c.id

instance (key : Candidate → Nat) (b c : Candidate) : Decidable (Precedes key b c) :=
  inferInstanceAs (Decidable (_ ∨ _ ∧ _))

section Precedes
variable {key : Candidate → Nat} {a b c : Candidate}

theorem Precedes.refl (c : Candidate) : Precedes key c c := .inr ⟨rfl, Nat.le_refl c.id⟩

theorem Precedes.trans (hab : Precedes key a b) (hbc : Precedes key b c) : Precedes key a c := by
  unfold Precedes at *
  omega

theorem Precedes.id_eq (hbc : Precedes key b c) (hcb : Precedes key c b) : b.id = c.id := by
  unfold Precedes at *
  omega

theorem Precedes.of_shift {key' : Candidate → Nat} (h : Precedes key b c) {n : Nat}
    (hb : key' b = key b + n) (hc : key' c = key c + n) : Precedes key' b c := by
  unfold Precedes at *
  omega

theorem better_precedes (key : Candidate → Nat) (best : Option Candidate) (c : Candidate) :
    ∃ b, better key best c = some b ∧ Precedes key b c ∧ ∀ old ∈ best, Precedes key b old := by
  cases best with
  | none => exact ⟨c, rfl, .refl c, by simp⟩
  | some old =>
    unfold better
    dsimp only
    split
    · rename_i hless
      refine ⟨c, rfl, .refl c, fun b hb => ?_⟩
      cases hb
      unfold Precedes
      omega
    · rename_i hkept
      refine ⟨old, rfl, ?_, fun b hb => ?_⟩
      · unfold Precedes
        omega
      · cases hb
        exact .refl old

theorem foldl_better_precedes {cs : List Candidate} {best : Option Candidate}
    (h : cs.foldl (better key) best = some b) :
    (∀ c ∈ cs, Precedes key b c) ∧ ∀ old ∈ best, Precedes key b old := by
  induction cs generalizing best with
  | nil =>
    rw [List.foldl_nil] at h
    subst h
    refine ⟨nofun, fun old hold => ?_⟩
    cases hold
    exact .refl b
  | cons next cs ih =>
    obtain ⟨mid, hmid, hnext, hbest⟩ := better_precedes key best next
    rw [List.foldl_cons, hmid] at h
    obtain ⟨hlater, hfirst⟩ := ih h
    have hb := hfirst mid rfl
    exact ⟨List.forall_mem_cons.2 ⟨hb.trans hnext, hlater⟩,
      fun old hold => hb.trans (hbest old hold)⟩

theorem least?_precedes {cs : List Candidate} (h : least? key cs = some b) :
    ∀ c ∈ cs, Precedes key b c := (foldl_better_precedes h).1

end Precedes

def SameTimes (cs : List Candidate) : Prop :=
  ∀ b ∈ cs, ∀ c ∈ cs, b.specialty = c.specialty → b.serviceTime = c.serviceTime

theorem leastLoaded?_precedes {cs : List Candidate} (same : SameTimes cs) {b c : Candidate}
    (h : leastLoaded? cs c.specialty = some b) (hc : c ∈ cs) : Precedes finish b c := by
  obtain ⟨hmem, hspecialty⟩ := List.mem_filter.1 (mem_of_least? h)
  rw [beq_iff_eq] at hspecialty
  have hload := least?_precedes h c (List.mem_filter.2 ⟨hc, beq_self_eq_true c.specialty⟩)
  have htime := same b hmem c hc hspecialty
  exact hload.of_shift (n := c.serviceTime.toNat) (by rw [finish, htime]) rfl

theorem predicted_eq {c : Candidate} (h : c.finish ≤ Decimal.maxWord) : c.predicted = c.finish :=
  Nat.min_eq_left h

/-- The candidates that are compared with each other: at most one for each specialty. -/
def foremost (cs : List Candidate) : List Candidate :=
  (leastLoaded? cs .a).toList ++ (leastLoaded? cs .b).toList

theorem mem_foremost {cs : List Candidate} {b : Candidate} :
    b ∈ foremost cs ↔ ∃ specialty, leastLoaded? cs specialty = some b := by
  rw [foremost, List.mem_append, Option.mem_toList, Option.mem_toList]
  constructor
  · rintro (h | h)
    · exact ⟨.a, h⟩
    · exact ⟨.b, h⟩
  · rintro ⟨specialty, h⟩
    cases specialty with
    | a => exact .inl h
    | b => exact .inr h

theorem exists_foremost {cs : List Candidate} (same : SameTimes cs) {c : Candidate} (hc : c ∈ cs) :
    ∃ b ∈ foremost cs, Precedes finish b c := by
  have hsome : leastLoaded? cs c.specialty ≠ none := by
    rw [ne_eq, leastLoaded?_eq_none_iff]
    exact fun hnone => hnone c hc rfl
  obtain ⟨b, hb⟩ := Option.ne_none_iff_exists'.1 hsome
  exact ⟨b, mem_foremost.2 ⟨c.specialty, hb⟩, leastLoaded?_precedes same hb hc⟩

end Candidate

open Candidate

theorem selectWorker_precedes {cs : List Candidate} (same : SameTimes cs)
    (fits : ∀ c ∈ cs, c.finish ≤ Decimal.maxWord) {id : Nat} (h : selectWorker cs = some id) :
    ∃ b ∈ cs, b.id = id ∧ ∀ c ∈ cs, Precedes finish b c := by
  obtain ⟨b, hleast, rfl⟩ := Option.map_eq_some_iff.1 h
  have hmem {c : Candidate} (hc : c ∈ foremost cs) : c ∈ cs := by
    obtain ⟨specialty, hspecialty⟩ := mem_foremost.1 hc
    exact mem_of_leastLoaded? hspecialty
  have hb : b ∈ cs := hmem (mem_of_least? hleast)
  refine ⟨b, hb, rfl, fun c hc => ?_⟩
  obtain ⟨r, hr, hprecedes⟩ := exists_foremost same hc
  have hpredicted : Precedes predicted b r := least?_precedes hleast r hr
  have hfirst : Precedes finish b r :=
    hpredicted.of_shift (n := 0) (predicted_eq (fits b hb)).symm
      (predicted_eq (fits r (hmem hr))).symm
  exact hfirst.trans hprecedes

theorem selectWorker_eq_some_iff {cs : List Candidate} (same : SameTimes cs)
    (fits : ∀ c ∈ cs, c.finish ≤ Decimal.maxWord) (id : Nat) :
    selectWorker cs = some id ↔ ∃ b ∈ cs, b.id = id ∧ ∀ c ∈ cs, Precedes finish b c := by
  refine ⟨selectWorker_precedes same fits, ?_⟩
  rintro ⟨b, hb, rfl, hfirst⟩
  have hsome : selectWorker cs ≠ none := by
    rw [ne_eq, selectWorker_eq_none_iff]
    exact List.ne_nil_of_mem hb
  obtain ⟨id, hid⟩ := Option.ne_none_iff_exists'.1 hsome
  obtain ⟨b', hb', rfl, hfirst'⟩ := selectWorker_precedes same fits hid
  rw [hid, (hfirst b' hb').id_eq (hfirst' b hb)]

/-- Among candidates of whom those of one specialty need the same time, and none of whom would be
done later than the largest 64-bit number, a worker is chosen unless there is none: the one that
would be done first, of several that one with the lowest number. The order of the candidates does
not matter, and their numbers need not be distinct. -/
theorem earliest_finish_selected (cs : List Candidate) (same : SameTimes cs)
    (fits : ∀ c ∈ cs, c.finish ≤ Decimal.maxWord) :
    (selectWorker cs = none ↔ cs = []) ∧
    (∀ id, selectWorker cs = some id ↔
      ∃ b ∈ cs, b.id = id ∧ ∀ c ∈ cs, b.finish < c.finish ∨ b.finish = c.finish ∧ b.id ≤ c.id) ∧
    ∀ cs', cs'.Perm cs → selectWorker cs' = selectWorker cs := by
  refine ⟨selectWorker_eq_none_iff cs, selectWorker_eq_some_iff same fits, fun cs' hperm => ?_⟩
  have same' : SameTimes cs' := fun b hb c hc =>
    same b (hperm.mem_iff.1 hb) c (hperm.mem_iff.1 hc)
  have fits' : ∀ c ∈ cs', c.finish ≤ Decimal.maxWord := fun c hc => fits c (hperm.mem_iff.1 hc)
  ext id
  rw [selectWorker_eq_some_iff same' fits', selectWorker_eq_some_iff same fits]
  simp only [hperm.mem_iff]

/-- Three candidates would be done at the same time, two of one specialty and one of the other. The
one chosen is not the least loaded. -/
theorem earliest_finish_selected_tie :
    let cs : List Candidate := [⟨5, .a, 6, 2⟩, ⟨3, .a, 2, 2⟩, ⟨2, .a, 2, 2⟩, ⟨4, .b, 0, 4⟩]
    SameTimes cs ∧ (∀ c ∈ cs, c.finish ≤ Decimal.maxWord) ∧ selectWorker cs = some 2 ∧
      ∀ cs', cs'.Perm cs → selectWorker cs' = some 2 := by
  intro cs
  have same : SameTimes cs := by
    unfold SameTimes
    decide
  have fits : ∀ c ∈ cs, c.finish ≤ Decimal.maxWord := by decide
  obtain ⟨-, hchosen, hperm⟩ := earliest_finish_selected cs same fits
  have hfirst : selectWorker cs = some 2 := (hchosen 2).2 (by decide)
  exact ⟨same, fits, hfirst, fun cs' h => (hperm cs' h).trans hfirst⟩

end JobBroker
