import JobBroker.Placement

/-! The choice among candidates: one of them is chosen, unless there is none. -/
namespace JobBroker

namespace Candidate

theorem better_cases (key : Candidate → Nat) (best : Option Candidate) (c : Candidate) :
    better key best c = some c ∨ (better key best c = best ∧ best ≠ none) := by
  cases best with
  | none => exact .inl rfl
  | some b =>
    unfold better
    dsimp only
    split
    · exact .inl rfl
    · exact .inr ⟨rfl, Option.some_ne_none b⟩

theorem mem_of_foldl_better {key : Candidate → Nat} {cs : List Candidate} {best : Option Candidate}
    {c : Candidate} (h : cs.foldl (better key) best = some c) : c ∈ cs ∨ best = some c := by
  induction cs generalizing best with
  | nil => exact .inr h
  | cons next cs ih =>
    obtain hmem | hbest := ih h
    · exact .inl (List.mem_cons_of_mem _ hmem)
    · obtain hnext | ⟨hkept, -⟩ := better_cases key best next
      · rw [hnext, Option.some.injEq] at hbest
        exact .inl (hbest ▸ List.mem_cons_self ..)
      · exact .inr (hkept ▸ hbest)

theorem foldl_better_ne_none {key : Candidate → Nat} (cs : List Candidate)
    {best : Option Candidate} (h : best ≠ none) : cs.foldl (better key) best ≠ none := by
  induction cs generalizing best with
  | nil => exact h
  | cons next cs ih =>
    refine ih ?_
    obtain hnext | ⟨hkept, hsome⟩ := better_cases key best next
    · rw [hnext]
      exact Option.some_ne_none next
    · rwa [hkept]

theorem mem_of_least? {key : Candidate → Nat} {cs : List Candidate} {c : Candidate}
    (h : least? key cs = some c) : c ∈ cs := (mem_of_foldl_better h).resolve_right nofun

theorem least?_eq_none_iff (key : Candidate → Nat) (cs : List Candidate) :
    least? key cs = none ↔ cs = [] := by
  cases cs with
  | nil => exact ⟨fun _ => rfl, fun _ => rfl⟩
  | cons c cs =>
    have hsome : least? key (c :: cs) ≠ none := foldl_better_ne_none cs (Option.some_ne_none c)
    exact ⟨fun h => absurd h hsome, nofun⟩

theorem mem_of_leastLoaded? {cs : List Candidate} {specialty : JobType} {c : Candidate}
    (h : leastLoaded? cs specialty = some c) : c ∈ cs := (List.mem_filter.1 (mem_of_least? h)).1

theorem leastLoaded?_eq_none_iff (cs : List Candidate) (specialty : JobType) :
    leastLoaded? cs specialty = none ↔ ∀ c ∈ cs, c.specialty ≠ specialty := by
  rw [leastLoaded?, least?_eq_none_iff, List.filter_eq_nil_iff]
  simp only [beq_iff_eq, ne_eq]

end Candidate

open Candidate

theorem mem_of_selectWorker {cs : List Candidate} {id : Nat} (h : selectWorker cs = some id) :
    ∃ c ∈ cs, c.id = id := by
  obtain ⟨c, hleast, rfl⟩ := Option.map_eq_some_iff.1 h
  refine ⟨c, ?_, rfl⟩
  obtain ha | hb := List.mem_append.1 (mem_of_least? hleast)
  · exact mem_of_leastLoaded? (Option.mem_toList.1 ha)
  · exact mem_of_leastLoaded? (Option.mem_toList.1 hb)

theorem selectWorker_eq_none_iff (cs : List Candidate) : selectWorker cs = none ↔ cs = [] := by
  rw [selectWorker, Option.map_eq_none_iff, least?_eq_none_iff, List.append_eq_nil_iff,
    Option.toList_eq_nil_iff, Option.toList_eq_nil_iff, leastLoaded?_eq_none_iff,
    leastLoaded?_eq_none_iff]
  constructor
  · rintro ⟨ha, hb⟩
    refine List.eq_nil_iff_forall_not_mem.2 fun c hc => ?_
    cases hspecialty : c.specialty with
    | a => exact ha c hc hspecialty
    | b => exact hb c hc hspecialty
  · rintro rfl
    exact ⟨nofun, nofun⟩

end JobBroker
