/- Names made distinct are as many as before, differ from each other, and are the names they were
with underscores behind them. -/
import Mathlib.Data.List.Forall2
import SwiftModel.Identifier.Distinct

namespace SwiftModel.Identifier

/-- The used names that are no shorter than a name; each underscore leaves fewer of them. -/
def blockers (used : List String) (name : String) : Nat :=
  used.countP fun u => decide (name.length ≤ u.length)

theorem blockers_push_lt {used : List String} {name : String} (h : name ∈ used) :
    blockers used (name.push '_') < blockers used name := by
  have longer : ∀ us : List String, blockers us (name.push '_') ≤ blockers us name := by
    intro us
    apply List.countP_mono_left
    intro u _ hu
    simp only [String.length_push, decide_eq_true_eq] at hu ⊢
    omega
  induction used with
  | nil => cases h
  | cons u us ih =>
      simp only [blockers, List.countP_cons, String.length_push] at ih longer ⊢
      rcases List.mem_cons.mp h with rfl | later
      · have := longer us
        simp only [Nat.not_succ_le_self, Nat.le_refl, decide_false, decide_true, Bool.false_eq_true,
          if_true, if_false]
        omega
      · have := ih later
        by_cases hu : name.length + 1 ≤ u.length
        · have hw : name.length ≤ u.length := by omega
          simp only [hu, hw, decide_true, if_true]
          omega
        · simp only [hu, decide_false, Bool.false_eq_true, if_false]
          omega

theorem freshWithin_not_mem {used : List String} {attempts : Nat} {name : String}
    (h : blockers used name ≤ attempts) : freshWithin used attempts name ∉ used := by
  induction attempts generalizing name with
  | zero =>
      intro member
      have := blockers_push_lt member
      simp only [freshWithin] at this
      omega
  | succ attempts ih =>
      rw [freshWithin]
      split
      next taken =>
        have := blockers_push_lt (List.contains_iff_mem.mp taken)
        exact ih (by omega)
      next free => exact fun member => free (List.contains_iff_mem.mpr member)

theorem fresh_not_mem (used : List String) (name : String) : fresh used name ∉ used :=
  freshWithin_not_mem List.countP_le_length

theorem freshWithin_eq (used : List String) (attempts : Nat) (name : String) :
    ∃ k, (freshWithin used attempts name).toList = name.toList ++ List.replicate k '_' := by
  induction attempts generalizing name with
  | zero => exact ⟨0, by rw [freshWithin, List.replicate_zero, List.append_nil]⟩
  | succ attempts ih =>
      rw [freshWithin]
      split
      next =>
        obtain ⟨k, hk⟩ := ih (name.push '_')
        refine ⟨k + 1, ?_⟩
        rw [hk, String.toList_push, List.append_assoc, List.singleton_append, List.replicate_succ]
      next => exact ⟨0, by rw [List.replicate_zero, List.append_nil]⟩

theorem fresh_eq (used : List String) (name : String) :
    ∃ k, (fresh used name).toList = name.toList ++ List.replicate k '_' :=
  freshWithin_eq used used.length name

theorem freshWithin_of_not_mem {used : List String} {name : String} (h : name ∉ used)
    (attempts : Nat) : freshWithin used attempts name = name := by
  cases attempts with
  | zero => rfl
  | succ attempts =>
      rw [freshWithin, if_neg fun taken => h (List.contains_iff_mem.mp taken)]

theorem fresh_of_not_mem {used : List String} {name : String} (h : name ∉ used) :
    fresh used name = name := freshWithin_of_not_mem h _

theorem length_distinctFrom (used names : List String) :
    (distinctFrom used names).length = names.length := by
  induction names generalizing used with
  | nil => rfl
  | cons name names ih => exact congrArg Nat.succ (ih _)

theorem length_distinct (names : List String) : (distinct names).length = names.length :=
  length_distinctFrom [] names

theorem not_mem_distinctFrom {used : List String} {name : String} (h : name ∈ used)
    (names : List String) : name ∉ distinctFrom used names := by
  induction names generalizing used with
  | nil => exact List.not_mem_nil
  | cons next names ih =>
      intro member
      rw [distinctFrom] at member
      rcases List.mem_cons.mp member with same | later
      · exact fresh_not_mem used next (same ▸ h)
      · exact ih (List.mem_cons_of_mem _ h) later

theorem nodup_distinctFrom (used names : List String) : (distinctFrom used names).Nodup := by
  induction names generalizing used with
  | nil => exact List.nodup_nil
  | cons name names ih =>
      exact List.nodup_cons.mpr ⟨not_mem_distinctFrom List.mem_cons_self names, ih _⟩

theorem nodup_distinct (names : List String) : (distinct names).Nodup := nodup_distinctFrom [] names

/-- Each of the distinct names is the given one at its place, with underscores behind it. -/
theorem forall₂_distinctFrom (used names : List String) :
    List.Forall₂ (fun name chosen => ∃ k, chosen.toList = name.toList ++ List.replicate k '_') names
      (distinctFrom used names) := by
  induction names generalizing used with
  | nil => exact .nil
  | cons name names ih => exact .cons (fresh_eq used name) (ih _)

/-- Each of the distinct names is one of the given names with underscores behind it. -/
theorem mem_distinctFrom {used names : List String} {chosen : String}
    (h : chosen ∈ distinctFrom used names) :
    ∃ name ∈ names, ∃ k, chosen.toList = name.toList ++ List.replicate k '_' := by
  induction names generalizing used with
  | nil => cases h
  | cons name names ih =>
      rw [distinctFrom] at h
      rcases List.mem_cons.mp h with rfl | later
      · exact ⟨name, List.mem_cons_self, fresh_eq used name⟩
      · obtain ⟨other, member, hk⟩ := ih later
        exact ⟨other, List.mem_cons_of_mem name member, hk⟩

/-- A given name is used in the end, by the first to ask for it. -/
theorem mem_distinctFrom_of_mem {used names : List String} {name : String} (h : name ∈ names) :
    name ∈ used ∨ name ∈ distinctFrom used names := by
  induction names generalizing used with
  | nil => cases h
  | cons next names ih =>
      rw [distinctFrom]
      by_cases taken : name ∈ used
      · exact .inl taken
      · right
        rcases List.mem_cons.mp h with rfl | later
        · rw [fresh_of_not_mem taken]
          exact List.mem_cons_self
        · exact (ih later).elim
            (fun same => (List.mem_cons.mp same).elim (fun eq => eq ▸ List.mem_cons_self)
              fun before => absurd before taken)
            (List.mem_cons_of_mem _)

/-- A name that ends otherwise than in an underscore is among the distinct names exactly if it was
among the names. -/
theorem mem_distinct_iff {names : List String} {name : String}
    (ending : name.toList.getLast? ≠ some '_') : name ∈ distinct names ↔ name ∈ names := by
  constructor
  · intro h
    obtain ⟨given, member, k, hk⟩ := mem_distinctFrom h
    cases k with
    | zero =>
        rw [List.replicate_zero, List.append_nil, String.toList_inj] at hk
        exact hk ▸ member
    | succ k =>
        rw [hk, List.replicate_succ', ← List.append_assoc, List.getLast?_append] at ending
        exact absurd rfl ending
  · exact fun h => (mem_distinctFrom_of_mem h).resolve_left List.not_mem_nil

end SwiftModel.Identifier
