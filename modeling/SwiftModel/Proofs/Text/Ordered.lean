/- Putting texts in order neither adds a member nor loses one, and makes one list of all that have the
same members. -/
import Mathlib.Data.List.Sort
import Mathlib.Data.String.Basic
import Mathlib.Tactic.Tauto
import SwiftModel.Text.Ordered

namespace SwiftModel.Text

theorem mem_eraseRepsBy_loop {α : Type} [BEq α] [LawfulBEq α] {x a : α} {rest found : List α} :
    x ∈ List.eraseRepsBy.loop (· == ·) a rest found ↔ x = a ∨ x ∈ rest ∨ x ∈ found := by
  induction rest generalizing a found with
  | nil => simp [List.eraseRepsBy.loop, or_comm]
  | cons b rest ih =>
      rw [List.eraseRepsBy.loop]
      split
      next same =>
        rw [ih, eq_of_beq same, List.mem_cons]
        tauto
      next =>
        rw [ih, List.mem_cons, List.mem_cons]
        tauto

theorem mem_eraseReps {α : Type} [BEq α] [LawfulBEq α] {x : α} {list : List α} :
    x ∈ list.eraseReps ↔ x ∈ list := by
  cases list with
  | nil => exact Iff.rfl
  | cons a rest =>
      rw [List.eraseReps, List.eraseRepsBy, mem_eraseRepsBy_loop, List.mem_cons]
      simp only [List.not_mem_nil, or_false]

theorem mem_ordered {text : String} {texts : List String} :
    text ∈ ordered texts ↔ text ∈ texts := by
  rw [ordered, mem_eraseReps, List.mem_mergeSort]

theorem eraseRepsBy_loop_eq {α : Type} [BEq α] (a : α) (rest found : List α) :
    List.eraseRepsBy.loop (· == ·) a rest found =
      found.reverse ++ List.eraseRepsBy.loop (· == ·) a rest [] := by
  induction rest generalizing a found with
  | nil => simp [List.eraseRepsBy.loop]
  | cons b rest ih =>
      rw [List.eraseRepsBy.loop, List.eraseRepsBy.loop]
      cases a == b with
      | true => exact ih a found
      | false =>
          rw [ih b (a :: found), ih b [a]]
          simp

theorem eraseReps_cons_cons (a b : String) (rest : List String) :
    (a :: b :: rest).eraseReps =
      if a = b then (b :: rest).eraseReps else a :: (b :: rest).eraseReps := by
  rw [List.eraseReps, List.eraseRepsBy, List.eraseRepsBy.loop]
  by_cases same : a = b
  · subst same
    rw [beq_self_eq_true, if_pos rfl]
    rfl
  · rw [beq_eq_false_iff_ne.mpr same, if_neg same]
    exact eraseRepsBy_loop_eq b rest [a]

theorem pairwise_lt_eraseReps {texts : List String} (sorted : texts.Pairwise (· ≤ ·)) :
    texts.eraseReps.Pairwise (· < ·) := by
  induction texts with
  | nil => exact .nil
  | cons a rest ih =>
      cases rest with
      | nil => exact List.pairwise_singleton _ a
      | cons b rest =>
          obtain ⟨least, tail⟩ := List.pairwise_cons.mp sorted
          rw [eraseReps_cons_cons]
          split
          · exact ih tail
          next other =>
            refine .cons ?_ (ih tail)
            intro text member
            have first : a < b := lt_of_le_of_ne (least b List.mem_cons_self) other
            rcases List.mem_cons.mp (mem_eraseReps.mp member) with rfl | later
            · exact first
            · exact lt_of_lt_of_le first ((List.pairwise_cons.mp tail).1 text later)

theorem pairwise_mergeSort {α : Type} (key : α → String) (list : List α) :
    (list.mergeSort fun a b => decide (key a ≤ key b)).Pairwise fun a b => key a ≤ key b := by
  have sorted : (list.mergeSort fun a b => decide (key a ≤ key b)).Pairwise fun a b =>
      decide (key a ≤ key b) := by
    apply List.pairwise_mergeSort
    · intro a b c h h'
      exact decide_eq_true (le_trans (of_decide_eq_true h) (of_decide_eq_true h'))
    · intro a b
      simpa using le_total (key a) (key b)
  exact sorted.imp of_decide_eq_true

theorem pairwise_lt_ordered (texts : List String) : (ordered texts).Pairwise (· < ·) := by
  apply pairwise_lt_eraseReps
  exact pairwise_mergeSort id texts

/-- Neither the order of texts nor how often each occurs makes a difference. -/
theorem ordered_congr {texts others : List String} (same : ∀ text, text ∈ texts ↔ text ∈ others) :
    ordered texts = ordered others := by
  apply List.Subset.antisymm_of_pairwise (pairwise_lt_ordered texts) (pairwise_lt_ordered others)
  · intro text member
    exact mem_ordered.mpr ((same text).mp (mem_ordered.mp member))
  · intro text member
    exact mem_ordered.mpr ((same text).mpr (mem_ordered.mp member))

end SwiftModel.Text
