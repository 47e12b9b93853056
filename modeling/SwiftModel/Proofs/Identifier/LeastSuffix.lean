/- Names made distinct by the fewest underscores. The search for a free name ends, and what it ends with at
each place is said by the names before it alone, so that no other list of names will do. -/
import Mathlib.Order.Bounds.Basic
import SwiftModel.Proofs.Identifier.Distinct

namespace SwiftModel.Identifier

/-- A name with so many underscores behind it. -/
def lengthened (name : String) (count : Nat) : String := name ++ .ofList (List.replicate count '_')

/-- The search for a free name, in so many turns: while the name is taken, it grows an underscore. -/
inductive Search (taken : List String) : Nat → String → String → Prop
  | free {name : String} : name ∉ taken → Search taken 0 name name
  | turn {name found : String} {turns : Nat} : name ∈ taken → Search taken turns (name.push '_') found →
    Search taken (turns + 1) name found

/-- The names that are chosen for given ones: as many, and each is the given name at its place with the
least number of underscores that keeps it out of the names chosen before. -/
structure Chosen (names chosen : List String) : Prop where
  length : chosen.length = names.length
  each : ∀ index name, names[index]? = some name → ∃ count, chosen[index]? = some (lengthened name count) ∧
    IsLeast {other | lengthened name other ∉ chosen.take index} count

variable {taken : List String} {name found : String} {turns : Nat}

@[simp] theorem toList_lengthened (name : String) (count : Nat) :
    (lengthened name count).toList = name.toList ++ List.replicate count '_' := by
  simp [lengthened]

@[simp] theorem lengthened_zero (name : String) : lengthened name 0 = name := by
  simp [← String.toList_inj]

theorem lengthened_push (name : String) (count : Nat) :
    lengthened (name.push '_') count = lengthened name (count + 1) := by
  rw [← String.toList_inj]
  simp [List.replicate_succ]

/-- The search ends where the fewest underscores are behind the name that make it free. -/
theorem search_iff :
    Search taken turns name found ↔
      found = lengthened name turns ∧ IsLeast {count | lengthened name count ∉ taken} turns := by
  constructor
  · intro search
    induction search with
    | free absent =>
        refine ⟨(lengthened_zero _).symm, ?_, fun _ _ => Nat.zero_le _⟩
        rwa [Set.mem_ofPred_eq, lengthened_zero]
    | @turn name found turns present _ ih =>
        obtain ⟨same, free, least⟩ := ih
        rw [Set.mem_ofPred_eq, lengthened_push] at free
        refine ⟨same.trans (lengthened_push name turns), free, ?_⟩
        intro count absent
        cases count with
        | zero =>
            rw [Set.mem_ofPred_eq, lengthened_zero] at absent
            exact absurd present absent
        | succ count =>
            apply Nat.succ_le_succ
            apply least
            rwa [Set.mem_ofPred_eq, lengthened_push]
  · rintro ⟨rfl, free, least⟩
    induction turns generalizing name with
    | zero =>
        rw [Set.mem_ofPred_eq, lengthened_zero] at free
        rw [lengthened_zero]
        exact .free free
    | succ turns ih =>
        have present : name ∈ taken := by
          by_contra absent
          rw [← lengthened_zero name] at absent
          exact absurd (least absent) (Nat.not_succ_le_zero turns)
        rw [Set.mem_ofPred_eq, ← lengthened_push] at free
        rw [← lengthened_push]
        refine .turn present (ih free ?_)
        intro count absent
        rw [Set.mem_ofPred_eq, lengthened_push] at absent
        exact Nat.le_of_succ_le_succ (least absent)

theorem Search.congr {others : List String} (search : Search taken turns name found)
    (same : ∀ text, text ∈ taken ↔ text ∈ others) : Search others turns name found := by
  simpa only [search_iff, same] using search

theorem search_freshWithin {attempts : Nat} (free : freshWithin taken attempts name ∉ taken) :
    ∃ turns, Search taken turns name (freshWithin taken attempts name) := by
  induction attempts generalizing name with
  | zero => exact ⟨0, .free free⟩
  | succ attempts ih =>
      rw [freshWithin] at free ⊢
      by_cases present : name ∈ taken
      · rw [if_pos (List.contains_iff_mem.mpr present)] at free ⊢
        obtain ⟨turns, search⟩ := ih free
        exact ⟨turns + 1, .turn present search⟩
      · rw [if_neg fun contained => present (List.contains_iff_mem.mp contained)]
        exact ⟨0, .free present⟩

/-- From every name the search ends, since only so many names are taken. -/
theorem search_fresh (taken : List String) (name : String) :
    ∃ turns, Search taken turns name (fresh taken name) := search_freshWithin (fresh_not_mem taken name)

theorem search_distinctFrom {used names : List String} {index : Nat} (given : names[index]? = some name) :
    ∃ turns found, (distinctFrom used names)[index]? = some found ∧
      Search ((distinctFrom used names).take index ++ used) turns name found := by
  induction names generalizing used index with
  | nil => cases given
  | cons first names ih =>
      rw [distinctFrom]
      cases index with
      | zero =>
          cases given
          obtain ⟨turns, search⟩ := search_fresh used name
          exact ⟨turns, _, rfl, search⟩
      | succ index =>
          obtain ⟨turns, found, chosen, search⟩ := ih given
          refine ⟨turns, found, chosen, search.congr fun text => ?_⟩
          simp only [List.take_succ_cons, List.mem_append, List.mem_cons, or_left_comm, List.cons_append]

theorem search_distinct {names : List String} {index : Nat} (given : names[index]? = some name) :
    ∃ turns found, (distinct names)[index]? = some found ∧
      Search ((distinct names).take index) turns name found := by
  obtain ⟨turns, found, chosen, search⟩ := search_distinctFrom given
  rw [List.append_nil] at search
  exact ⟨turns, found, chosen, search⟩

theorem chosen_distinct (names : List String) : Chosen names (distinct names) := by
  refine ⟨length_distinct names, fun index name given => ?_⟩
  obtain ⟨turns, found, chosen, search⟩ := search_distinct given
  obtain ⟨rfl, least⟩ := search_iff.mp search
  exact ⟨turns, chosen, least⟩

/-- Place by place: what is chosen so far is the same, and so is the least number. -/
theorem Chosen.unique {names chosen others : List String} (h : Chosen names chosen)
    (h' : Chosen names others) : chosen = others := by
  have fronts : ∀ index, chosen.take index = others.take index := by
    intro index
    induction index with
    | zero => rfl
    | succ index ih =>
        rw [List.take_add_one, List.take_add_one, ih]
        by_cases inside : index < names.length
        · obtain ⟨count, first, least⟩ := h.each index _ (List.getElem?_eq_getElem inside)
          obtain ⟨count', second, least'⟩ := h'.each index _ (List.getElem?_eq_getElem inside)
          rw [ih] at least
          rw [first, second, least.unique least']
        · rw [List.getElem?_eq_none (h.length ▸ Nat.not_lt.mp inside),
            List.getElem?_eq_none (h'.length ▸ Nat.not_lt.mp inside)]
  have whole := fronts names.length
  rwa [List.take_of_length_le (Nat.le_of_eq h.length),
    List.take_of_length_le (Nat.le_of_eq h'.length)] at whole

theorem distinctFrom_of_nodup {used names : List String} (distinct : names.Nodup)
    (apart : ∀ name ∈ names, name ∉ used) : distinctFrom used names = names := by
  induction names generalizing used with
  | nil => rfl
  | cons first names ih =>
      obtain ⟨absent, rest⟩ := List.nodup_cons.mp distinct
      rw [distinctFrom, fresh_of_not_mem (apart first List.mem_cons_self), ih rest]
      intro name later present
      rcases List.mem_cons.mp present with rfl | before
      · exact absent later
      · exact apart name (List.mem_cons_of_mem first later) before

theorem distinct_of_nodup {names : List String} (h : names.Nodup) : distinct names = names :=
  distinctFrom_of_nodup h fun _ _ => List.not_mem_nil

theorem distinctFrom_take (used names : List String) (count : Nat) :
    distinctFrom used (names.take count) = (distinctFrom used names).take count := by
  induction names generalizing used count with
  | nil => simp [distinctFrom]
  | cons first names ih =>
      cases count with
      | zero => rfl
      | succ count => exact congrArg (List.cons _) (ih _ count)

/-- What is asked of names made distinct determines them: the search at each place ends with the chosen
name, no two are equal, distinct names stay as they are, also the second time, and a front of the names has
the front of what is chosen. -/
theorem distinct_eq_iff_chosen (names : List String) :
    (∀ chosen, distinct names = chosen ↔ Chosen names chosen) ∧
      (∀ index name, names[index]? = some name → ∃ turns found, (distinct names)[index]? = some found ∧
        Search ((distinct names).take index) turns name found) ∧
      (distinct names).Nodup ∧ (distinct names = names ↔ names.Nodup) ∧
      distinct (distinct names) = distinct names ∧
      ∀ count, distinct (names.take count) = (distinct names).take count := by
  refine ⟨fun chosen => ?_, fun _ _ => search_distinct, nodup_distinct names, ?_,
    distinct_of_nodup (nodup_distinct names), distinctFrom_take [] names⟩
  · constructor
    · rintro rfl
      exact chosen_distinct names
    · exact (chosen_distinct names).unique
  · constructor
    · intro same
      rw [← same]
      exact nodup_distinct names
    · exact distinct_of_nodup

/-- A name that has grown stands in the way of the next one. -/
def crowded : List String := ["a", "a", "a_"]

/-- The last name is searched for among the ones before it, and finds the next place free. -/
theorem distinct_eq_iff_chosen_crowded :
    distinct crowded = ["a", "a_", "a__"] ∧ crowded[2]? = some "a_" ∧
      ∃ turns found, (distinct crowded)[2]? = some found ∧
        Search ((distinct crowded).take 2) turns "a_" found :=
  ⟨by decide +kernel, rfl, (distinct_eq_iff_chosen crowded).2.1 2 "a_" rfl⟩

end SwiftModel.Identifier
