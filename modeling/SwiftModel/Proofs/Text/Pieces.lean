/- A separator that occurs in no piece can be cut at again. -/
import SwiftModel.Text.Pieces

namespace SwiftModel.Text

theorem pieces_ne_nil (sep : Char) (cs : List Char) : pieces sep cs ≠ [] := by
  cases cs with
  | nil => exact List.cons_ne_nil _ _
  | cons c cs =>
      rw [pieces]
      split
      · exact List.cons_ne_nil _ _
      · split <;> exact List.cons_ne_nil _ _

theorem pieces_append_cons (sep : Char) (cs rest : List Char) :
    pieces sep (cs ++ sep :: rest) = pieces sep cs ++ pieces sep rest := by
  induction cs with
  | nil =>
      change pieces sep (sep :: rest) = [] :: pieces sep rest
      rw [pieces, if_pos rfl]
  | cons c cs ih =>
      rw [List.cons_append, pieces, pieces, ih]
      split
      · rfl
      · obtain ⟨piece, others, same⟩ := List.exists_cons_of_ne_nil (pieces_ne_nil sep cs)
        rw [same]
        rfl

theorem pieces_of_not_mem {sep : Char} {cs : List Char} (h : sep ∉ cs) : pieces sep cs = [cs] := by
  induction cs with
  | nil => rfl
  | cons c cs ih =>
      have hc : c ≠ sep := fun same => h (same ▸ List.mem_cons_self)
      rw [pieces, if_neg hc, ih fun member => h (List.mem_cons_of_mem c member)]

theorem pieces_append_sep {sep : Char} {cs : List Char} (h : sep ∉ cs) (rest : List Char) :
    pieces sep (cs ++ sep :: rest) = cs :: pieces sep rest := by
  rw [pieces_append_cons, pieces_of_not_mem h, List.singleton_append]

/-- Parts that are joined by a separator which none of them holds come back. -/
theorem pieces_intercalate {sep : Char} {part : List Char} {parts : List (List Char)}
    (h : ∀ p ∈ part :: parts, sep ∉ p) :
    pieces sep ([sep].intercalate (part :: parts)) = part :: parts := by
  induction parts generalizing part with
  | nil =>
      rw [List.intercalate_singleton]
      exact pieces_of_not_mem (h part List.mem_cons_self)
  | cons next parts ih =>
      rw [List.intercalate_cons_cons, List.append_assoc, List.singleton_append,
        pieces_append_sep (h part List.mem_cons_self),
        ih fun p member => h p (List.mem_cons_of_mem part member)]

/-- Nothing but the separators is lost where a text is cut. -/
theorem intercalate_pieces (sep : Char) (cs : List Char) :
    [sep].intercalate (pieces sep cs) = cs := by
  induction cs with
  | nil => rfl
  | cons c cs ih =>
      rw [pieces]
      split
      next same =>
        rw [List.intercalate_cons_of_ne_nil (pieces_ne_nil sep cs), ih, same]
        rfl
      next =>
        split
        next none => rw [none] at ih; rw [← ih]; rfl
        next first rest some =>
          rw [some] at ih
          cases rest with
          | nil => rw [List.intercalate_singleton] at ih ⊢; rw [ih]
          | cons second rest =>
              rw [List.intercalate_cons_cons] at ih ⊢
              rw [List.cons_append, List.cons_append, ih]

/-- Cutting takes out the separators and nothing else. -/
theorem flatten_pieces (sep : Char) (cs : List Char) :
    (pieces sep cs).flatten = cs.filter (· != sep) := by
  induction cs with
  | nil => rfl
  | cons c cs ih =>
      rw [pieces]
      split
      next same => simp [same, ih]
      next other =>
        have kept : (c :: cs).filter (· != sep) = c :: (pieces sep cs).flatten := by
          rw [ih]
          exact List.filter_cons_of_pos (bne_iff_ne.mpr other)
        rw [kept]
        split
        next none => rw [none]; rfl
        next first rest some => rw [some]; rfl

/-- Lines that each end with the separator come back, with an empty piece behind the last. -/
theorem pieces_flatMap {sep : Char} {lines : List (List Char)} (h : ∀ line ∈ lines, sep ∉ line) :
    pieces sep (lines.flatMap (· ++ [sep])) = lines ++ [[]] := by
  induction lines with
  | nil => rfl
  | cons line lines ih =>
      rw [List.flatMap_cons, List.append_assoc, List.singleton_append,
        pieces_append_sep (h line List.mem_cons_self),
        ih fun other member => h other (List.mem_cons_of_mem line member)]
      rfl

theorem mem_pieces {sep c : Char} {cs : List Char} (h : c ∈ cs) :
    c = sep ∨ ∃ piece ∈ pieces sep cs, c ∈ piece := by
  induction cs with
  | nil => cases h
  | cons d cs ih =>
      rw [pieces]
      split
      next hd =>
        rcases List.mem_cons.mp h with rfl | member
        · exact .inl hd
        · exact (ih member).imp id fun ⟨piece, hp, hc⟩ => ⟨piece, List.mem_cons_of_mem _ hp, hc⟩
      next hd =>
        rcases List.mem_cons.mp h with rfl | member
        · right
          split
          next => exact ⟨_, List.mem_singleton_self _, List.mem_cons_self⟩
          next => exact ⟨_, List.mem_cons_self, List.mem_cons_self⟩
        · rcases ih member with same | ⟨piece, hp, hc⟩
          · exact .inl same
          · right
            split
            next none => rw [none] at hp; cases hp
            next first rest some =>
              rw [some] at hp
              rcases List.mem_cons.mp hp with rfl | later
              · exact ⟨_, List.mem_cons_self, List.mem_cons_of_mem _ hc⟩
              · exact ⟨piece, List.mem_cons_of_mem _ later, hc⟩

theorem sep_not_mem_of_mem_pieces {sep : Char} {cs piece : List Char} (hp : piece ∈ pieces sep cs) :
    sep ∉ piece := by
  induction cs generalizing piece with
  | nil =>
      rw [pieces, List.mem_singleton] at hp
      rw [hp]
      exact List.not_mem_nil
  | cons c cs ih =>
      rw [pieces] at hp
      split at hp
      next =>
        rcases List.mem_cons.mp hp with rfl | later
        · exact List.not_mem_nil
        · exact ih later
      next other =>
        split at hp
        next =>
          rw [List.mem_singleton] at hp
          simpa [hp] using Ne.symm other
        next first rest some =>
          rcases List.mem_cons.mp hp with rfl | later
          · rw [List.mem_cons, not_or]
            exact ⟨Ne.symm other, ih (some ▸ List.mem_cons_self)⟩
          · exact ih (some ▸ List.mem_cons_of_mem first later)

theorem mem_of_mem_pieces {sep c : Char} {cs piece : List Char} (hp : piece ∈ pieces sep cs)
    (hc : c ∈ piece) : c ∈ cs := by
  induction cs generalizing piece with
  | nil =>
      rw [pieces, List.mem_singleton] at hp
      subst hp
      exact hc
  | cons d cs ih =>
      rw [pieces] at hp
      split at hp
      next =>
        rcases List.mem_cons.mp hp with rfl | later
        · cases hc
        · exact List.mem_cons_of_mem d (ih later hc)
      next =>
        split at hp
        next =>
          rw [List.mem_singleton] at hp
          subst hp
          rw [List.mem_singleton] at hc
          exact hc ▸ List.mem_cons_self
        next first rest some =>
          rcases List.mem_cons.mp hp with rfl | later
          · rcases List.mem_cons.mp hc with rfl | inside
            · exact List.mem_cons_self
            · exact List.mem_cons_of_mem d (ih (some ▸ List.mem_cons_self) inside)
          · exact List.mem_cons_of_mem d (ih (some ▸ List.mem_cons_of_mem first later) hc)

end SwiftModel.Text
