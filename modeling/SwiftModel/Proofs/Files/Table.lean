/- What is filed in a table is found in it again, and items that are grouped are together with all those of
their path. -/
import Mathlib.Data.List.Induction
import SwiftModel.Files.Table

namespace SwiftModel.Files.Table

section Alter

variable {α : Type} {table : Table α} {entry other : Path × α} {path at_ : Path} {change : Option α → α}

theorem isFor_iff : isFor path entry = true ↔ entry.1.components = path.components := beq_iff_eq

theorem value?_eq_some {value : α} (h : table.value? path = some value) :
    ∃ entry ∈ table, entry.1.components = path.components ∧ entry.2 = value := by
  obtain ⟨entry, found, same⟩ := Option.map_eq_some_iff.mp h
  exact ⟨entry, List.mem_of_find?_eq_some found, isFor_iff.mp (List.find?_some found), same⟩

theorem exists_value?_eq_some (member : entry ∈ table) (same : entry.1.components = path.components) :
    ∃ value, table.value? path = some value := by
  have found : (table.find? (isFor path)).isSome :=
    List.find?_isSome.mpr ⟨entry, member, isFor_iff.mpr same⟩
  obtain ⟨first, found⟩ := Option.isSome_iff_exists.mp found
  exact ⟨first.2, congrArg (Option.map Prod.snd) found⟩

theorem mem_place : other ∈ place entry table ↔ other = entry ∨ other ∈ table := by
  induction table with
  | nil => rw [place, List.mem_singleton, or_iff_left List.not_mem_nil]
  | cons first table ih =>
      rw [place]
      split
      · exact List.mem_cons
      · rw [List.mem_cons, ih, List.mem_cons, or_left_comm]

/-- An entry of a table that is altered at a path is one for another path, or the one that is changed, or
the one that is new. -/
theorem mem_alter : other ∈ table.alter path change ↔
    other ∈ table ∧ ¬ isFor path other = true ∨
    (∃ entry ∈ table, isFor path entry = true ∧ other = (entry.1, change (some entry.2))) ∨
    (∀ entry ∈ table, ¬ isFor path entry = true) ∧ other = (path, change none) := by
  rw [alter]
  split
  next found =>
    have some : ¬ ∀ entry ∈ table, ¬ isFor path entry = true := by
      obtain ⟨entry, member, same⟩ := List.any_eq_true.mp found
      exact fun none => none entry member same
    rw [List.mem_map]
    constructor
    · rintro ⟨entry, member, rfl⟩
      by_cases same : isFor path entry = true
      · exact .inr (.inl ⟨entry, member, same, if_pos same⟩)
      · rw [if_neg same]
        exact .inl ⟨member, same⟩
    · rintro (⟨member, apart⟩ | ⟨entry, member, same, rfl⟩ | ⟨none, -⟩)
      · exact ⟨other, member, if_neg apart⟩
      · exact ⟨entry, member, if_pos same⟩
      · exact absurd none some
  next absent =>
    have none : ∀ entry ∈ table, ¬ isFor path entry = true := by
      intro entry member same
      exact absent (List.any_eq_true.mpr ⟨entry, member, same⟩)
    rw [mem_place]
    constructor
    · rintro (rfl | member)
      · exact .inr (.inr ⟨none, rfl⟩)
      · exact .inl ⟨member, none other member⟩
    · rintro (⟨member, -⟩ | ⟨entry, member, same, -⟩ | ⟨-, rfl⟩)
      · exact .inr member
      · exact absurd same (none entry member)
      · exact .inl rfl

theorem exists_isFor_alter (table : Table α) (path : Path) (change : Option α → α) :
    ∃ entry ∈ table.alter path change, isFor path entry = true := by
  by_cases found : ∀ entry ∈ table, ¬ isFor path entry = true
  · exact ⟨_, mem_alter.mpr (.inr (.inr ⟨found, rfl⟩)), isFor_iff.mpr rfl⟩
  · push Not at found
    obtain ⟨entry, member, same⟩ := found
    exact ⟨_, mem_alter.mpr (.inr (.inl ⟨entry, member, same, rfl⟩)), same⟩

/-- What is in a table for some path is still there when it is altered at any. -/
theorem exists_isFor_alter_of_mem (member : entry ∈ table) (same : isFor at_ entry = true) :
    ∃ entry ∈ table.alter path change, isFor at_ entry = true := by
  by_cases own : isFor path entry = true
  · exact ⟨_, mem_alter.mpr (.inr (.inl ⟨entry, member, own, rfl⟩)), same⟩
  · exact ⟨entry, mem_alter.mpr (.inl ⟨member, own⟩), same⟩

/-- However items are filed one after the other, there is something for the path of each at the end. -/
theorem exists_isFor_foldl {β : Type} (key : β → Path) (change : β → Option α → α) {items : List β} {item : β}
    (member : item ∈ items) :
    ∃ entry ∈ items.foldl (fun table item => alter table (key item) (change item)) [],
      isFor (key item) entry = true := by
  induction items using List.reverseRecOn with
  | nil => cases member
  | append_singleton items last ih =>
      rw [List.foldl_append]
      rcases List.mem_append.mp member with before | here
      · obtain ⟨entry, filed, own⟩ := ih before
        exact exists_isFor_alter_of_mem filed own
      · rw [List.mem_singleton.mp here]
        exact exists_isFor_alter _ _ _

end Alter

section Entries

variable {α : Type} {entries : List (Path × α)} {entry : Path × α} {path : Path} {value : α}

theorem ofEntries_concat (entries : List (Path × α)) (entry : Path × α) :
    ofEntries (entries ++ [entry]) = (ofEntries entries).alter entry.1 fun _ => entry.2 := by
  rw [ofEntries, List.foldl_append]
  rfl

/-- What is found under a path was filed under it, however that was written. -/
theorem exists_mem_of_value?_ofEntries (h : (ofEntries entries).value? path = some value) :
    ∃ source, (source, value) ∈ entries ∧ source.components = path.components := by
  have filed : ∀ other ∈ ofEntries entries, ∃ source, (source, other.2) ∈ entries ∧
      source.components = other.1.components := by
    clear h
    induction entries using List.reverseRecOn with
    | nil => exact fun _ member => nomatch member
    | append_singleton entries entry ih =>
        intro other member
        rw [ofEntries_concat] at member
        rcases mem_alter.mp member with ⟨before, -⟩ | ⟨old, -, same, rfl⟩ | ⟨-, rfl⟩
        · obtain ⟨source, listed, same⟩ := ih other before
          exact ⟨source, List.mem_append_left _ listed, same⟩
        · exact ⟨entry.1, List.mem_append_right _ List.mem_cons_self, (isFor_iff.mp same).symm⟩
        · exact ⟨entry.1, List.mem_append_right _ List.mem_cons_self, rfl⟩
  obtain ⟨other, member, same, rfl⟩ := value?_eq_some h
  obtain ⟨source, listed, own⟩ := filed other member
  exact ⟨source, listed, own.trans same⟩

theorem exists_value?_ofEntries (member : entry ∈ entries) (same : entry.1.components = path.components) :
    ∃ value, (ofEntries entries).value? path = some value := by
  obtain ⟨other, filed, own⟩ := exists_isFor_foldl Prod.fst (fun entry _ => entry.2) member
  exact exists_value?_eq_some filed ((isFor_iff.mp own).trans same)

end Entries

section Groups

variable {β : Type} {key : β → Path} {items : List β} {item : β} {group : Path × List β} {path other : Path}

/-- The items with a path, in order. -/
def itemsAt (key : β → Path) (items : List β) (path : Path) : List β :=
  items.filter fun item => (key item).components == path.components

theorem itemsAt_congr (same : path.components = other.components) :
    itemsAt key items path = itemsAt key items other := by rw [itemsAt, itemsAt, same]

theorem itemsAt_concat (key : β → Path) (items : List β) (item : β) (path : Path) :
    itemsAt key (items ++ [item]) path =
      itemsAt key items path ++ if (key item).components = path.components then [item] else [] := by
  rw [itemsAt, List.filter_append, List.filter_cons, List.filter_nil]
  simp only [beq_iff_eq]
  rfl

theorem grouped_concat (key : β → Path) (items : List β) (item : β) :
    grouped key (items ++ [item]) =
      (grouped key items).alter (key item) fun group => group.getD [] ++ [item] := by
  rw [grouped, List.foldl_append]
  rfl

theorem exists_mem_grouped (key : β → Path) (member : item ∈ items) :
    ∃ group ∈ grouped key items, group.1.components = (key item).components := by
  obtain ⟨group, filed, own⟩ := exists_isFor_foldl key (fun item group => group.getD [] ++ [item]) member
  exact ⟨group, filed, isFor_iff.mp own⟩

/-- A group has all the items of its path, and its path is written as that of the first is. -/
theorem itemsAt_of_mem_grouped (member : group ∈ grouped key items) :
    itemsAt key items group.1 = group.2 ∧ ∃ first rest, group = (key first, first :: rest) := by
  induction items using List.reverseRecOn generalizing group with
  | nil => cases member
  | append_singleton items item ih =>
      rw [grouped_concat] at member
      rw [itemsAt_concat]
      rcases mem_alter.mp member with ⟨before, apart⟩ | ⟨old, before, own, rfl⟩ | ⟨none, rfl⟩
      · obtain ⟨all, written⟩ := ih before
        rw [if_neg fun same => apart (isFor_iff.mpr same.symm), List.append_nil]
        exact ⟨all, written⟩
      · obtain ⟨all, first, rest, rfl⟩ := ih before
        rw [if_pos (isFor_iff.mp own).symm]
        exact ⟨congrArg (· ++ [item]) all, first, rest ++ [item], rfl⟩
      · have alone : itemsAt key items (key item) = [] := by
          rw [itemsAt, List.filter_eq_nil_iff]
          intro other listed same
          obtain ⟨group, filed, own⟩ := exists_mem_grouped key listed
          exact none group filed (isFor_iff.mpr (own.trans (beq_iff_eq.mp same)))
        rw [alone, if_pos rfl]
        exact ⟨rfl, item, [], rfl⟩

end Groups

end SwiftModel.Files.Table
