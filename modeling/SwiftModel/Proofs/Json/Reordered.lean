/- Values that differ only in the order of the members of objects. What is looked up in them by keys and
by pointers differs no more than they do. -/
import Mathlib.Data.List.Perm.Basic
import SwiftModel.Proofs.Json.DistinctKeys
import SwiftModel.Proofs.Json.Pointer

namespace SwiftModel.Json

/-- Values that are equal up to the order of the members of objects, at any depth. -/
inductive Reordered : Json → Json → Prop
  | same (value : Json) : Reordered value value
  | array {items moved : List Json} : items.length = moved.length →
      (∀ pair ∈ items.zip moved, Reordered pair.1 pair.2) → Reordered (.array items) (.array moved)
  | object {members order moved : List (String × Json)} : members.Perm order →
      List.Forall₂ (fun member other => member.1 = other.1) order moved →
      (∀ pair ∈ order.zip moved, Reordered pair.1.2 pair.2.2) →
      Reordered (.object members) (.object moved)

/-- Members of one key whose values are equal up to the order of members. -/
structure Corresponds (member other : String × Json) : Prop where
  key : member.1 = other.1
  value : Reordered member.2 other.2

section Relation

variable {value moved : Json} {items : List Json} {members order others : List (String × Json)}

theorem corresponds_of_zip (keys : List.Forall₂ (fun member other => member.1 = other.1) order others)
    (values : ∀ pair ∈ order.zip others, Reordered pair.1.2 pair.2.2) :
    List.Forall₂ Corresponds order others :=
  List.forall₂_iff_zip.mpr
    ⟨keys.length_eq, fun paired => ⟨List.forall₂_zip keys paired, values _ paired⟩⟩

theorem Reordered.of_perm (perm : members.Perm order)
    (corresponding : List.Forall₂ Corresponds order others) :
    Reordered (.object members) (.object others) :=
  .object perm (corresponding.imp fun _ _ pair => pair.key) fun _ paired =>
    (List.forall₂_zip corresponding paired).value

theorem Reordered.exists_items (h : Reordered (.array items) moved) :
    ∃ items', moved = .array items' ∧ List.Forall₂ Reordered items items' := by
  cases h with
  | same => exact ⟨items, rfl, List.forall₂_same.mpr fun item _ => .same item⟩
  | @array _ items' lengths inside =>
      exact ⟨items', rfl, List.forall₂_iff_zip.mpr ⟨lengths, fun paired => inside _ paired⟩⟩

theorem Reordered.exists_members (h : Reordered (.object members) moved) :
    ∃ order others, moved = .object others ∧ members.Perm order ∧
      List.Forall₂ Corresponds order others := by
  cases h with
  | same =>
      refine ⟨members, members, rfl, .refl members, ?_⟩
      exact List.forall₂_same.mpr fun member _ => ⟨rfl, .same member.2⟩
  | @object _ order others perm keys inside =>
      exact ⟨order, others, rfl, perm, corresponds_of_zip keys inside⟩

theorem Reordered.eq_of_scalar (h : Reordered value moved) (notArray : value.kind ≠ .array)
    (notObject : value.kind ≠ .object) : moved = value := by
  cases h with
  | same => rfl
  | array => exact absurd rfl notArray
  | object => exact absurd rfl notObject

/-- By induction: what is reordered within is reordered back, and members that are moved first can as
well be moved last. -/
theorem Reordered.symm (h : Reordered value moved) : Reordered moved value := by
  induction h with
  | same value => exact .same value
  | @array items others lengths _ ih =>
      have back : List.Forall₂ Reordered others items := by
        apply List.Forall₂.flip
        exact List.forall₂_iff_zip.mpr ⟨lengths, fun paired => ih _ paired⟩
      exact .array back.length_eq fun _ paired => List.forall₂_zip back paired
  | @object members order others perm keys _ ih =>
      have back : List.Forall₂ Corresponds others order := by
        apply List.Forall₂.flip
        apply List.forall₂_iff_zip.mpr
        exact ⟨keys.length_eq, fun paired => ⟨(List.forall₂_zip keys paired).symm, ih _ paired⟩⟩
      obtain ⟨last, first, corresponding⟩ :
          (Relation.Comp List.Perm (List.Forall₂ Corresponds)) others members := by
        rw [← List.forall₂_comp_perm_eq_perm_comp_forall₂]
        exact ⟨order, back, perm.symm⟩
      exact .of_perm first corresponding

end Relation

/-! Distinct keys stay distinct, and the same is found under each. -/

theorem exists_mem_zip {α β : Type} {first : List α} {second : List β}
    (lengths : first.length = second.length) {right : β} (member : right ∈ second) :
    ∃ pair ∈ first.zip second, pair.2 = right := by
  rw [← List.map_snd_zip (Nat.le_of_eq lengths.symm)] at member
  exact List.mem_map.mp member

/-- By induction: the keys of an object are those that it had, each as often. -/
theorem Reordered.distinctKeys {value moved : Json} (h : Reordered value moved)
    (distinct : DistinctKeys value) : DistinctKeys moved := by
  induction h with
  | same => exact distinct
  | array lengths inside ih =>
      apply DistinctKeys.array
      intro item member
      obtain ⟨pair, paired, rfl⟩ := exists_mem_zip lengths member
      exact ih pair paired (distinct.items pair.1 (List.of_mem_zip paired).1)
  | @object members order others perm keys inside ih =>
      have same : order.map Prod.fst = others.map Prod.fst := by
        rw [← List.forall₂_eq_eq_eq, List.forall₂_map_left_iff, List.forall₂_map_right_iff]
        exact keys
      refine .object (same ▸ (perm.map Prod.fst).nodup_iff.mp distinct.nodup) ?_
      intro member there
      obtain ⟨pair, paired, rfl⟩ := exists_mem_zip keys.length_eq there
      exact ih pair paired (distinct.members pair.1 (perm.mem_iff.mpr (List.of_mem_zip paired).1))

theorem rel_same (found : Option Json) : Option.Rel Reordered found found := by
  cases found with
  | none => exact .none
  | some value => exact .some (.same value)

section Lookup

variable {key : String} {members order others : List (String × Json)} {value moved : Json}

theorem lookup_eq_some_iff (distinct : (members.map Prod.fst).Nodup) :
    members.lookup key = some value ↔ (key, value) ∈ members :=
  ⟨mem_of_lookup, lookup_of_mem distinct⟩

theorem lookup_eq_of_perm (perm : members.Perm order) (distinct : (members.map Prod.fst).Nodup) :
    members.lookup key = order.lookup key := by
  have distinct' : (order.map Prod.fst).Nodup := (perm.map Prod.fst).nodup_iff.mp distinct
  ext value
  rw [lookup_eq_some_iff distinct, lookup_eq_some_iff distinct', perm.mem_iff]

theorem rel_lookup (corresponding : List.Forall₂ Corresponds order others) :
    Option.Rel Reordered (order.lookup key) (others.lookup key) := by
  induction corresponding with
  | nil => exact .none
  | @cons member other _ _ first _ ih =>
      rw [List.lookup_cons, List.lookup_cons, ← first.key]
      cases key == member.1 with
      | true => exact .some first.value
      | false => exact ih

theorem Reordered.member? (h : Reordered value moved) (distinct : DistinctKeys value) (key : String) :
    Option.Rel Reordered (value.member? key) (moved.member? key) := by
  cases h with
  | same => exact rel_same _
  | array => exact .none
  | object perm keys inside =>
      rw [Json.member?, Json.member?, lookup_eq_of_perm perm distinct.nodup]
      exact rel_lookup (corresponds_of_zip keys inside)

end Lookup

section Pointers

variable {value moved : Json}

theorem rel_getElem? {items others : List Json} (inside : List.Forall₂ Reordered items others)
    (index : Nat) : Option.Rel Reordered items[index]? others[index]? := by
  induction inside generalizing index with
  | nil => exact .none
  | cons first _ ih =>
      cases index with
      | zero => exact .some first
      | succ index => exact ih index

theorem Reordered.child? (h : Reordered value moved) (distinct : DistinctKeys value) (part : String) :
    Option.Rel Reordered (value.child? part) (moved.child? part) := by
  cases h with
  | same => exact rel_same _
  | array lengths inside =>
      rw [Json.child?, Json.child?]
      cases arrayIndex? part with
      | none => exact .none
      | some index =>
          exact rel_getElem? (List.forall₂_iff_zip.mpr ⟨lengths, fun paired => inside _ paired⟩) index
  | object perm keys inside =>
      rw [Json.child?, Json.child?, lookup_eq_of_perm perm distinct.nodup]
      exact rel_lookup (corresponds_of_zip keys inside)

theorem DistinctKeys.child? {value inner : Json} {part : String} (h : DistinctKeys value)
    (found : value.child? part = some inner) : DistinctKeys inner := by
  cases value with
  | object members => exact h.members (part, inner) (mem_of_lookup found)
  | array items =>
      obtain ⟨index, -, here⟩ := Option.bind_eq_some_iff.mp found
      exact h.items inner (List.mem_of_getElem? here)
  | _ => cases found

theorem DistinctKeys.at? {value inner : Json} {parts : List String} (h : DistinctKeys value)
    (found : value.at? parts = some inner) : DistinctKeys inner := by
  induction parts generalizing value with
  | nil =>
      cases found
      exact h
  | cons part parts ih =>
      obtain ⟨child, step, rest⟩ := Option.bind_eq_some_iff.mp found
      exact ih (h.child? step) rest

theorem DistinctKeys.pointer? {value inner : Json} {pointer : String} (h : DistinctKeys value)
    (found : value.pointer? pointer = some inner) : DistinctKeys inner := by
  obtain ⟨parts, -, leads⟩ := Option.bind_eq_some_iff.mp found
  exact h.at? leads

theorem Reordered.at? (h : Reordered value moved) (distinct : DistinctKeys value)
    (parts : List String) : Option.Rel Reordered (value.at? parts) (moved.at? parts) := by
  induction parts generalizing value moved with
  | nil => exact .some h
  | cons part parts ih =>
      have step := h.child? distinct part
      have inside : ∀ inner, value.child? part = some inner → DistinctKeys inner :=
        fun inner found => distinct.child? found
      rw [at?_cons, at?_cons]
      generalize value.child? part = found, moved.child? part = found' at step inside
      cases step with
      | none => exact .none
      | some related => exact ih related (inside _ rfl)

theorem Reordered.pointer? (h : Reordered value moved) (distinct : DistinctKeys value)
    (pointer : String) : Option.Rel Reordered (value.pointer? pointer) (moved.pointer? pointer) := by
  rw [Json.pointer?, Json.pointer?]
  cases pointerParts? pointer with
  | none => exact .none
  | some parts => exact h.at? distinct parts

end Pointers

end SwiftModel.Json
