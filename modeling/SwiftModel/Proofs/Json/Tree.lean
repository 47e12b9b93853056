/- Two readers of one tree: one that takes its value, and one that passes over it. -/
import Mathlib.Data.Option.Basic
import SwiftModel.Json.Passing
import SwiftModel.Proofs.Failure.Sequence

namespace SwiftModel.Json

/-- What passes from all items to their array, and from all members to their object, holds of every
tree. -/
theorem Tree.induction {motive : Tree → Prop} (missing : motive .missing)
    (leaf : ∀ lexeme, motive (.leaf lexeme))
    (array : ∀ here items stop, (∀ item ∈ items, motive item) → motive (.array here items stop))
    (object : ∀ here members stop, (∀ member ∈ members, motive member.2) →
      motive (.object here members stop)) (tree : Tree) : motive tree := by
  refine @Tree.rec motive (fun items => ∀ item ∈ items, motive item)
    (fun members => ∀ member ∈ members, motive member.2) (fun member => motive member.2)
    missing leaf array object (fun _ member => nomatch member) ?_ (fun _ member => nomatch member) ?_
    (fun _ _ ih => ih) tree
  · intro _ _ head tail
    exact List.forall_mem_cons.mpr ⟨head, tail⟩
  · intro _ _ head tail
    exact List.forall_mem_cons.mpr ⟨head, tail⟩

/-- A number in the range of numbers, a string that can be decoded, or neither. -/
def Lexeme.Decodes (lexeme : Lexeme) : Prop :=
  match lexeme.token with
  | .number value => ∃ number, value = .ok number
  | .string content => ∃ text, content = .ok text
  | _ => True

/-- Every number in a tree is in range, every string and every key can be decoded, and at most `depth`
containers stand in each other. -/
inductive Tree.Decodes : Nat → Tree → Prop
  | missing {depth : Nat} : Tree.Decodes depth .missing
  | leaf {depth : Nat} {lexeme : Lexeme} : lexeme.Decodes → Tree.Decodes depth (.leaf lexeme)
  | array {depth : Nat} {here : List Char} {items : List Tree} {stop : ArrayStop} :
    (∀ item ∈ items, item.Decodes depth) → Tree.Decodes (depth + 1) (.array here items stop)
  | object {depth : Nat} {here : List Char} {members : List (Key × Tree)} {stop : ObjectStop} :
    (∀ member ∈ members, ∃ name, member.1.content = .ok name) →
    (∀ member ∈ members, member.2.Decodes depth) → Tree.Decodes (depth + 1) (.object here members stop)

section Passing

variable {here : List Char} {items : List Tree} {members : List (Key × Tree)} {arrayStop : ArrayStop}
  {objectStop : ObjectStop}

theorem itemsPassingFault?_eq_none :
    itemsPassingFault? items = none ↔ ∀ item ∈ items, item.passingFault? = none := by
  induction items with
  | nil => exact ⟨fun _ _ member => (nomatch member), fun _ => rfl⟩
  | cons item items ih => rw [itemsPassingFault?, Option.orElse_eq_none, ih, List.forall_mem_cons]

theorem membersPassingFault?_eq_none :
    membersPassingFault? members = none ↔ ∀ member ∈ members, member.2.passingFault? = none := by
  induction members with
  | nil => exact ⟨fun _ _ member => (nomatch member), fun _ => rfl⟩
  | cons member members ih =>
      obtain ⟨key, tree⟩ := member
      rw [membersPassingFault?, Option.orElse_eq_none, ih, List.forall_mem_cons]

theorem Tree.passingFault?_array :
    (Tree.array here items arrayStop).passingFault? = none ↔
      (∀ item ∈ items, item.passingFault? = none) ∧ arrayStop.passingFault? = none := by
  rw [Tree.passingFault?, Option.orElse_eq_none, itemsPassingFault?_eq_none]

theorem Tree.passingFault?_object :
    (Tree.object here members objectStop).passingFault? = none ↔
      (∀ member ∈ members, member.2.passingFault? = none) ∧ objectStop.passingFault? = none := by
  rw [Tree.passingFault?, Option.orElse_eq_none, membersPassingFault?_eq_none]

/-! Both readers stop at the same places, though they may say different things about them. -/

theorem ArrayStop.fault?_eq_none_iff : arrayStop.fault? = none ↔ arrayStop.passingFault? = none := by
  cases arrayStop <;> simp [ArrayStop.fault?, ArrayStop.passingFault?]

theorem ObjectStop.fault?_eq_none_iff : objectStop.fault? = none ↔ objectStop.passingFault? = none := by
  cases objectStop with
  | noColon key found =>
      cases content : key.content <;> simp [ObjectStop.fault?, ObjectStop.passingFault?, content]
  | _ => simp [ObjectStop.fault?, ObjectStop.passingFault?]

end Passing

section Values

variable {depth : Nat} {items : List Tree} {members : List (Key × Tree)}

theorem Lexeme.value_eq_ok_iff {lexeme : Lexeme} :
    (∃ value, lexeme.value = .ok value) ↔ lexeme.passingFault? = none ∧ lexeme.Decodes := by
  rw [Lexeme.value, Lexeme.passingFault?, Lexeme.Decodes]
  cases lexeme.token with
  | number value => cases value <;> simp [Except.map]
  | string content => cases content <;> simp [Except.map]
  | _ => simp

theorem unlessFault_eq_ok_iff {α β : Type} {result : Except Fault α} {fault : Option Fault} {f : α → β} :
    (∃ value, (result.bind fun first => unlessFault fault (f first)) = .ok value) ↔
      (∃ first, result = .ok first) ∧ fault = none := by
  cases result with
  | error problem => exact ⟨fun ⟨_, taken⟩ => (nomatch taken), fun ⟨⟨_, taken⟩, _⟩ => (nomatch taken)⟩
  | ok first =>
      cases fault with
      | some fault => exact ⟨fun ⟨_, taken⟩ => (nomatch taken), fun ⟨_, same⟩ => (nomatch same)⟩
      | none => exact ⟨fun _ => ⟨⟨first, rfl⟩, rfl⟩, fun _ => ⟨f first, rfl⟩⟩

theorem itemValues_eq_ok_iff :
    (∃ values, itemValues depth items = .ok values) ↔
      ∀ item ∈ items, ∃ value, item.value depth = .ok value := by
  induction items with
  | nil => exact ⟨fun _ _ member => (nomatch member), fun _ => ⟨[], rfl⟩⟩
  | cons item items ih =>
      rw [List.forall_mem_cons, ← ih, itemValues]
      constructor
      · rintro ⟨_, taken⟩
        obtain ⟨value, first, taken⟩ := bind_eq_ok.mp taken
        obtain ⟨values, others, -⟩ := bind_eq_ok.mp taken
        exact ⟨⟨value, first⟩, values, others⟩
      · rintro ⟨⟨value, first⟩, values, others⟩
        rw [first, others]
        exact ⟨value :: values, rfl⟩

theorem memberValues_eq_ok_iff :
    (∃ values, memberValues depth members = .ok values) ↔
      (∀ member ∈ members, ∃ name, member.1.content = .ok name) ∧
        ∀ member ∈ members, ∃ value, member.2.value depth = .ok value := by
  induction members with
  | nil =>
      have nothing {motive : Key × Tree → Prop} : ∀ member ∈ [], motive member :=
        fun _ member => (nomatch member)
      exact ⟨fun _ => ⟨nothing, nothing⟩, fun _ => ⟨[], rfl⟩⟩
  | cons member members ih =>
      obtain ⟨key, tree⟩ := member
      rw [List.forall_mem_cons, List.forall_mem_cons, and_and_and_comm, ← ih, memberValues]
      constructor
      · rintro ⟨_, taken⟩
        obtain ⟨name, named, taken⟩ := bind_eq_ok.mp taken
        obtain ⟨value, first, taken⟩ := bind_eq_ok.mp taken
        obtain ⟨values, others, -⟩ := bind_eq_ok.mp taken
        exact ⟨⟨⟨name, named⟩, value, first⟩, values, others⟩
      · rintro ⟨⟨⟨name, named⟩, value, first⟩, values, others⟩
        dsimp only at named first
        rw [named, first, others]
        exact ⟨(name, value) :: values, rfl⟩

theorem Tree.value_array_eq_ok_iff {here : List Char} {stop : ArrayStop} :
    (∃ value, (Tree.array here items stop).value (depth + 1) = .ok value) ↔
      (∀ item ∈ items, ∃ value, item.value depth = .ok value) ∧ stop.passingFault? = none := by
  rw [← itemValues_eq_ok_iff, ← ArrayStop.fault?_eq_none_iff]
  exact unlessFault_eq_ok_iff

theorem Tree.value_object_eq_ok_iff {here : List Char} {stop : ObjectStop} :
    (∃ value, (Tree.object here members stop).value (depth + 1) = .ok value) ↔
      ((∀ member ∈ members, ∃ name, member.1.content = .ok name) ∧
        ∀ member ∈ members, ∃ value, member.2.value depth = .ok value) ∧ stop.passingFault? = none := by
  rw [← memberValues_eq_ok_iff, ← ObjectStop.fault?_eq_none_iff]
  exact unlessFault_eq_ok_iff

/-- A tree has a value if one can pass over it, and what the value asks for beyond that is there. -/
theorem Tree.value_eq_ok_iff (tree : Tree) (depth : Nat) :
    (∃ value, tree.value depth = .ok value) ↔ tree.passingFault? = none ∧ tree.Decodes depth := by
  induction tree using Tree.induction generalizing depth with
  | missing => exact ⟨fun ⟨_, taken⟩ => (nomatch taken), fun ⟨fault, _⟩ => (nomatch fault)⟩
  | leaf lexeme =>
      rw [Tree.value, Tree.passingFault?, Lexeme.value_eq_ok_iff]
      constructor
      · rintro ⟨whole, decodes⟩
        exact ⟨whole, .leaf decodes⟩
      · rintro ⟨whole, decodes⟩
        cases decodes with
        | leaf decodes => exact ⟨whole, decodes⟩
  | array here items stop ih =>
      cases depth with
      | zero => exact ⟨fun ⟨_, taken⟩ => (nomatch taken), fun ⟨_, decodes⟩ => (nomatch decodes)⟩
      | succ depth =>
          rw [Tree.value_array_eq_ok_iff, Tree.passingFault?_array]
          constructor
          · rintro ⟨each, stopped⟩
            have each item (member : item ∈ items) := (ih item member depth).mp (each item member)
            exact ⟨⟨fun item member => (each item member).1, stopped⟩,
              .array fun item member => (each item member).2⟩
          · rintro ⟨⟨whole, stopped⟩, decodes⟩
            cases decodes with
            | array decodes =>
                exact ⟨fun item member => (ih item member depth).mpr ⟨whole item member, decodes item member⟩,
                  stopped⟩
  | object here members stop ih =>
      cases depth with
      | zero => exact ⟨fun ⟨_, taken⟩ => (nomatch taken), fun ⟨_, decodes⟩ => (nomatch decodes)⟩
      | succ depth =>
          rw [Tree.value_object_eq_ok_iff, Tree.passingFault?_object]
          constructor
          · rintro ⟨⟨named, each⟩, stopped⟩
            have each m (member : m ∈ members) := (ih m member depth).mp (each m member)
            exact ⟨⟨fun m member => (each m member).1, stopped⟩,
              .object named fun m member => (each m member).2⟩
          · rintro ⟨⟨whole, stopped⟩, decodes⟩
            cases decodes with
            | object named decodes =>
                exact ⟨⟨named, fun m member => (ih m member depth).mpr ⟨whole m member, decodes m member⟩⟩,
                  stopped⟩

end Values

/-- A document is one value that has nothing but blanks behind it. -/
theorem ofText_eq_ok_iff (text : String) :
    (∃ value, ofText text = .ok value) ↔
      ((Tree.ofText text.toList).passingFault? = none ∧ (Tree.ofText text.toList).Decodes maximalDepth) ∧
        skipBlank (Tree.ofText text.toList).after = [] := by
  rw [← Tree.value_eq_ok_iff, ofText]
  constructor
  · rintro ⟨value, taken⟩
    obtain ⟨first, took, ended⟩ := bind_eq_ok.mp (mapError_eq_ok taken)
    refine ⟨⟨first, took⟩, ?_⟩
    split at ended
    next nothing => exact nothing
    next => cases ended
  · rintro ⟨⟨value, took⟩, nothing⟩
    have taken : read text.toList = .ok value := by
      refine bind_eq_ok.mpr ⟨value, took, ?_⟩
      rw [nothing]
      rfl
    rw [taken]
    exact ⟨value, rfl⟩

end SwiftModel.Json
