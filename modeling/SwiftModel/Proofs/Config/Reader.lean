/- What a reader of a configuration makes sure of: everything it takes is there and decodes, and what it
passes over is a value at least. -/
import Mathlib.Data.List.Forall2
import SwiftModel.Config.Reader
import SwiftModel.Proofs.Json.Closing
import SwiftModel.Proofs.Json.DistinctKeys

namespace SwiftModel.Config
open SwiftModel.Json

/-- What is taken of a tree: all of it, in so many levels of containers, or the members of a section. -/
inductive Shape where
  | whole (levels : Nat)
  | section (members : List (String × Shape))

mutual

def Shape.levels : Shape → Nat
  | .whole levels => levels
  | .section members => memberLevels members + 1
termination_by structural shape => shape

def memberLevels : List (String × Shape) → Nat
  | [] => 0
  | (_, shape) :: members => max shape.levels (memberLevels members)
termination_by structural members => members

end

theorem levels_le_memberLevels {shapes : List (String × Shape)} {named : String × Shape}
    (member : named ∈ shapes) : named.2.levels ≤ memberLevels shapes := by
  induction shapes with
  | nil => cases member
  | cons other shapes ih =>
      rcases List.mem_cons.mp member with rfl | later
      · exact Nat.le_max_left _ _
      · exact Nat.le_trans (ih later) (Nat.le_max_right _ _)

/-- A part of a tree, in so many containers, is the value of a member that its section does not have. -/
inductive PassesOver : Shape → Tree → Nat → Tree → Prop
  | unknown {shapes : List (String × Shape)} {here : List Char} {written : List (Key × Tree)}
    {stop : ObjectStop} {key : Key} {part : Tree} {name : String} : (key, part) ∈ written →
    key.content = .ok name → shapes.lookup name = none →
    PassesOver (.section shapes) (.object here written stop) 1 part
  | member {shapes : List (String × Shape)} {here : List Char} {written : List (Key × Tree)}
    {stop : ObjectStop} {key : Key} {tree part : Tree} {name : String} {shape : Shape} {level : Nat} :
    (key, tree) ∈ written → key.content = .ok name → shapes.lookup name = some shape →
    PassesOver shape tree level part →
    PassesOver (.section shapes) (.object here written stop) (level + 1) part
  | item {shapes : List (String × Shape)} {here : List Char} {items : List Tree} {stop : ArrayStop}
    {named : String × Shape} {tree part : Tree} {level : Nat} : (named, tree) ∈ shapes.zip items →
    PassesOver named.2 tree level part →
    PassesOver (.section shapes) (.array here items stop) (level + 1) part

/-- One can pass over the tree, and it decodes if what is passed over in it does. -/
structure Accepted (shape : Shape) (tree : Tree) : Prop where
  passes : tree.passingFault? = none
  decodes : ∀ depth, shape.levels ≤ depth →
    (∀ level part, PassesOver shape tree level part → part.Decodes (depth - level)) → tree.Decodes depth

def Reads {α : Type} (shape : Shape) (read : Reader α) : Prop :=
  ∀ tree value, tree.Coherent → read tree = .ok value → Accepted shape tree

theorem decodes_of_passesOver {shape : Shape} {tree part : Tree} {level depth : Nat}
    (passed : PassesOver shape tree level part) (decodes : tree.Decodes depth) :
    part.Decodes (depth - level) := by
  induction passed generalizing depth with
  | unknown member _ _ =>
      cases decodes with
      | object _ each => exact each _ member
  | member member _ _ _ ih =>
      cases decodes with
      | object _ each =>
          rw [Nat.add_sub_add_right]
          exact ih (each _ member)
  | item pair _ ih =>
      cases decodes with
      | array each =>
          rw [Nat.add_sub_add_right]
          exact ih (each _ (List.of_mem_zip pair).2)

section Whole

variable {α β : Type} {read : Reader α} {shape : Shape} {tree : Tree} {value : α}

theorem accepted_leaf {lexeme : Lexeme} (passes : lexeme.passingFault? = none) (decodes : lexeme.Decodes) :
    Accepted shape (.leaf lexeme) := ⟨by rw [Tree.passingFault?, passes], fun _ _ _ => .leaf decodes⟩

theorem Accepted.decodes_whole {levels depth : Nat} (accepted : Accepted (.whole levels) tree)
    (within : levels ≤ depth) : tree.Decodes depth :=
  accepted.decodes depth within fun _ _ passed => (nomatch passed)

theorem within_eq_ok {segment : Segment} {result : Except Rejection α}
    (h : within segment result = .ok value) : result = .ok value := mapError_eq_ok h

theorem settled_eq_ok {site : Site} {result : Except Rejection α} (h : settled site result = .ok value) :
    result = .ok value := mapError_eq_ok h

theorem faultless_eq_ok {fault : Option Fault} {result : α} (h : faultless fault result = .ok value) :
    fault = none := by
  cases fault with
  | none => rfl
  | some fault => cases h

theorem reads_map (reads : Reads shape read) (f : α → β) : Reads shape fun tree => (read tree).map f := by
  intro tree value coherent mapped
  obtain ⟨first, taken, -⟩ := map_eq_ok mapped
  exact reads tree first coherent taken

theorem reads_boolean : Reads (.whole 0) readBoolean := by
  intro tree value _ taken
  unfold readBoolean at taken
  split at taken
  next => exact accepted_leaf rfl trivial
  next => cases taken

theorem reads_string : Reads (.whole 0) readString := by
  intro tree value _ taken
  unfold readString at taken
  split at taken
  next => exact accepted_leaf rfl ⟨_, rfl⟩
  next => cases taken

theorem reads_width : Reads (.whole 0) readWidth := by
  intro tree value _ taken
  unfold readWidth at taken
  split at taken
  next => exact accepted_leaf rfl ⟨_, rfl⟩
  next => cases taken

theorem reads_nothing (levels : Nat) : Reads (.whole levels) readNothing := by
  intro tree value _ taken
  unfold readNothing at taken
  split at taken
  next => exact accepted_leaf rfl trivial
  next => cases taken

theorem readItems_eq_ok {items : List Tree} {index : Nat} {values : List α}
    (taken : readItems read index items = .ok values) : ∀ item ∈ items, ∃ value, read item = .ok value := by
  induction items generalizing index values with
  | nil => exact fun _ member => (nomatch member)
  | cons item items ih =>
      cases item with
      | missing => cases taken
      | _ =>
          obtain ⟨value, first, taken⟩ := bind_eq_ok.mp taken
          obtain ⟨others, rest, -⟩ := bind_eq_ok.mp taken
          exact List.forall_mem_cons.mpr ⟨⟨value, within_eq_ok first⟩, ih rest⟩

theorem reads_list {levels : Nat} (reads : Reads (.whole levels) read) :
    Reads (.whole (levels + 1)) (readList read) := by
  intro tree values coherent taken
  unfold readList at taken
  split at taken
  next here items stop =>
    obtain ⟨values, each, stopped⟩ := bind_eq_ok.mp taken
    have accepted : ∀ item ∈ items, Accepted (.whole levels) item := by
      intro item member
      obtain ⟨value, first⟩ := readItems_eq_ok each item member
      cases coherent with
      | array coherent => exact reads item value (coherent item member) first
    constructor
    · refine Tree.passingFault?_array.mpr ⟨fun item member => (accepted item member).passes, ?_⟩
      exact ArrayStop.fault?_eq_none_iff.mp (faultless_eq_ok stopped)
    · intro depth within _
      obtain ⟨depth, rfl⟩ := Nat.exists_eq_add_of_lt within
      exact .array fun item member => (accepted item member).decodes_whole (Nat.le_add_right _ _)
  next => cases taken

/-! A choice takes all of an object, since a second member would stand where its brace should. -/

def Choice.Reads (levels : Nat) : Choice α → Prop
  | .bare _ => True
  | .carrying read => Config.Reads (.whole levels) read

theorem reads_of_choice {levels : Nat} {choice : Choice α} (reads : choice.Reads levels) :
    Config.Reads (.whole levels) choice.read := by
  cases choice with
  | bare value => exact reads_map (reads_nothing levels) fun _ => value
  | carrying read => exact reads

theorem findChoice_eq_ok {choices : List (String × Choice α)} {name : String} {after : List Char}
    {choice : Choice α} (found : findChoice choices name after = .ok choice) : (name, choice) ∈ choices := by
  rw [findChoice] at found
  split at found
  next choice looked =>
    cases found
    exact mem_of_lookup looked
  next => cases found

theorem closeChoice_eq_ok {result : α} {after : List Char} (closed : closeChoice result after = .ok value) :
    ∃ rest, skipBlank after = '}' :: rest := by
  unfold closeChoice at closed
  split at closed
  next => cases closed
  next rest same => exact ⟨rest, same⟩
  next => cases closed

theorem reads_choice {levels : Nat} {choices : List (String × Choice α)}
    (reads : ∀ choice ∈ choices, choice.2.Reads levels) :
    Reads (.whole (levels + 1)) (readChoice choices) := by
  intro tree value coherent taken
  unfold readChoice at taken
  split at taken
  next => exact accepted_leaf rfl ⟨_, rfl⟩
  next => split at taken <;> cases taken
  next here key tree rest stop =>
    obtain ⟨name, named, taken⟩ := bind_eq_ok.mp taken
    obtain ⟨choice, found, taken⟩ := bind_eq_ok.mp taken
    obtain ⟨carried, read, closed⟩ := bind_eq_ok.mp taken
    obtain ⟨after, closes⟩ := closeChoice_eq_ok closed
    cases coherent with
    | object coherent closing =>
        have carries := reads_of_choice (reads _ (findChoice_eq_ok found))
        have first : Accepted (.whole levels) tree :=
          carries tree carried (coherent _ List.mem_cons_self) (within_eq_ok read)
        -- only now is it known that the members behind the first, which nobody reads, are none
        obtain ⟨rfl, rfl⟩ := closing (key, tree) rest rfl first.passes after closes
        refine ⟨Tree.passingFault?_object.mpr ⟨List.forall_mem_singleton.mpr first.passes, rfl⟩, ?_⟩
        intro depth within _
        obtain ⟨depth, rfl⟩ := Nat.exists_eq_add_of_lt within
        exact .object (List.forall_mem_singleton.mpr ⟨name, mapError_eq_ok named⟩)
          (List.forall_mem_singleton.mpr (first.decodes_whole (Nat.le_add_right _ _)))
  next => cases taken
  next => cases taken
  next => cases taken

end Whole

section Sections

variable {σ τ α : Type} {members : List (Member σ)} {shapes : List (String × Shape)}

/-- A member of a section is named and taken as its shape says, whatever the section holds. -/
def Member.Fits (member : Member σ) (named : String × Shape) : Prop :=
  member.name = named.1 ∧ ∀ values, Reads named.2 (member.read values)

theorem fits_setting {levels : Nat} {read : Reader α} (reads : Reads (.whole levels) read) (name : String)
    (set : σ → α → σ) : (Member.setting name read set).Fits (name, .whole levels) :=
  ⟨rfl, fun values => reads_map reads (set values)⟩

theorem fits_nested {shape : Shape} {read : τ → Reader τ} (reads : ∀ values, Reads shape (read values))
    (name : String) (get : σ → τ) (set : σ → τ → σ) : (Member.nested name read get set).Fits (name, shape) :=
  ⟨rfl, fun values => reads_map (reads (get values)) (set values)⟩

theorem lookup_of_find? (fits : List.Forall₂ Member.Fits members shapes) (name : String) :
    match members.find? (·.name == name) with
    | some member => ∃ shape, shapes.lookup name = some shape ∧ ∀ values, Reads shape (member.read values)
    | none => shapes.lookup name = none := by
  induction fits with
  | nil => rfl
  | @cons member named members shapes first _ ih =>
      obtain ⟨other, shape⟩ := named
      obtain ⟨rfl, reads⟩ := first
      rw [List.find?_cons, List.lookup_cons, BEq.comm (a := name)]
      cases member.name == name with
      | true => exact ⟨shape, rfl, reads⟩
      | false => exact ih

/-- One member that is written: its section has it and accepts it, or it is passed over. -/
def MemberAccepted (shapes : List (String × Shape)) (written : Key × Tree) : Prop :=
  ∃ name, written.1.content = .ok name ∧
    (shapes.lookup name = none ∧ written.2.passingFault? = none ∨
      ∃ shape, shapes.lookup name = some shape ∧ Accepted shape written.2)

theorem checkDuplicate_eq_ok {seen : List String} {name : String} {after : List Char}
    {found : Option (Member σ)} (checked : checkDuplicate members seen name after = .ok found) :
    members.find? (·.name == name) = found := by
  rw [checkDuplicate] at checked
  split at checked
  next none =>
    cases checked
    exact none
  next some =>
    split at checked
    · cases checked
    · cases checked
      exact some

theorem sectionStop_eq_ok {seen : List String} {values result : σ} {stop : ObjectStop}
    (stopped : sectionStop members seen values stop = .ok result) : stop.passingFault? = none := by
  unfold sectionStop at stopped
  split at stopped
  next =>
    obtain ⟨_, _, stopped⟩ := bind_eq_ok.mp stopped
    obtain ⟨_, _, stopped⟩ := bind_eq_ok.mp stopped
    cases stopped
  next => exact ObjectStop.fault?_eq_none_iff.mp (faultless_eq_ok (within_eq_ok stopped))

theorem readMembers_eq_ok (fits : List.Forall₂ Member.Fits members shapes) {stop : ObjectStop}
    {written : List (Key × Tree)} {seen : List String} {values result : σ}
    (coherent : ∀ m ∈ written, m.2.Coherent)
    (taken : readMembers members stop seen values written = .ok result) :
    (∀ m ∈ written, MemberAccepted shapes m) ∧ stop.passingFault? = none := by
  induction written generalizing seen values with
  | nil => exact ⟨fun _ member => (nomatch member), sectionStop_eq_ok taken⟩
  | cons first written ih =>
      obtain ⟨key, tree⟩ := first
      obtain ⟨own, others⟩ := List.forall_mem_cons.mp coherent
      obtain ⟨name, named, taken⟩ := bind_eq_ok.mp taken
      obtain ⟨found, checked, taken⟩ := bind_eq_ok.mp taken
      have called : key.content = .ok name := mapError_eq_ok (within_eq_ok named)
      have known := lookup_of_find? fits name
      rw [checkDuplicate_eq_ok checked] at known
      cases found with
      | none =>
          obtain ⟨_, passed, taken⟩ := bind_eq_ok.mp taken
          have first : MemberAccepted shapes (key, tree) :=
            ⟨name, called, .inl ⟨known, faultless_eq_ok (within_eq_ok passed)⟩⟩
          obtain ⟨rest, stopped⟩ := ih others taken
          exact ⟨List.forall_mem_cons.mpr ⟨first, rest⟩, stopped⟩
      | some member =>
          obtain ⟨next, read, taken⟩ := bind_eq_ok.mp taken
          obtain ⟨shape, looked, reads⟩ := known
          have accepted : Accepted shape tree :=
            reads values tree next own (within_eq_ok (settled_eq_ok read))
          have first : MemberAccepted shapes (key, tree) := ⟨name, called, .inr ⟨shape, looked, accepted⟩⟩
          obtain ⟨rest, stopped⟩ := ih others taken
          exact ⟨List.forall_mem_cons.mpr ⟨first, rest⟩, stopped⟩

theorem readPositions_eq_ok (fits : List.Forall₂ Member.Fits members shapes) {stop : ArrayStop}
    {items : List Tree} {index : Nat} {values result : σ} (coherent : ∀ item ∈ items, item.Coherent)
    (taken : readPositions stop index values members items = .ok result) :
    (∀ item ∈ items, ∃ named, (named, item) ∈ shapes.zip items ∧ Accepted named.2 item) ∧
      stop.passingFault? = none := by
  induction fits generalizing items index values with
  | nil =>
      cases items with
      | nil =>
          refine ⟨fun _ member => (nomatch member), ArrayStop.fault?_eq_none_iff.mp ?_⟩
          have none := faultless_eq_ok taken
          unfold fullArrayFault? at none
          split at none
          · cases none
          · exact none
      | cons item items => cases taken
  | @cons member named members shapes first _ ih =>
      cases items with
      | nil =>
          exact ⟨fun _ member => (nomatch member), ArrayStop.fault?_eq_none_iff.mp (faultless_eq_ok taken)⟩
      | cons item items =>
          obtain ⟨own, others⟩ := List.forall_mem_cons.mp coherent
          cases item with
          | missing => cases taken
          | _ =>
              obtain ⟨next, read, taken⟩ := bind_eq_ok.mp taken
              have accepted := first.2 values _ next own (within_eq_ok (settled_eq_ok read))
              obtain ⟨rest, stopped⟩ := ih others taken
              refine ⟨List.forall_mem_cons.mpr ⟨⟨named, List.mem_cons_self, accepted⟩, ?_⟩, stopped⟩
              intro other member
              obtain ⟨named, pair, accepted⟩ := rest other member
              exact ⟨named, List.mem_cons_of_mem _ pair, accepted⟩

theorem reads_section (fits : List.Forall₂ Member.Fits members shapes) (name : String) (values : σ) :
    Reads (.section shapes) (readSection name members values) := by
  intro tree result coherent taken
  unfold readSection at taken
  split at taken
  next here written stop =>
    cases coherent with
    | object coherent _ =>
        obtain ⟨each, stopped⟩ := readMembers_eq_ok fits coherent taken
        constructor
        · refine Tree.passingFault?_object.mpr ⟨fun m member => ?_, stopped⟩
          obtain ⟨name, -, ⟨-, passes⟩ | ⟨shape, -, accepted⟩⟩ := each m member
          · exact passes
          · exact accepted.passes
        · intro depth within passed
          obtain ⟨spare, rfl⟩ := Nat.exists_eq_add_of_lt within
          refine .object (fun m member => ?_) fun m member => ?_
          · obtain ⟨name, named, -⟩ := each m member
            exact ⟨name, named⟩
          · obtain ⟨name, named, ⟨unknown, -⟩ | ⟨shape, looked, accepted⟩⟩ := each m member
            · exact passed 1 m.2 (.unknown member named unknown)
            · have fits := levels_le_memberLevels (mem_of_lookup looked)
              refine accepted.decodes _ (Nat.le_trans fits (Nat.le_add_right _ _)) fun level part inside => ?_
              rw [← Nat.add_sub_add_right _ 1]
              exact passed (level + 1) part (.member member named looked inside)
  next here items stop =>
    cases coherent with
    | array coherent =>
        obtain ⟨each, stopped⟩ := readPositions_eq_ok fits coherent taken
        constructor
        · refine Tree.passingFault?_array.mpr ⟨fun item member => ?_, stopped⟩
          obtain ⟨named, -, accepted⟩ := each item member
          exact accepted.passes
        · intro depth within passed
          obtain ⟨spare, rfl⟩ := Nat.exists_eq_add_of_lt within
          refine .array fun item member => ?_
          obtain ⟨named, pair, accepted⟩ := each item member
          have fits := levels_le_memberLevels (List.of_mem_zip pair).1
          refine accepted.decodes _ (Nat.le_trans fits (Nat.le_add_right _ _)) fun level part inside => ?_
          rw [← Nat.add_sub_add_right _ 1]
          exact passed (level + 1) part (.item pair inside)
  next => cases taken

end Sections

end SwiftModel.Config
