/- The keys of an object are distinct in every value that is read from a text. -/
import SwiftModel.Json.Document
import SwiftModel.Proofs.Failure.Sequence

namespace SwiftModel.Json

/-- In no object of a value, however deep, does a key occur twice. -/
inductive DistinctKeys : Json → Prop
  | scalar {value : Json} : value.kind ≠ .array → value.kind ≠ .object → DistinctKeys value
  | array {items : List Json} : (∀ item ∈ items, DistinctKeys item) → DistinctKeys (.array items)
  | object {members : List (String × Json)} : (members.map Prod.fst).Nodup →
      (∀ member ∈ members, DistinctKeys member.2) → DistinctKeys (.object members)

theorem lookup_of_mem {members : List (String × Json)} (distinct : (members.map Prod.fst).Nodup)
    {key : String} {value : Json} (member : (key, value) ∈ members) :
    members.lookup key = some value := by
  induction members with
  | nil => cases member
  | cons head members ih =>
      obtain ⟨absent, rest⟩ := List.nodup_cons.mp distinct
      rw [List.lookup_cons]
      rcases List.mem_cons.mp member with rfl | later
      · rw [beq_self_eq_true]
      · have other : key ≠ head.1 := by
          intro same
          apply absent
          exact List.mem_map.mpr ⟨(key, value), later, same⟩
        rw [beq_eq_false_iff_ne.mpr other]
        exact ih rest later

theorem mem_of_lookup {β : Type} {entries : List (String × β)} {key : String} {value : β}
    (found : entries.lookup key = some value) : (key, value) ∈ entries := by
  obtain ⟨before, after, rfl, -⟩ := List.lookup_eq_some_iff.mp found
  exact List.mem_append_right before List.mem_cons_self

theorem DistinctKeys.nodup {members : List (String × Json)} (h : DistinctKeys (.object members)) :
    (members.map Prod.fst).Nodup := by
  cases h with
  | scalar _ other => exact absurd rfl other
  | object distinct _ => exact distinct

theorem DistinctKeys.members {members : List (String × Json)} (h : DistinctKeys (.object members)) :
    ∀ member ∈ members, DistinctKeys member.2 := by
  cases h with
  | scalar _ other => exact absurd rfl other
  | object _ inside => exact inside

theorem DistinctKeys.items {items : List Json} (h : DistinctKeys (.array items)) :
    ∀ item ∈ items, DistinctKeys item := by
  cases h with
  | scalar other _ => exact absurd rfl other
  | array inside => exact inside

@[simp] theorem distinctKeys_object {members : List (String × Json)} :
    DistinctKeys (.object members) ↔
      (members.map Prod.fst).Nodup ∧ ∀ member ∈ members, DistinctKeys member.2 :=
  ⟨fun h => ⟨h.nodup, h.members⟩, fun h => .object h.1 h.2⟩

@[simp] theorem distinctKeys_string (text : String) : DistinctKeys (.string text) :=
  .scalar (by simp [kind]) (by simp [kind])

theorem DistinctKeys.member? {value inner : Json} {key : String} (h : DistinctKeys value)
    (found : value.member? key = some inner) : DistinctKeys inner := by
  cases value with
  | object members => exact h.members (key, inner) (mem_of_lookup found)
  | _ => cases found

section Insert

variable {key : String} {value : Json} {members : List (String × Json)}

theorem mem_insert {member : String × Json} (h : member ∈ insert key value members) :
    member = (key, value) ∨ member ∈ members := by
  induction members with
  | nil => exact .inl (List.mem_singleton.mp h)
  | cons head members ih =>
      rw [insert] at h
      split at h
      · exact (List.mem_cons.mp h).imp_right (List.mem_cons_of_mem head)
      · rcases List.mem_cons.mp h with rfl | later
        · exact .inr List.mem_cons_self
        · exact (ih later).imp_right (List.mem_cons_of_mem head)

theorem nodup_insert (h : (members.map Prod.fst).Nodup) :
    ((insert key value members).map Prod.fst).Nodup := by
  induction members with
  | nil => exact List.nodup_cons.mpr ⟨List.not_mem_nil, List.nodup_nil⟩
  | cons head members ih =>
      obtain ⟨absent, rest⟩ := List.nodup_cons.mp h
      rw [insert]
      split
      next same => exact List.nodup_cons.mpr ⟨same ▸ absent, rest⟩
      next other =>
        refine List.nodup_cons.mpr ⟨?_, ih rest⟩
        intro present
        obtain ⟨member, inside, same⟩ := List.mem_map.mp present
        rcases mem_insert inside with rfl | earlier
        · exact other same.symm
        · exact absent (List.mem_map.mpr ⟨member, earlier, same⟩)

end Insert

/-- Members are put together one by one, and each step keeps the keys distinct. -/
theorem distinctKeys_ofMembers {members : List (String × Json)}
    (h : ∀ member ∈ members, DistinctKeys member.2) : DistinctKeys (ofMembers members) := by
  suffices invariant : ∀ done : List (String × Json), (done.map Prod.fst).Nodup →
      (∀ member ∈ done, DistinctKeys member.2) →
        DistinctKeys (.object (members.foldl (fun done member => insert member.1 member.2 done) done)) by
    exact invariant [] List.nodup_nil (by simp)
  induction members with
  | nil => exact fun done distinct inside => .object distinct inside
  | cons member members ih =>
      intro done distinct inside
      apply ih (fun other later => h other (List.mem_cons_of_mem member later)) _
        (nodup_insert distinct)
      intro other present
      rcases mem_insert present with rfl | earlier
      · exact h member List.mem_cons_self
      · exact inside other earlier

theorem unlessFault_eq_ok {α : Type} {fault : Option Fault} {result value : α}
    (h : unlessFault fault result = .ok value) : value = result := by
  cases fault with
  | none => exact (Except.ok.inj h).symm
  | some fault => cases h

theorem distinctKeys_lexeme {lexeme : Lexeme} {value : Json} (h : lexeme.value = .ok value) :
    DistinctKeys value := by
  have scalar : value.kind ≠ .array ∧ value.kind ≠ .object := by
    rw [Lexeme.value] at h
    split at h
    · cases h; simp [kind]
    · cases h; simp [kind]
    · obtain ⟨n, -, rfl⟩ := map_eq_ok h; simp [kind]
    · obtain ⟨s, -, rfl⟩ := map_eq_ok h; simp [kind]
    · cases h
    · cases h
  exact .scalar scalar.1 scalar.2

/-- By recursion on the tree: an array keeps what its items have, and an object is put together
from members that have it. -/
theorem distinctKeys_tree :
    (∀ depth tree value, Tree.value depth tree = .ok value → DistinctKeys value) ∧
      (∀ depth members values, memberValues depth members = .ok values →
        ∀ member ∈ values, DistinctKeys member.2) ∧
      ∀ depth items values, itemValues depth items = .ok values →
        ∀ value ∈ values, DistinctKeys value := by
  refine Tree.value.mutual_induct
    (fun depth tree => ∀ value, Tree.value depth tree = .ok value → DistinctKeys value)
    (fun depth members => ∀ values, memberValues depth members = .ok values →
      ∀ member ∈ values, DistinctKeys member.2)
    (fun depth items => ∀ values, itemValues depth items = .ok values →
      ∀ value ∈ values, DistinctKeys value)
    ?missing ?leaf ?tooDeepArray ?array ?tooDeepObject ?object ?noItems ?items ?noMembers ?members
  case missing => intro depth value h; cases h
  case leaf => intro depth lexeme value h; exact distinctKeys_lexeme h
  case tooDeepArray => intro here items stop value h; cases h
  case array =>
    intro here items stop depth ih value h
    obtain ⟨values, known, closed⟩ := bind_eq_ok.mp h
    rw [unlessFault_eq_ok closed]
    exact .array (ih values known)
  case tooDeepObject => intro here members stop value h; cases h
  case object =>
    intro here members stop depth ih value h
    obtain ⟨values, known, closed⟩ := bind_eq_ok.mp h
    rw [unlessFault_eq_ok closed]
    exact distinctKeys_ofMembers (ih values known)
  case noItems => intro depth values h; cases h; simp
  case items =>
    intro depth item items first rest values h
    obtain ⟨value, head, h⟩ := bind_eq_ok.mp h
    obtain ⟨others, tail, h⟩ := bind_eq_ok.mp h
    cases h
    intro other member
    rcases List.mem_cons.mp member with rfl | later
    · exact first other head
    · exact rest others tail other later
  case noMembers => intro depth values h; cases h; simp
  case members =>
    intro depth key tree members first rest values h
    obtain ⟨name, -, h⟩ := bind_eq_ok.mp h
    obtain ⟨value, head, h⟩ := bind_eq_ok.mp h
    obtain ⟨others, tail, h⟩ := bind_eq_ok.mp h
    cases h
    intro other member
    rcases List.mem_cons.mp member with rfl | later
    · exact first value head
    · exact rest others tail other later

theorem distinctKeys_ofText {text : String} {value : Json} (h : ofText text = .ok value) :
    DistinctKeys value := by
  have whole := mapError_eq_ok h
  rw [read] at whole
  obtain ⟨found, known, closed⟩ := bind_eq_ok.mp whole
  split at closed
  · cases closed
    exact distinctKeys_tree.1 _ _ value known
  · cases closed

end SwiftModel.Json
