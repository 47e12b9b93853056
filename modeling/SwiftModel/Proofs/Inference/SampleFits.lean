/- A sample whose arrays are uniform is a value of the record that is inferred from it. -/
import SwiftModel.Inference.Sample
import SwiftModel.Proofs.Inference.Acceptance

namespace SwiftModel.Inference

/-- At every depth of a value under a key, the items of an array are no arrays and have one type,
that of the first. -/
inductive Uniform (detectUuid : Bool) : String → Json → Prop
  | scalar {key : String} {value : Json} : value.kind ≠ .array → value.kind ≠ .object →
      Uniform detectUuid key value
  | array {key : String} {items : List Json} : (∀ item ∈ items, isArray item = false) →
      (∀ first ∈ items.head?, ∀ item ∈ items,
        sampleType detectUuid key item = sampleType detectUuid key first) →
      (∀ item ∈ items, Uniform detectUuid key item) → Uniform detectUuid key (.array items)
  | object {key : String} {members : List (String × Json)} :
      (∀ member ∈ members, Uniform detectUuid member.1 member.2) →
      Uniform detectUuid key (.object members)

theorem admits_numberBase (n : Number) : (numberBase n).Admits (.number n) := by
  cases n with
  | integer n => exact .integer n
  | double x => exact .double x

theorem admits_stringBase (detectUuid : Bool) (text : String) :
    (stringBase detectUuid text).Admits (.string text) := by
  rw [stringBase]
  split
  next found =>
    rw [Bool.and_eq_true] at found
    exact .uuid ((isUuid_iff text).mp found.2)
  next => exact .string text

theorem sampleFields_eq_map (detectUuid : Bool) (members : List (String × Json)) :
    sampleFields detectUuid members =
      members.map fun member => (sampleType detectUuid member.1 member.2).field member.1 := by
  induction members with
  | nil => rfl
  | cons member members ih =>
      obtain ⟨key, value⟩ := member
      rw [sampleFields, ih]
      rfl

theorem accepts_sampleFields {detectUuid : Bool} (name : String) {members : List (String × Json)}
    (h : ∀ member ∈ members,
      FieldType.Accepts .exact (sampleType detectUuid member.1 member.2) (some member.2)) :
    Base.Accepts .exact (.record ⟨name, sampleFields detectUuid members⟩) (.object members) := by
  rw [sampleFields_eq_map]
  refine .exact ?_ ?_
  · simp [FieldType.field]
  · intro pair inside
    simp only [← List.map_prod_right_eq_zip, List.mem_map] at inside
    obtain ⟨member, present, rfl⟩ := inside
    exact h member present

/-- By induction on the value. An item is accepted by its own type, and that is the type of the
first item, which stands for the array. -/
theorem Uniform.accepted {detectUuid : Bool} {key : String} {value : Json}
    (h : Uniform detectUuid key value) :
    FieldType.Accepts .exact (sampleType detectUuid key value) (some value) := by
  induction h with
  | @scalar key value notArray notObject =>
      cases value with
      | null => exact .single rfl (.scalar .null)
      | boolean b => exact .single rfl (.scalar (.boolean b))
      | number n => exact .single rfl (.scalar (admits_numberBase n))
      | string text => exact .single rfl (.scalar (admits_stringBase detectUuid text))
      | array items => exact absurd rfl notArray
      | object members => exact absurd rfl notObject
  | @array key items flat same _ ih =>
      refine .array rfl ?_
      intro item member
      cases items with
      | nil => cases member
      | cons first rest =>
          -- the item's own type is no array, so it accepts the item as a single value
          have accepted := (ih item member).base (flat item member)
          rw [same first rfl item member] at accepted
          exact accepted
  | @object key members _ ih => exact .single rfl (accepts_sampleFields _ ih)

theorem sampleRecord_accepts_sample (detectUuid : Bool) {members : List (String × Json)}
    (uniform : ∀ member ∈ members, Uniform detectUuid member.1 member.2) :
    ∃ record, sampleRecord detectUuid (.object members) = .ok record ∧
      Base.Accepts .exact (.record record) (.object members) := by
  refine ⟨⟨defaultRootName, sampleFields detectUuid members⟩, rfl, ?_⟩
  apply accepts_sampleFields
  intro member present
  exact (uniform member present).accepted

/-- People in an array, each with the same members, beside scalars of every kind. -/
def householdSample : List (String × Json) := [
  ("id", .string "550e8400-e29b-41d4-a716-446655440000"),
  ("rent", .number (.double ⟨false, .ofRatio 3 2⟩)),
  ("note", .null),
  ("pets", .array []),
  ("people", .array [
    .object [("name", .string "Ada"), ("age", .number (.integer 36))],
    .object [("name", .string "Bob"), ("age", .number (.integer 41))]])]

theorem household_accepts_sample :
    (∀ member ∈ householdSample, Uniform true member.1 member.2) ∧
      ∃ record, sampleRecord true (.object householdSample) = .ok record ∧
        Base.Accepts .exact (.record record) (.object householdSample) := by
  have scalar : ∀ {key : String} {value : Json}, value.kind ≠ .array ∧ value.kind ≠ .object →
      Uniform true key value := fun h => .scalar h.1 h.2
  have person : ∀ (key name : String) (age : Int), Uniform true key
      (.object [("name", .string name), ("age", .number (.integer age))]) := by
    intro key name age
    refine .object ?_
    intro member present
    simp only [List.mem_cons, List.not_mem_nil, or_false] at present
    rcases present with rfl | rfl <;> exact scalar (by simp [Json.kind])
  have personType : ∀ (name : String) (age : Int), isUuid name = false →
      sampleType true "people" (.object [("name", .string name), ("age", .number (.integer age))]) =
        .plain (.record ⟨Identifier.typeNameForKey "people",
          [⟨"name", .string, false, false⟩, ⟨"age", .integer, false, false⟩]⟩) := by
    intro name age other
    simp [sampleType, sampleBase, sampleFields, stringBase, numberBase, isArray, other,
      FieldType.plain]
  have uniform : ∀ member ∈ householdSample, Uniform true member.1 member.2 := by
    intro member present
    simp only [householdSample, List.mem_cons, List.not_mem_nil, or_false] at present
    rcases present with rfl | rfl | rfl | rfl | rfl
    · exact scalar (by simp [Json.kind])
    · exact scalar (by simp [Json.kind])
    · exact scalar (by simp [Json.kind])
    · exact .array (by simp) (by simp) (by simp)
    · refine .array (by simp [isArray]) ?_ (by simp [person])
      intro first head item inside
      cases head
      simp only [List.mem_cons, List.not_mem_nil, or_false] at inside
      rcases inside with rfl | rfl
      · rfl
      · rw [personType "Bob" 41 (by decide), personType "Ada" 36 (by decide)]
  exact ⟨uniform, sampleRecord_accepts_sample true uniform⟩

end SwiftModel.Inference
