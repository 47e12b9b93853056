/- The walk over a sample fails at its root only: below it every value has a type, and at the root the
first items decide. -/
import SwiftModel.Inference.Walk
import SwiftModel.Proofs.Json.Induction

namespace SwiftModel.Inference
open SwiftModel.Identifier

/-- The value that stands for a value in its model: the first item of an array, however deep, and an
array without items for itself. -/
def representative : Json → Json
  | .array (first :: _) => representative first
  | value => value

theorem representative_of_isArray_false {value : Json} (single : isArray value = false) :
    representative value = value := by
  cases value with
  | array items => cases single
  | _ => rfl

/-! No step of the walk below the root fails. -/

section Walk

variable {detectUuid : Bool}

theorem walkFields_eq {members : List (String × Json)}
    (inside : ∀ member ∈ members, ∀ key,
      walkType detectUuid key member.2 = .ok (sampleType detectUuid key member.2)) :
    walkFields detectUuid members = .ok (sampleFields detectUuid members) := by
  induction members with
  | nil =>
      rw [walkFields]
      rfl
  | cons member members ih =>
      rw [walkFields, inside member List.mem_cons_self,
        ih fun other later => inside other (List.mem_cons_of_mem member later)]
      rfl

theorem walkRecord_object {members : List (String × Json)}
    (inside : ∀ member ∈ members, ∀ key,
      walkType detectUuid key member.2 = .ok (sampleType detectUuid key member.2)) (name : String) :
    walkRecord detectUuid name (.object members) = .ok ⟨name, sampleFields detectUuid members⟩ := by
  rw [walkRecord, walkFields_eq inside]
  rfl

/-- By induction on the value. An object is the only value that is walked as a record below the root,
and what its members hold has types already. -/
theorem walkType_eq (key : String) (value : Json) :
    walkType detectUuid key value = .ok (sampleType detectUuid key value) := by
  induction value using Json.induction generalizing key with
  | scalar value notArray notObject =>
      cases value with
      | array items => exact absurd rfl notArray
      | object members => exact absurd rfl notObject
      | _ =>
          rw [walkType]
          rfl
  | array items ih =>
      cases items with
      | nil =>
          rw [walkType]
          rfl
      | cons first rest =>
          rw [walkType, ih first List.mem_cons_self]
          rfl
  | object members ih =>
      rw [walkType, walkRecord_object fun member inside key => ih member inside key]
      rfl

theorem walkRecord_eq (value : Json) :
    walkRecord detectUuid defaultRootName value = sampleRecord detectUuid value := by
  induction value using Json.induction with
  | scalar value notArray notObject =>
      cases value with
      | array items => exact absurd rfl notArray
      | object members => exact absurd rfl notObject
      | _ =>
          rw [walkRecord]
          · rfl
          all_goals
            intros
            contradiction
  | array items ih =>
      cases items with
      | nil =>
          rw [walkRecord]
          rfl
      | cons first rest =>
          rw [walkRecord]
          exact ih first List.mem_cons_self
  | object members =>
      rw [walkRecord_object fun _ _ key => walkType_eq key _]
      rfl

end Walk

/-! What stands for a value decides what becomes of it as a root. -/

/-- The endings of a root: a record, no item, a value that is no object. -/
inductive Ends (detectUuid : Bool) (value : Json) : Except SampleFault (Record Base) → Prop
  | record {members : List (String × Json)} : representative value = .object members →
      Ends detectUuid value (.ok ⟨defaultRootName, sampleFields detectUuid members⟩)
  | noItem : representative value = .array [] → Ends detectUuid value (.error .emptyArray)
  | scalar : (representative value).kind ≠ .array → (representative value).kind ≠ .object →
      Ends detectUuid value (.error (.scalarRoot (representative value).kind))

theorem ends_sampleRecord (detectUuid : Bool) (value : Json) :
    Ends detectUuid value (sampleRecord detectUuid value) := by
  induction value using Json.induction with
  | scalar value notArray notObject =>
      cases value with
      | array items => exact absurd rfl notArray
      | object members => exact absurd rfl notObject
      | _ => exact .scalar notArray notObject
  | array items ih =>
      cases items with
      | nil => exact .noItem rfl
      | cons first rest =>
          have ends := ih first List.mem_cons_self
          rw [sampleRecord]
          generalize sampleRecord detectUuid first = ending at ends ⊢
          cases ends with
          | record stands => exact .record stands
          | noItem stands => exact .noItem stands
          | scalar notArray notObject => exact .scalar notArray notObject
  | object members => exact .record rfl

theorem sampleRecord_representative (detectUuid : Bool) (value : Json) :
    sampleRecord detectUuid (representative value) = sampleRecord detectUuid value := by
  fun_induction representative value with
  | case1 first _ ih => exact ih
  | case2 => rfl

/-- A root has a record exactly if the value that stands for it is an object, and fails as that value
would, for want of items or by its kind. Below the root every value has a type, whatever stands beside
it or in it. -/
theorem walk_fails_at_root_only (detectUuid : Bool) :
    (∀ value, walkRecord detectUuid defaultRootName value = sampleRecord detectUuid value ∧
      walkRecord detectUuid defaultRootName value =
        walkRecord detectUuid defaultRootName (representative value) ∧
      ((∃ record, walkRecord detectUuid defaultRootName value = .ok record ∧ record.name = "Model") ↔
        (representative value).kind = .object) ∧
      (walkRecord detectUuid defaultRootName value = .error .emptyArray ↔
        representative value = .array []) ∧
      ∀ kind, walkRecord detectUuid defaultRootName value = .error (.scalarRoot kind) ↔
        kind = (representative value).kind ∧ kind ≠ .array ∧ kind ≠ .object) ∧
    ∀ key value, walkType detectUuid key value = .ok (sampleType detectUuid key value) := by
  refine ⟨fun value => ⟨walkRecord_eq value, ?_, ?_⟩, walkType_eq⟩
  · rw [walkRecord_eq, walkRecord_eq, sampleRecord_representative]
  · have ends := ends_sampleRecord detectUuid value
    rw [walkRecord_eq]
    generalize sampleRecord detectUuid value = ending at ends ⊢
    cases ends with
    | record stands => simp [stands, Json.kind, defaultRootName]
    | noItem stands => simp [stands, Json.kind]
    | scalar notArray notObject =>
        have items : representative value ≠ .array [] := by
          intro same
          exact notArray (congrArg Json.kind same)
        simp only [reduceCtorEq, false_and, exists_false, notObject, items, Except.error.injEq,
          SampleFault.scalarRoot.injEq, true_and]
        intro kind
        constructor
        · rintro rfl
          exact ⟨rfl, notArray, notObject⟩
        · exact fun named => named.1.symm

end SwiftModel.Inference
