/- The only type that inference takes as it is written is that of unsigned integers. -/
import SwiftModel.Proofs.Inference.Schema
import SwiftModel.Proofs.Model.Within

namespace SwiftModel.Inference

theorem onlyUnsigned_sample (detectUuid : Bool) :
    (∀ key value, (sampleBase detectUuid key value).OnlyUnsigned) ∧
      ∀ members, ∀ field ∈ sampleFields detectUuid members, field.base.OnlyUnsigned := by
  refine sampleBase.mutual_induct (fun key value => (sampleBase detectUuid key value).OnlyUnsigned)
    (fun members => ∀ field ∈ sampleFields detectUuid members, field.base.OnlyUnsigned)
    (fun _ => trivial) (fun _ _ => trivial) ?_ ?_ (fun _ => trivial) (fun _ _ _ ih => ih)
    (fun _ _ ih => .intro ih) (fun _ member => nomatch member) ?_
  case refine_1 =>
    intro key n
    cases n <;> trivial
  case refine_2 =>
    intro key text
    rw [sampleBase, stringBase]
    split <;> trivial
  case refine_3 =>
    intro key value members base fields field member
    rcases List.mem_cons.mp member with rfl | later
    · exact base
    · exact fields field later

theorem onlyUnsigned_sampleRecord {detectUuid : Bool} {document : Json} {record : Record Base}
    (h : sampleRecord detectUuid document = .ok record) : record.OnlyUnsigned := by
  fun_induction sampleRecord detectUuid document with
  | case1 members =>
      cases h
      exact .intro ((onlyUnsigned_sample detectUuid).2 members)
  | case2 => cases h
  | case3 first _ ih => exact ih h
  | case4 => cases h

theorem onlyUnsigned_integerBase (preferUnsigned : Bool) (node : Json) :
    (integerBase preferUnsigned node).OnlyUnsigned := by
  rw [integerBase]
  split
  · rfl
  · trivial

theorem onlyUnsigned_textBase {path : List String} {node : Json} {base : Base}
    (h : textBase path node = .ok base) : base.OnlyUnsigned := by
  rw [textBase] at h
  split at h
  · cases h
    trivial
  · split at h
    · cases h
    · cases h
      trivial
    · cases h
      trivial

theorem onlyUnsigned_schema (preferUnsigned : Bool) :
    (∀ key path node, ∀ type, nodeType preferUnsigned key path node = .ok type →
      type.base.OnlyUnsigned) ∧
    (∀ path node, ∀ fields, nodeFields preferUnsigned path node = .ok fields →
      ∀ field ∈ fields, field.base.OnlyUnsigned) ∧
    ∀ path required properties, ∀ fields,
      propertyFields preferUnsigned path required properties = .ok fields →
        ∀ field ∈ fields, field.base.OnlyUnsigned := by
  refine nodeType.mutual_induct
    (fun key path node => ∀ type, nodeType preferUnsigned key path node = .ok type →
      type.base.OnlyUnsigned)
    (fun path node => ∀ fields, nodeFields preferUnsigned path node = .ok fields →
      ∀ field ∈ fields, field.base.OnlyUnsigned)
    (fun path required properties => ∀ fields,
      propertyFields preferUnsigned path required properties = .ok fields →
        ∀ field ∈ fields, field.base.OnlyUnsigned) ?_ ?_ ?_ ?_ ?_ ?_
  case refine_1 =>
    intro key path node items fields type h
    obtain ⟨_, -, array | object | integer | text | boolean⟩ := nodeType_eq_ok h
    · obtain ⟨-, inner, element, found, -, inside, rfl⟩ := array
      exact items inner found element inside
    · obtain ⟨-, inner, inside, rfl⟩ := object
      exact .intro (fields inner inside)
    · obtain ⟨-, rfl⟩ := integer
      exact onlyUnsigned_integerBase preferUnsigned node
    · obtain ⟨-, base, inside, rfl⟩ := text
      exact onlyUnsigned_textBase inside
    · obtain ⟨-, rfl⟩ := boolean
      trivial
  case refine_2 =>
    intro path node missing fields h
    obtain ⟨_, _, found, -⟩ := nodeFields_eq_ok h
    rw [missing] at found
    cases found
  case refine_3 =>
    intro path node properties found ih fields h
    obtain ⟨same, required, again, -, inside⟩ := nodeFields_eq_ok h
    cases found.symm.trans again
    exact ih required fields inside
  case refine_4 =>
    intro path node value other found fields h
    obtain ⟨properties, _, again, -⟩ := nodeFields_eq_ok h
    exact absurd (Option.some.inj (found.symm.trans again)) (other properties)
  case refine_5 =>
    intro path required fields h
    rw [propertyFields] at h
    cases h
    exact fun field member => absurd member List.not_mem_nil
  case refine_6 =>
    intro path required key node properties base rest fields h field member
    obtain ⟨type, others, known, behind, rfl⟩ := propertyFields_cons_eq_ok h
    rcases List.mem_cons.mp member with rfl | later
    · exact base type known
    · exact rest others behind field later

theorem onlyUnsigned_schemaRecord {preferUnsigned : Bool} {root : Json} {record : Record Base}
    (h : schemaRecord preferUnsigned root = .ok record) : record.OnlyUnsigned := by
  obtain ⟨fields, -, inside, rfl⟩ := schemaRecord_eq_ok h
  exact .intro ((onlyUnsigned_schema preferUnsigned).2.1 [] root fields inside)

/-- A record that is inferred, from a sample or from a schema. -/
inductive Inferred (record : Record Base) : Prop
  | sample {detectUuid : Bool} {document : Json} :
      sampleRecord detectUuid document = .ok record → Inferred record
  | schema {preferUnsigned : Bool} {root : Json} :
      schemaRecord preferUnsigned root = .ok record → Inferred record

theorem Inferred.onlyUnsigned {record : Record Base} (h : Inferred record) :
    record.OnlyUnsigned := by
  cases h with
  | sample h => exact onlyUnsigned_sampleRecord h
  | schema h => exact onlyUnsigned_schemaRecord h

end SwiftModel.Inference
