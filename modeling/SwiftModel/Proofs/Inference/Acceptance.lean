/- Which values a type of the model takes. -/
import SwiftModel.Json.Value
import SwiftModel.Model
import SwiftModel.Proofs.Inference.Uuid

namespace SwiftModel

/-- The values of a base that is no record. -/
inductive Base.Admits : Base → Json → Prop
  | integer (n : Int) : Admits .integer (.number (.integer n))
  | double (x : Binary64) : Admits .double (.number (.double x))
  | boolean (b : Bool) : Admits .boolean (.boolean b)
  | string (text : String) : Admits .string (.string text)
  | null : Admits .null .null
  | uuid {text : String} : Inference.UuidForm text → Admits .uuid (.string text)
  | unsigned {n : Int} : 0 ≤ n → Admits (.named "UInt") (.number (.integer n))
  | choice {values : List String} {text : String} : text ∈ values →
      Admits (.choice values) (.string text)

/-- How strictly an object has to fit the fields of a record. -/
inductive Fit
  /-- Optional fields may be absent, and other members may be there. -/
  | loose
  /-- The keys are those of the fields, in their order. -/
  | exact

mutual

inductive Base.Accepts : Fit → Base → Json → Prop
  | scalar {fit : Fit} {base : Base} {value : Json} :
      base.Admits value → Base.Accepts fit base value
  | loose {record : Record Base} {members : List (String × Json)} :
      (∀ field ∈ record.fields,
        FieldType.Accepts .loose field.type (members.lookup field.key)) →
      Base.Accepts .loose (.record record) (.object members)
  | exact {record : Record Base} {members : List (String × Json)} :
      members.map Prod.fst = record.fields.map Field.key →
      (∀ pair ∈ record.fields.zip members,
        FieldType.Accepts .exact pair.1.type (some pair.2.2)) →
      Base.Accepts .exact (.record record) (.object members)

/-- The values of a type, or their absence. -/
inductive FieldType.Accepts : Fit → FieldType → Option Json → Prop
  | absent {fit : Fit} {type : FieldType} :
      type.isOptional = true → FieldType.Accepts fit type none
  | single {fit : Fit} {type : FieldType} {value : Json} : type.isArray = false →
      Base.Accepts fit type.base value → FieldType.Accepts fit type (some value)
  | array {fit : Fit} {type : FieldType} {items : List Json} : type.isArray = true →
      (∀ item ∈ items, Base.Accepts fit type.base item) →
      FieldType.Accepts fit type (some (.array items))

end

theorem FieldType.Accepts.base {fit : Fit} {type : FieldType} {value : Json}
    (h : FieldType.Accepts fit type (some value)) (single : type.isArray = false) :
    Base.Accepts fit type.base value := by
  cases h with
  | single _ accepted => exact accepted
  | array isArray _ => rw [single] at isArray; cases isArray

end SwiftModel
