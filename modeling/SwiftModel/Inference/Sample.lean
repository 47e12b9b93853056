/- The model of a sample: the record that one document of its kind suggests. -/
import SwiftModel.Identifier.Naming
import SwiftModel.Inference.Uuid
import SwiftModel.Json.Value
import SwiftModel.Model

namespace SwiftModel.Inference
open SwiftModel.Identifier

def stringBase (detectUuid : Bool) (text : String) : Base :=
  if detectUuid && isUuid text then .uuid else .string

def numberBase : Number → Base
  | .integer _ => .integer
  | .double _ => .double

def isArray : Json → Bool
  | .array _ => true
  | _ => false

mutual

/-- The base of a value under a key. An array stands for its first item, however deep; without items
it is taken for an array of texts. -/
def sampleBase (detectUuid : Bool) (key : String) : Json → Base
  | .null => .null
  | .boolean _ => .boolean
  | .number n => numberBase n
  | .string s => stringBase detectUuid s
  | .array [] => .string
  | .array (first :: _) => sampleBase detectUuid key first
  | .object members => .record ⟨typeNameForKey key, sampleFields detectUuid members⟩
termination_by structural value => value

def sampleFields (detectUuid : Bool) : List (String × Json) → List (Field Base)
  | [] => []
  | (key, value) :: members =>
    ⟨key, sampleBase detectUuid key value, isArray value, false⟩ :: sampleFields detectUuid members
termination_by structural members => members

end

/-- The type of a value under a key; nothing in a sample is optional. -/
def sampleType (detectUuid : Bool) (key : String) (value : Json) : FieldType :=
  ⟨sampleBase detectUuid key value, isArray value, false⟩

inductive SampleFault
  | emptyArray
  | scalarRoot (kind : Json.Kind)
deriving DecidableEq

def unsupportedRootMessage (found : String) : String :=
  "unsupported root type: expected an object, found " ++ found

def SampleFault.message : SampleFault → String
  | .emptyArray => "top-level array is empty; cannot infer an element type"
  | .scalarRoot kind => unsupportedRootMessage kind.name

/-- The record of a document; an array stands for its first item, however deep. -/
def sampleRecord (detectUuid : Bool) : Json → Except SampleFault (Record Base)
  | .object members => .ok ⟨defaultRootName, sampleFields detectUuid members⟩
  | .array [] => .error .emptyArray
  | .array (first :: _) => sampleRecord detectUuid first
  | scalar => .error (.scalarRoot scalar.kind)

end SwiftModel.Inference
