/- The model of a sample, by a walk in which every step may fail. -/
import SwiftModel.Inference.Sample

namespace SwiftModel.Inference
open SwiftModel.Identifier

mutual

/-- The record of a value, under a name; an array stands for its first item. -/
def walkRecord (detectUuid : Bool) (name : String) : Json → Except SampleFault (Record Base)
  | .object members => return ⟨name, ← walkFields detectUuid members⟩
  | .array [] => throw .emptyArray
  | .array (first :: _) => walkRecord detectUuid name first
  | scalar => throw (.scalarRoot scalar.kind)
termination_by value => (sizeOf value, 0)

/-- The type of a value under a key. An object is walked as a root is, under another name. -/
def walkType (detectUuid : Bool) (key : String) : Json → Except SampleFault FieldType
  | .null => return .plain .null
  | .boolean _ => return .plain .boolean
  | .number n => return .plain (numberBase n)
  | .string s => return .plain (stringBase detectUuid s)
  | .array [] => return .arrayOf .string
  | .array (first :: _) => return .arrayOf (← walkType detectUuid key first).base
  | .object members =>
    return .plain (.record (← walkRecord detectUuid (typeNameForKey key) (.object members)))
termination_by value => (sizeOf value, 1)

def walkFields (detectUuid : Bool) :
    List (String × Json) → Except SampleFault (List (Field Base))
  | [] => return []
  | (key, value) :: members => do
    let type ← walkType detectUuid key value
    return type.field key :: (← walkFields detectUuid members)
termination_by members => (sizeOf members, 0)

end

end SwiftModel.Inference
