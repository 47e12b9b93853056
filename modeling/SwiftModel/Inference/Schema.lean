/- The model of a schema: the record that a JSON Schema describes, in the part of that language that
describes plain records. What is outside it is refused. -/
import SwiftModel.Identifier.Naming
import SwiftModel.Inference.Sample
import SwiftModel.Json.Pointer
import SwiftModel.Model

namespace SwiftModel.Inference
open SwiftModel.Identifier

/-- The keywords whose shape is checked. -/
inductive Keyword
  | type
  | properties
  | required
  | items
  | enum
deriving DecidableEq

def Keyword.name : Keyword → String
  | .type => "type"
  | .properties => "properties"
  | .required => "required"
  | .items => "items"
  | .enum => "enum"

def Keyword.shape : Keyword → String
  | .type => "a string"
  | .properties => "an object"
  | .required | .enum => "an array of strings"
  | .items => "a single schema object"

/-- Why a schema has no model; `path` selects the node at fault. -/
inductive SchemaFault
  | rootType (type : String)
  | unsupportedType (type : String) (path : List String)
  | missing (keyword : Keyword) (path : List String)
  | malformed (keyword : Keyword) (path : List String)
deriving DecidableEq

def nodePath (path : List String) : String := "#" ++ Json.pointerText path

def SchemaFault.message : SchemaFault → String
  | .rootType type => unsupportedRootMessage ("schema type \x60" ++ type ++ "\x60")
  | .unsupportedType type path =>
    "unsupported schema type \x60" ++ type ++ "\x60 at " ++ nodePath path
  | .missing keyword path =>
    "missing required schema field \x60" ++ keyword.name ++ "\x60 at " ++ nodePath path
  | .malformed keyword path =>
    "invalid schema field \x60" ++ keyword.name ++ "\x60 at " ++ nodePath path
      ++ ": expected " ++ keyword.shape

def keyword? (keyword : Keyword) (node : Json) : Option Json := node.member? keyword.name

inductive NodeType
  | array
  | object
  | integer
  | string
  | boolean
deriving DecidableEq

def NodeType.name : NodeType → String
  | .array => "array"
  | .object => "object"
  | .integer => "integer"
  | .string => "string"
  | .boolean => "boolean"

def NodeType.ofName? (name : String) : Option NodeType :=
  [array, object, integer, string, boolean].find? (·.name == name)

def typeName (path : List String) (node : Json) : Except SchemaFault String :=
  match keyword? .type node with
  | none => .error (.missing .type path)
  | some (.string name) => .ok name
  | some _ => .error (.malformed .type path)

/-- The texts in an array of nothing else. -/
def texts? : Json → Option (List String)
  | .array items => items.mapM Json.string?
  | _ => none

def requiredKeys (path : List String) (node : Json) : Except SchemaFault (List String) :=
  match keyword? .required node with
  | none => .ok []
  | some value =>
    match texts? value with
    | some keys => .ok keys
    | none => .error (.malformed .required path)

def isNonnegativeBound (keyword : String) (node : Json) : Bool :=
  match node.member? keyword with
  | some (.number n) => n.isNonnegative
  | _ => false

def unsignedName : String := "UInt"

/-- Integers with a bound of zero or more are unsigned, if that is wanted. -/
def integerBase (preferUnsigned : Bool) (node : Json) : Base :=
  if preferUnsigned &&
      (isNonnegativeBound "minimum" node || isNonnegativeBound "exclusiveMinimum" node) then
    .named unsignedName
  else .integer

/-- Texts may be listed; an empty list leaves them free. -/
def textBase (path : List String) (node : Json) : Except SchemaFault Base :=
  match keyword? .enum node with
  | none => .ok .string
  | some value =>
    match texts? value with
    | none => .error (.malformed .enum path)
    | some [] => .ok .string
    | some values => .ok (.choice values.eraseDups)

theorem sizeOf_lookup_lt {key : String} {members : List (String × Json)} {value : Json}
    (h : members.lookup key = some value) : sizeOf value < sizeOf members := by
  induction members with
  | nil => simp at h
  | cons member members ih =>
    obtain ⟨k, v⟩ := member
    rw [List.lookup_cons] at h
    split at h
    next =>
      rw [Option.some.injEq] at h
      subst h
      simp only [List.cons.sizeOf_spec, Prod.mk.sizeOf_spec]
      omega
    next =>
      have := ih h
      simp only [List.cons.sizeOf_spec]
      omega

theorem sizeOf_keyword_lt {keyword : Keyword} {node value : Json}
    (h : keyword? keyword node = some value) : sizeOf value < sizeOf node := by
  unfold keyword? Json.member? at h
  split at h
  next =>
    have := sizeOf_lookup_lt h
    simp only [Json.object.sizeOf_spec]
    omega
  next => simp at h

mutual

def nodeType (preferUnsigned : Bool) (key : String) (path : List String) (node : Json) :
    Except SchemaFault FieldType := do
  let name ← typeName path node
  match NodeType.ofName? name with
  | none => throw (.unsupportedType name path)
  | some .array =>
    match h : keyword? .items node with
    | none => throw (.missing .items path)
    | some items =>
      if !items.isObject then throw (.malformed .items path)
      have := sizeOf_keyword_lt h
      let element ← nodeType preferUnsigned key (path ++ [Keyword.items.name]) items
      return .arrayOf element.base
  | some .object => return .plain (.record ⟨typeNameForKey key, ← nodeFields preferUnsigned path node⟩)
  | some .integer => return .plain (integerBase preferUnsigned node)
  | some .string => return .plain (← textBase path node)
  | some .boolean => return .plain .boolean
termination_by 2 * sizeOf node + 1

def nodeFields (preferUnsigned : Bool) (path : List String) (node : Json) :
    Except SchemaFault (List (Field Base)) :=
  match h : keyword? .properties node with
  | none => throw (.missing .properties path)
  | some (.object properties) => do
    let required ← requiredKeys path node
    have : sizeOf properties < sizeOf node :=
      Nat.lt_trans (by simp only [Json.object.sizeOf_spec]; omega) (sizeOf_keyword_lt h)
    propertyFields preferUnsigned path required properties
  | some _ => throw (.malformed .properties path)
termination_by 2 * sizeOf node

/-- The fields of properties; one that is not required is optional. -/
def propertyFields (preferUnsigned : Bool) (path required : List String) :
    List (String × Json) → Except SchemaFault (List (Field Base))
  | [] => return []
  | (key, node) :: properties => do
    let type ← nodeType preferUnsigned key (path ++ [Keyword.properties.name, key]) node
    let field : Field Base := ⟨key, type.base, type.isArray, !required.contains key⟩
    return field :: (← propertyFields preferUnsigned path required properties)
termination_by properties => 2 * sizeOf properties

end

/-- The type of a property that a schema of its own describes under a key. -/
def propertyType (preferUnsigned : Bool) (key : String) (node : Json) :
    Except SchemaFault FieldType :=
  nodeType preferUnsigned key [Keyword.properties.name, key] node

/-- The record of a schema, which must describe an object. -/
def schemaRecord (preferUnsigned : Bool) (root : Json) : Except SchemaFault (Record Base) := do
  let name ← typeName [] root
  if name ≠ NodeType.object.name then throw (.rootType name)
  return ⟨defaultRootName, ← nodeFields preferUnsigned [] root⟩

end SwiftModel.Inference
