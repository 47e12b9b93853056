/- The path of a fault leads from the root of a schema to the node that has the fault. -/
import SwiftModel.Proofs.Inference.Grammar
import SwiftModel.Proofs.Json.DistinctKeys
import SwiftModel.Proofs.Json.Pointer

namespace SwiftModel.Inference
open Json (DistinctKeys)

/-- The path that a fault carries. Only the fault of a root of another type has none. -/
def SchemaFault.path? : SchemaFault → Option (List String)
  | .rootType _ => none
  | .unsupportedType _ path | .missing _ path | .malformed _ path => some path

/-- What a fault says of a node. -/
def SchemaFault.Afflicts (node : Json) : SchemaFault → Prop
  | .rootType type => keyword? .type node = some (.string type) ∧ type ≠ "object"
  | .unsupportedType type _ => keyword? .type node = some (.string type) ∧
      type ∉ ["object", "array", "integer", "string", "boolean"]
  | .missing keyword _ => keyword? keyword node = none
  | .malformed keyword _ => ∃ value, keyword? keyword node = some value ∧ ¬ keyword.Fits value

/-- A fault's path goes on from `path`, and the rest of it leads into the node to what has the
fault. -/
def Located (path : List String) (node : Json) (fault : SchemaFault) : Prop :=
  ∃ rest inner, fault.path? = some (path ++ rest) ∧ node.at? rest = some inner ∧
    fault.Afflicts inner

section Places

variable {path : List String} {node : Json} {fault : SchemaFault}

theorem Located.here (carried : fault.path? = some path) (h : fault.Afflicts node) :
    Located path node fault :=
  ⟨[], node, by rw [List.append_nil, carried], rfl, h⟩

theorem Located.child {part : String} {inner : Json} (step : node.child? part = some inner)
    (h : Located (path ++ [part]) inner fault) : Located path node fault := by
  obtain ⟨rest, place, carried, leads, afflicts⟩ := h
  refine ⟨part :: rest, place, ?_, ?_, afflicts⟩
  · rw [carried, List.append_assoc, List.singleton_append]
  · rw [Json.at?_cons, step]
    exact leads

theorem Located.keyword {keyword : Keyword} {inner : Json}
    (found : keyword? keyword node = some inner)
    (h : Located (path ++ [keyword.name]) inner fault) : Located path node fault :=
  h.child (Json.child?_of_member? found)

theorem located_typeName (h : typeName path node = .error fault) : Located path node fault := by
  rw [typeName] at h
  split at h
  next absent =>
    cases h
    exact .here rfl absent
  next => cases h
  next value other found =>
    cases h
    refine .here rfl ⟨value, found, ?_⟩
    rintro ⟨name, rfl⟩
    exact other name rfl

theorem located_unsupported {name : String} (named : typeName path node = .ok name)
    (unknown : NodeType.ofName? name = none) : Located path node (.unsupportedType name path) := by
  have other : ∀ type : NodeType, name ≠ type.name := by
    intro type same
    rw [NodeType.ofName?_eq_some.mpr same] at unknown
    cases unknown
  refine .here rfl ⟨typeName_eq_ok.mp named, ?_⟩
  intro member
  simp only [List.mem_cons, List.not_mem_nil, or_false] at member
  rcases member with same | same | same | same | same
  · exact other .object same
  · exact other .array same
  · exact other .integer same
  · exact other .string same
  · exact other .boolean same

theorem located_requiredKeys (h : requiredKeys path node = .error fault) :
    Located path node fault := by
  rw [requiredKeys] at h
  split at h
  next => cases h
  next value found =>
    split at h
    next => cases h
    next unread =>
      cases h
      exact .here rfl ⟨value, found, not_isTexts unread⟩

theorem located_textBase (h : textBase path node = .error fault) : Located path node fault := by
  rw [textBase] at h
  split at h
  next => cases h
  next value found =>
    split at h
    next unread =>
      cases h
      exact .here rfl ⟨value, found, not_isTexts unread⟩
    next => cases h
    next => cases h

/-- An array is at fault itself if its items are no object; else the fault lies in the items. -/
theorem located_array {preferUnsigned : Bool} {key : String} (is : HasType .array node)
    (h : nodeType preferUnsigned key path node = .error fault)
    (inside : ∀ items, keyword? .items node = some items →
      nodeType preferUnsigned key (path ++ [Keyword.items.name]) items = .error fault →
        Located (path ++ [Keyword.items.name]) items fault) : Located path node fault := by
  rw [nodeType_of_array is] at h
  cases found : keyword? .items node with
  | none =>
      rw [found] at h
      cases h
      exact .here rfl found
  | some items =>
      simp only [found] at h
      split at h
      next =>
        rcases bind_eq_error.mp h with below | ⟨_, -, impossible⟩
        · exact (inside items found below).keyword found
        · cases impossible
      next noObject =>
        cases h
        refine .here rfl ⟨items, found, ?_⟩
        rintro ⟨members, rfl⟩
        exact noObject rfl

end Places

/-- By recursion on the node: the path grows by the keywords and keys that lead to the node at which
the recursion stops. Only with distinct keys does a key lead to the property it was taken from. -/
theorem nodeType_located (preferUnsigned : Bool) :
    (∀ key path node, DistinctKeys node → ∀ fault,
      nodeType preferUnsigned key path node = .error fault → Located path node fault) ∧
    (∀ path node, DistinctKeys node → ∀ fault,
      nodeFields preferUnsigned path node = .error fault → Located path node fault) ∧
    ∀ path required properties, (∀ property ∈ properties, DistinctKeys property.2) → ∀ fault,
      propertyFields preferUnsigned path required properties = .error fault →
        ∃ property ∈ properties,
          Located (path ++ [Keyword.properties.name, property.1]) property.2 fault := by
  refine nodeType.mutual_induct
    (fun key path node => DistinctKeys node → ∀ fault,
      nodeType preferUnsigned key path node = .error fault → Located path node fault)
    (fun path node => DistinctKeys node → ∀ fault,
      nodeFields preferUnsigned path node = .error fault → Located path node fault)
    (fun path required properties => (∀ property ∈ properties, DistinctKeys property.2) →
      ∀ fault, propertyFields preferUnsigned path required properties = .error fault →
        ∃ property ∈ properties,
          Located (path ++ [Keyword.properties.name, property.1]) property.2 fault)
    ?node ?missing ?properties ?malformed ?nil ?cons
  case node =>
    intro key path node items fields distinct fault h
    cases named : typeName path node with
    | error other =>
        rw [nodeType_of_untyped named] at h
        cases h
        exact located_typeName named
    | ok name =>
        cases known : NodeType.ofName? name with
        | none =>
            rw [nodeType_of_unsupported named known] at h
            cases h
            exact located_unsupported named known
        | some type =>
            have is : HasType type node := hasType_of_ofName? named known
            cases type with
            | array =>
                exact located_array is h fun inner found =>
                  items inner found (distinct.member? found) fault
            | object =>
                rw [nodeType_of_object is] at h
                rcases bind_eq_error.mp h with inside | ⟨_, -, impossible⟩
                · exact fields distinct fault inside
                · cases impossible
            | integer =>
                rw [nodeType_of_integer is] at h
                cases h
            | string =>
                rw [nodeType_of_string is] at h
                rcases bind_eq_error.mp h with inside | ⟨_, -, impossible⟩
                · exact located_textBase inside
                · cases impossible
            | boolean =>
                rw [nodeType_of_boolean is] at h
                cases h
  case missing =>
    intro path node absent distinct fault h
    rw [nodeFields_of_missing absent] at h
    cases h
    exact .here rfl absent
  case properties =>
    intro path node properties found ih distinct fault h
    rw [nodeFields_of_properties found] at h
    have inside := distinct.member? found
    rcases bind_eq_error.mp h with first | ⟨required, -, rest⟩
    · exact located_requiredKeys first
    · obtain ⟨property, member, located⟩ := ih required inside.members fault rest
      have step : (Json.object properties).child? property.1 = some property.2 :=
        Json.lookup_of_mem inside.nodup member
      -- the path names the keyword and then the key: two steps into the node
      rw [List.append_cons] at located
      exact (located.child step).keyword found
  case malformed =>
    intro path node value other found distinct fault h
    rw [nodeFields_of_malformed found other] at h
    cases h
    refine .here rfl ⟨value, found, ?_⟩
    rintro ⟨members, same⟩
    exact other members same
  case nil =>
    intro path required distinct fault h
    rw [propertyFields] at h
    cases h
  case cons =>
    intro path required key node properties first rest distinct fault h
    rw [propertyFields_cons] at h
    have head : DistinctKeys node := distinct (key, node) List.mem_cons_self
    have tail : ∀ property ∈ properties, DistinctKeys property.2 :=
      fun property later => distinct property (List.mem_cons_of_mem _ later)
    rcases bind_eq_error.mp h with inside | ⟨type, -, behind⟩
    · exact ⟨(key, node), List.mem_cons_self, first head fault inside⟩
    · rcases bind_eq_error.mp behind with inside | ⟨_, -, impossible⟩
      · obtain ⟨property, member, located⟩ := rest tail fault inside
        exact ⟨property, List.mem_cons_of_mem _ member, located⟩
      · cases impossible

/-- A fault that carries a path points at a node of the schema that has this fault, whatever the
keys on the way are made of. -/
theorem schemaRecord_fault_place {preferUnsigned : Bool} {root : Json} {fault : SchemaFault}
    {path : List String} (distinct : DistinctKeys root)
    (h : schemaRecord preferUnsigned root = .error fault) (carried : fault.path? = some path) :
    ∃ pointer node, nodePath path = "#" ++ pointer ∧ root.pointer? pointer = some node ∧
      fault.Afflicts node := by
  have located : Located [] root fault := by
    rw [schemaRecord] at h
    rcases bind_eq_error.mp h with untyped | ⟨name, named, h⟩
    · exact located_typeName untyped
    · split at h
      next => cases h; cases carried
      next =>
        rcases bind_eq_error.mp h with inside | ⟨_, -, impossible⟩
        · exact (nodeType_located preferUnsigned).2.1 [] root distinct fault inside
        · cases impossible
  obtain ⟨rest, node, known, leads, afflicts⟩ := located
  cases carried.symm.trans known
  have resolves := (Json.pointer?_pointerText root rest).trans leads
  exact ⟨Json.pointerText rest, node, rfl, resolves, afflicts⟩

def unnamedNode : Json := .object [("type", .string "number")]

def entryNode : Json := .object [
  ("type", .string "object"), ("properties", .object [("", unnamedNode)])]

def entriesNode : Json := .object [("type", .string "array"), ("items", entryNode)]

/-- The keys `a/b~c` and the empty key lead to a type that is not supported. -/
def oddKeySchema : Json := .object [
  ("type", .string "object"), ("properties", .object [("a/b~c", entriesNode)])]

theorem schemaRecord_oddKeySchema :
    schemaRecord true oddKeySchema = .error (.unsupportedType "number"
      ["properties", "a/b~c", "items", "properties", ""]) := by
  have root : HasType .object oddKeySchema := rfl
  have entries : HasType .array entriesNode := rfl
  have entry : HasType .object entryNode := rfl
  have properties : keyword? .properties oddKeySchema = some (.object [("a/b~c", entriesNode)]) :=
    rfl
  have items : keyword? .items entriesNode = some entryNode := rfl
  have inner : keyword? .properties entryNode = some (.object [("", unnamedNode)]) := rfl
  have unnamed : ∀ path, typeName path unnamedNode = .ok "number" := fun path => rfl
  rw [schemaRecord_of_object root, nodeFields_of_properties properties]
  simp only [propertyFields_cons, nodeType_of_array entries, items, nodeType_of_object entry,
    nodeFields_of_properties inner, nodeType_of_unsupported (unnamed _) (by decide)]
  rfl

theorem fault_place_of_odd_keys :
    schemaRecord true oddKeySchema = .error (.unsupportedType "number"
      ["properties", "a/b~c", "items", "properties", ""]) ∧
    ∃ pointer node,
      nodePath ["properties", "a/b~c", "items", "properties", ""] = "#" ++ pointer ∧
      oddKeySchema.pointer? pointer = some node ∧
      SchemaFault.Afflicts node (.unsupportedType "number"
        ["properties", "a/b~c", "items", "properties", ""]) := by
  have distinct : DistinctKeys oddKeySchema := by simp [oddKeySchema, entriesNode, entryNode, unnamedNode]
  exact ⟨schemaRecord_oddKeySchema,
    schemaRecord_fault_place distinct schemaRecord_oddKeySchema rfl⟩

end SwiftModel.Inference
