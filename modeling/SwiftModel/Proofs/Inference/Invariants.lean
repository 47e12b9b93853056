/- What every inferred model keeps to, at every depth. Each record in it has distinct keys and is named for
the key that holds it; and what its fields hold is limited to what the document, or the node of the schema
that the record stands for, can say. -/
import Mathlib.Data.List.Induction
import SwiftModel.Proofs.Inference.Described
import SwiftModel.Proofs.Inference.SampleFits
import SwiftModel.Proofs.Inference.Unsigned
import SwiftModel.Proofs.Json.DistinctKeys
import SwiftModel.Proofs.Json.Induction
import SwiftModel.Proofs.Json.Reordered
import SwiftModel.Proofs.Model.Within

namespace SwiftModel.Inference
open SwiftModel.Identifier SwiftModel.Json

/-- The texts of a list, each once and in the order in which they first occur. -/
structure FirstOccurrences (listed values : List String) : Prop where
  mem_iff : ∀ text, text ∈ values ↔ text ∈ listed
  order : values.Pairwise fun a b => listed.idxOf a < listed.idxOf b

/-- What a record of a sample keeps to. -/
structure SampleShape (record : Record Base) : Prop where
  distinct : (record.fields.map Field.key).Nodup
  named : ∀ field ∈ record.fields, ∀ inner, field.base = .record inner → inner.name = typeNameForKey field.key
  present : ∀ field ∈ record.fields, field.isOptional = false
  noForced : ∀ field ∈ record.fields, ∀ name, field.base ≠ .named name
  noChoice : ∀ field ∈ record.fields, ∀ values, field.base ≠ .choice values

/-- A node itself, or the node of its items at the bottom of arrays. -/
inductive Innermost : Json → Json → Prop
  | self {node : Json} : ¬ HasType .array node → Innermost node node
  | items {node items element : Json} : HasType .array node → keyword? .items node = some items →
    Innermost items element → Innermost node element

/-- What the base of a node keeps to, under a key. -/
structure Suits (preferUnsigned : Bool) (key : String) (node : Json) (base : Base) : Prop where
  named : ∀ inner, base = .record inner → inner.name = typeNameForKey key
  listed : ∀ values, base = .choice values → values ≠ [] ∧ values.Nodup ∧
    ∃ element texts, Innermost node element ∧
      keyword? .enum element = some (.array (texts.map .string)) ∧ FirstOccurrences texts values
  forced : ∀ name, base = .named name → name = "UInt" ∧ preferUnsigned = true
  known : base ≠ .double ∧ base ≠ .null ∧ base ≠ .uuid

/-- What a record of a schema keeps to, for the node that it stands for. -/
structure SchemaShape (preferUnsigned : Bool) (node : Json) (record : Record Base) : Prop where
  distinct : (record.fields.map Field.key).Nodup
  suits : ∃ properties, keyword? .properties node = some (.object properties) ∧
    List.Forall₂ (fun property field => field.key = property.1 ∧
      Suits preferUnsigned field.key property.2 field.base) properties record.fields

/-- A record within the record of a node stands for a node within that one. -/
inductive StandsFor (root : Json) (outer : Record Base) : Json → Record Base → Prop
  | root : StandsFor root outer root outer
  | field {node element : Json} {record inner : Record Base} {properties : List (String × Json)}
    {pair : (String × Json) × Field Base} : StandsFor root outer node record →
    keyword? .properties node = some (.object properties) → pair ∈ properties.zip record.fields →
    Innermost pair.1.2 element → pair.2.base = .record inner → StandsFor root outer element inner

/-! Enumerations. -/

/-- By induction on the list from behind: a text that is new occurs behind all that came before it. -/
theorem firstOccurrences_eraseDups (listed : List String) : FirstOccurrences listed listed.eraseDups := by
  refine ⟨fun text => List.mem_eraseDups, ?_⟩
  induction listed using List.reverseRecOn with
  | nil => exact .nil
  | append_singleton listed text ih =>
      have before : listed.eraseDups.Pairwise fun a b =>
          (listed ++ [text]).idxOf a < (listed ++ [text]).idxOf b := by
        refine ih.imp_of_mem fun {a b} ha hb less => ?_
        rw [List.idxOf_append_of_mem (List.mem_eraseDups.mp ha),
          List.idxOf_append_of_mem (List.mem_eraseDups.mp hb)]
        exact less
      rw [List.eraseDups_append]
      by_cases old : text ∈ listed
      · have none : [text].removeAll listed = [] := by simp [List.removeAll, old]
        rw [none]
        simpa using before
      · have one : ([text].removeAll listed).eraseDups = [text] := by
          simp [List.removeAll, old, List.eraseDups_cons]
        rw [one]
        refine List.pairwise_append.mpr ⟨before, List.pairwise_singleton _ text, fun a member b last => ?_⟩
        have earlier : a ∈ listed := List.mem_eraseDups.mp member
        rw [List.mem_singleton.mp last, List.idxOf_append_of_mem earlier, List.idxOf_append_of_notMem old]
        exact Nat.lt_of_lt_of_le (List.idxOf_lt_length_of_mem earlier) (Nat.le_add_right _ _)

theorem FirstOccurrences.nodup {listed values : List String} (h : FirstOccurrences listed values) :
    values.Nodup := by
  refine h.order.imp fun {a b} less same => ?_
  rw [same] at less
  exact Nat.lt_irrefl _ less

/-! Samples, by induction on the document. -/

/-- What a base that a sample has under a key keeps to, with all the records in it. -/
structure SampleBase (key : String) (base : Base) : Prop where
  named : ∀ inner, base = .record inner → inner.name = typeNameForKey key
  within : ∀ outer, base = .record outer → ∀ inner, outer.Within inner → SampleShape inner
  noForced : ∀ name, base ≠ .named name
  noChoice : ∀ values, base ≠ .choice values

theorem SampleBase.scalar {key : String} {base : Base} (noRecord : ∀ inner, base ≠ .record inner)
    (noForced : ∀ name, base ≠ .named name) (noChoice : ∀ values, base ≠ .choice values) :
    SampleBase key base :=
  ⟨fun inner same => absurd same (noRecord inner), fun outer same => absurd same (noRecord outer), noForced,
    noChoice⟩

theorem sampleShape_within {detectUuid : Bool} {members : List (String × Json)} (name : String)
    (distinct : (members.map Prod.fst).Nodup)
    (bases : ∀ member ∈ members, SampleBase member.1 (sampleBase detectUuid member.1 member.2)) :
    ∀ inner, Record.Within ⟨name, sampleFields detectUuid members⟩ inner → SampleShape inner := by
  intro inner within
  rcases within.cases_head with rfl | ⟨field, member, held, same, deeper⟩
  · rw [sampleFields_eq_map]
    constructor
    · simpa [Function.comp_def, FieldType.field] using distinct
    all_goals
      intro field member
      obtain ⟨source, listed, rfl⟩ := List.mem_map.mp member
    · exact (bases source listed).named
    · rfl
    · exact (bases source listed).noForced
    · exact (bases source listed).noChoice
  · rw [sampleFields_eq_map] at member
    obtain ⟨source, listed, rfl⟩ := List.mem_map.mp member
    exact (bases source listed).within held same inner deeper

theorem sampleBase_shape (detectUuid : Bool) {value : Json} (distinct : DistinctKeys value) (key : String) :
    SampleBase key (sampleBase detectUuid key value) := by
  induction value using Json.induction generalizing key with
  | scalar value notArray notObject =>
      cases value with
      | null => exact .scalar (by simp [sampleBase]) (by simp [sampleBase]) (by simp [sampleBase])
      | boolean b => exact .scalar (by simp [sampleBase]) (by simp [sampleBase]) (by simp [sampleBase])
      | number n =>
          cases n <;> exact .scalar (by simp [sampleBase, numberBase]) (by simp [sampleBase, numberBase])
            (by simp [sampleBase, numberBase])
      | string text =>
          rw [sampleBase, stringBase]
          split <;> exact .scalar (by simp) (by simp) (by simp)
      | array items => exact absurd rfl notArray
      | object members => exact absurd rfl notObject
  | array items ih =>
      cases items with
      | nil => exact .scalar (by simp [sampleBase]) (by simp [sampleBase]) (by simp [sampleBase])
      | cons first rest =>
          rw [sampleBase]
          exact ih first List.mem_cons_self (distinct.items first List.mem_cons_self) key
  | object members ih =>
      have bases : ∀ member ∈ members, SampleBase member.1 (sampleBase detectUuid member.1 member.2) :=
        fun member listed => ih member listed (distinct.members member listed) member.1
      rw [sampleBase]
      refine ⟨?_, ?_, by simp, by simp⟩
      · rintro _ ⟨⟩
        rfl
      · rintro _ ⟨⟩
        exact sampleShape_within _ distinct.nodup bases

theorem sampleRecord_shape {detectUuid : Bool} {document : Json} {record : Record Base}
    (distinct : DistinctKeys document) (known : sampleRecord detectUuid document = .ok record) :
    ∀ inner, record.Within inner → SampleShape inner := by
  fun_induction sampleRecord detectUuid document with
  | case1 members =>
      cases known
      exact sampleShape_within _ distinct.nodup fun member listed =>
        sampleBase_shape detectUuid (distinct.members member listed) member.1
  | case2 => cases known
  | case3 first rest ih => exact ih (distinct.items first List.mem_cons_self) known
  | case4 => cases known

/-! Schemas, by induction on the description of the base. -/

theorem StandsFor.under {root element node : Json} {outer held inner : Record Base}
    {properties : List (String × Json)} {pair : (String × Json) × Field Base}
    (found : keyword? .properties root = some (.object properties))
    (listed : pair ∈ properties.zip outer.fields)
    (innermost : Innermost pair.1.2 element) (same : pair.2.base = .record held)
    (stands : StandsFor element held node inner) : StandsFor root outer node inner := by
  induction stands with
  | root => exact .field .root found listed innermost same
  | field _ found' listed' innermost' same' ih => exact .field ih found' listed' innermost' same'

/-- Each record within the record of a node stands for a node, and keeps to what it says. -/
def Keeps (preferUnsigned : Bool) (root : Json) (outer : Record Base) : Prop :=
  ∀ inner, outer.Within inner → ∃ node, StandsFor root outer node inner ∧ SchemaShape preferUnsigned node inner

theorem keeps_of_fields {preferUnsigned : Bool} {node : Json} {name : String}
    {properties : List (String × Json)} {fields : List (Field Base)} (distinct : DistinctKeys node)
    (found : keyword? .properties node = some (.object properties))
    (declared : List.Forall₂ (Declared (Requires node)) properties fields)
    (suits : ∀ pair ∈ properties.zip fields, Suits preferUnsigned pair.1.1 pair.1.2 pair.2.base)
    (keeps : ∀ pair ∈ properties.zip fields, ∀ held, pair.2.base = .record held →
      ∃ element, Innermost pair.1.2 element ∧ Keeps preferUnsigned element held) :
    Keeps preferUnsigned node ⟨name, fields⟩ := by
  intro inner within
  have lengths : properties.length = fields.length := declared.length_eq
  rcases within.cases_head with rfl | ⟨field, member, held, same, deeper⟩
  · refine ⟨node, .root, ?_, properties, found, ?_⟩
    · have keys : fields.map Field.key = properties.map Prod.fst := by
        clear found suits keeps within
        induction declared with
        | nil => rfl
        | cons first _ ih => exact congrArg₂ List.cons first.key (ih (Nat.succ.inj lengths))
      rw [keys]
      exact (distinct.member? found).nodup
    · refine List.forall₂_iff_zip.mpr ⟨lengths, fun {property field} listed => ?_⟩
      have key := (List.forall₂_iff_zip.mp declared).2 listed |>.key
      refine ⟨key, ?_⟩
      rw [key]
      exact suits _ listed
  · obtain ⟨⟨property, field⟩, listed, rfl⟩ := exists_mem_zip lengths member
    obtain ⟨element, innermost, keeps⟩ := keeps _ listed held same
    obtain ⟨stood, stands, shape⟩ := keeps inner deeper
    exact ⟨stood, .under found listed innermost same stands, shape⟩

theorem suits_scalar {preferUnsigned : Bool} {key : String} {node : Json} {base : Base}
    (scalar : base = .integer ∨ base = .string ∨ base = .boolean) : Suits preferUnsigned key node base := by
  rcases scalar with rfl | rfl | rfl <;> exact ⟨by simp, by simp, by simp, by simp⟩

theorem suits_integerBase (preferUnsigned : Bool) (key : String) (node : Json) :
    Suits preferUnsigned key node (integerBase preferUnsigned node) := by
  rw [integerBase]
  split
  next unsigned =>
    refine ⟨by simp, by simp, ?_, by simp⟩
    rintro _ ⟨⟩
    exact ⟨rfl, (Bool.and_eq_true_iff.mp unsigned).1⟩
  next => exact suits_scalar (.inl rfl)

theorem HasBase.suits {preferUnsigned : Bool} {key : String} {node : Json} {base : Base}
    (h : HasBase preferUnsigned key node base) (distinct : DistinctKeys node) :
    Suits preferUnsigned key node base ∧ ∀ held, base = .record held →
      ∃ element, Innermost node element ∧ Keeps preferUnsigned element held := by
  induction h with
  | items is found _ ih =>
      obtain ⟨suits, keeps⟩ := ih (distinct.member? found)
      refine ⟨⟨suits.named, fun values same => ?_, suits.forced, suits.known⟩, fun held same => ?_⟩
      · obtain ⟨nonempty, distinct, element, texts, innermost, listed⟩ := suits.listed values same
        exact ⟨nonempty, distinct, element, texts, .items is found innermost, listed⟩
      · obtain ⟨element, innermost, keeps⟩ := keeps held same
        exact ⟨element, .items is found innermost, keeps⟩
  | @record key node properties fields is found declared _ ih =>
      have inside := (distinct.member? found).members
      have each pair (listed : pair ∈ properties.zip fields) :=
        ih pair listed (inside pair.1 (List.of_mem_zip listed).1)
      refine ⟨⟨?_, by simp, by simp, by simp⟩, ?_⟩
      · rintro _ ⟨⟩
        rfl
      · rintro _ ⟨⟩
        have notArray : ¬ HasType .array node := fun array => absurd (is.unique array) (by decide)
        refine ⟨node, .self notArray, keeps_of_fields distinct found declared ?_ ?_⟩
        · exact fun pair listed => (each pair listed).1
        · exact fun pair listed => (each pair listed).2
  | @integer key node _ =>
      refine ⟨suits_integerBase preferUnsigned key node, fun held same => ?_⟩
      rw [integerBase] at same
      split at same <;> cases same
  | string _ _ => exact ⟨suits_scalar (.inr (.inl rfl)), by simp⟩
  | @choice key node values is nonempty listed =>
      refine ⟨⟨by simp, ?_, by simp, by simp⟩, by simp⟩
      rintro _ ⟨⟩
      have notArray : ¬ HasType .array node := fun array => absurd (is.unique array) (by decide)
      have first := firstOccurrences_eraseDups values
      refine ⟨fun none => nonempty ?_, first.nodup, node, values, .self notArray, listed, first⟩
      refine List.eq_nil_iff_forall_not_mem.mpr fun text member => ?_
      have kept := List.mem_eraseDups.mpr member
      rw [none] at kept
      cases kept
  | boolean _ => exact ⟨suits_scalar (.inr (.inr rfl)), by simp⟩

theorem schemaRecord_shape {preferUnsigned : Bool} {root : Json} {record : Record Base}
    (distinct : DistinctKeys root) (known : schemaRecord preferUnsigned root = .ok record) :
    Keeps preferUnsigned root record := by
  obtain ⟨fields, -, inside, rfl⟩ := schemaRecord_eq_ok known
  obtain ⟨-, properties, found, declared, bases⟩ := (nodeType_sound preferUnsigned).2.1 [] root fields inside
  have nodes := (distinct.member? found).members
  have each pair (listed : pair ∈ properties.zip fields) :=
    (bases pair listed).suits (nodes pair.1 (List.of_mem_zip listed).1)
  exact keeps_of_fields distinct found declared (fun pair listed => (each pair listed).1)
    fun pair listed => (each pair listed).2

/-- In every model that is inferred, each record keeps to its shape, the records within records included. -/
theorem inferred_shapes :
    (∀ detectUuid document record, DistinctKeys document → sampleRecord detectUuid document = .ok record →
      ∀ inner, record.Within inner → SampleShape inner) ∧
    ∀ preferUnsigned root record, DistinctKeys root → schemaRecord preferUnsigned root = .ok record →
      ∀ inner, record.Within inner →
        ∃ node, StandsFor root record node inner ∧ SchemaShape preferUnsigned node inner :=
  ⟨fun _ _ _ distinct known => sampleRecord_shape distinct known,
    fun _ _ _ distinct known => schemaRecord_shape distinct known⟩

section Crate

def stateNode : Json := .object [("type", .string "string"),
  ("enum", .array [.string "sent", .string "lost", .string "sent"])]

def itemNode : Json := .object [("type", .string "object"), ("properties", .object [("state", stateNode)])]

def itemsNode : Json := .object [("type", .string "array"), ("items", itemNode)]

/-- A crate has items in it, each with a state that is listed twice. -/
def crateSchema : Json := .object [("type", .string "object"), ("properties", .object [("items", itemsNode)])]

def crateItem : Record Base := ⟨"Items", [⟨"state", .choice ["sent", "lost"], false, true⟩]⟩

def crateRecord : Record Base := ⟨defaultRootName, [⟨"items", .record crateItem, true, true⟩]⟩

theorem schemaRecord_crateSchema : schemaRecord true crateSchema = .ok crateRecord := by
  have state : HasType .string stateNode := rfl
  have item : HasType .object itemNode := rfl
  have items : HasType .array itemsNode := rfl
  have root : HasType .object crateSchema := rfl
  have stored : keyword? .properties crateSchema = some (.object [("items", itemsNode)]) := rfl
  have listed : keyword? .items itemsNode = some itemNode := rfl
  have inside : keyword? .properties itemNode = some (.object [("state", stateNode)]) := rfl
  have name : typeNameForKey "items" = "Items" := by decide +kernel
  rw [schemaRecord_of_object root, nodeFields_of_properties stored]
  simp only [propertyFields_cons, nodeType_of_array items, listed, nodeType_of_object item,
    nodeFields_of_properties inside, nodeType_of_string state, propertyFields, name]
  rfl

/-- A sample with records in an array, and a schema with an enumeration in the records of an array. -/
def crateSample : Json := .object [("items", .array [.object [("state", .string "sent")]])]

def crateSampleItem : Record Base := ⟨"Items", [⟨"state", .string, false, false⟩]⟩

theorem inferred_shapes_crate :
    DistinctKeys crateSample ∧ DistinctKeys crateSchema ∧ SampleShape crateSampleItem ∧
      (∃ node, StandsFor crateSchema crateRecord node crateItem ∧ SchemaShape true node crateItem) := by
  have sample : DistinctKeys crateSample := by
    refine distinctKeys_object.mpr ⟨by simp, List.forall_mem_singleton.mpr (.array ?_)⟩
    simp
  have schema : DistinctKeys crateSchema := by
    have state : DistinctKeys stateNode :=
      distinctKeys_object.mpr ⟨by simp, by simpa using DistinctKeys.array (by simp)⟩
    have item : DistinctKeys itemNode := distinctKeys_object.mpr ⟨by simp, by simp [state]⟩
    have items : DistinctKeys itemsNode := distinctKeys_object.mpr ⟨by simp, by simp [item]⟩
    exact distinctKeys_object.mpr ⟨by simp, by simp [items]⟩
  obtain ⟨ofSample, ofSchema⟩ := inferred_shapes
  have name : typeNameForKey "items" = "Items" := by decide +kernel
  have known : sampleRecord true crateSample =
      .ok ⟨defaultRootName, [⟨"items", .record crateSampleItem, true, false⟩]⟩ := by
    simp only [crateSample, sampleRecord, sampleFields, sampleBase, name]
    rfl
  exact ⟨sample, schema,
    ofSample true _ _ sample known _ (.field .self List.mem_cons_self rfl),
    ofSchema true _ _ schema schemaRecord_crateSchema _ (.field .self List.mem_cons_self rfl)⟩

end Crate

end SwiftModel.Inference
