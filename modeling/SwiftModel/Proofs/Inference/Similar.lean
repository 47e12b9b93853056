/- Which values have one type: those that differ only behind the first items of arrays, in how deep those
arrays are, and in what scalars say within their class. -/
import Mathlib.Data.List.Forall2
import SwiftModel.Proofs.Inference.SampleFits
import SwiftModel.Proofs.Inference.Walk

namespace SwiftModel.Inference

/-- The least congruence of values, through first items and through the members of objects with the same
keys in the same order, that takes no notice of later items, of arrays around a first item that is an
array, and of scalars but for their class. An array without items is one of plain texts. -/
inductive Similar (detectUuid : Bool) : Json → Json → Prop
  | refl (value : Json) : Similar detectUuid value value
  | symm {value other : Json} : Similar detectUuid value other → Similar detectUuid other value
  | trans {value middle other : Json} : Similar detectUuid value middle →
      Similar detectUuid middle other → Similar detectUuid value other
  | first {first other : Json} (rest : List Json) : Similar detectUuid first other →
      Similar detectUuid (.array (first :: rest)) (.array (other :: rest))
  | members {members others : List (String × Json)} :
      members.map Prod.fst = others.map Prod.fst →
      (∀ pair ∈ members.zip others, Similar detectUuid pair.1.2 pair.2.2) →
      Similar detectUuid (.object members) (.object others)
  | rest (first : Json) (rest rest' : List Json) :
      Similar detectUuid (.array (first :: rest)) (.array (first :: rest'))
  | inner (items rest : List Json) :
      Similar detectUuid (.array (.array items :: rest)) (.array items)
  | empty {text : String} (rest : List Json) : stringBase detectUuid text = .string →
      Similar detectUuid (.array []) (.array (.string text :: rest))
  | boolean (b b' : Bool) : Similar detectUuid (.boolean b) (.boolean b')
  | integer (n n' : Int) :
      Similar detectUuid (.number (.integer n)) (.number (.integer n'))
  | double (x x' : Binary64) :
      Similar detectUuid (.number (.double x)) (.number (.double x'))
  | string {text text' : String} : stringBase detectUuid text = stringBase detectUuid text' →
      Similar detectUuid (.string text) (.string text')

section Similar

variable {detectUuid : Bool}

/-! Similar values have one type. -/

theorem sampleType_eq_iff {key : String} {value other : Json} :
    sampleType detectUuid key value = sampleType detectUuid key other ↔
      sampleBase detectUuid key value = sampleBase detectUuid key other ∧
        isArray value = isArray other := by
  simp [sampleType]

theorem field_eq_iff {key key' : String} {value other : Json} :
    (sampleType detectUuid key value).field key = (sampleType detectUuid key' other).field key' ↔
      key = key' ∧ sampleType detectUuid key value = sampleType detectUuid key other := by
  constructor
  · intro same
    cases congrArg Field.key same
    exact ⟨rfl, congrArg Field.type same⟩
  · rintro ⟨rfl, types⟩
    rw [types]

/-- Fields are the same exactly if keys are, and the types of what stands under them. -/
theorem sampleFields_eq_iff {members others : List (String × Json)} :
    sampleFields detectUuid members = sampleFields detectUuid others ↔
      members.map Prod.fst = others.map Prod.fst ∧ ∀ pair ∈ members.zip others,
        sampleType detectUuid pair.1.1 pair.1.2 = sampleType detectUuid pair.1.1 pair.2.2 := by
  rw [sampleFields_eq_map, sampleFields_eq_map]
  induction members generalizing others with
  | nil => cases others <;> simp
  | cons member members ih =>
      cases others with
      | nil => simp
      | cons other others =>
          simp only [List.map_cons, List.cons.injEq, List.zip_cons_cons, List.forall_mem_cons, ih,
            field_eq_iff]
          exact and_and_and_comm

theorem Similar.sampleType_eq {value other : Json} (h : Similar detectUuid value other) (key : String) :
    sampleType detectUuid key value = sampleType detectUuid key other := by
  induction h generalizing key with
  | refl => rfl
  | symm _ ih => exact (ih key).symm
  | trans _ _ ih ih' => exact (ih key).trans (ih' key)
  | first rest _ ih => exact sampleType_eq_iff.mpr ⟨(sampleType_eq_iff.mp (ih key)).1, rfl⟩
  | members keys _ ih =>
      have fields := sampleFields_eq_iff.mpr ⟨keys, fun pair paired => ih pair paired pair.1.1⟩
      rw [sampleType, sampleBase, fields]
      rfl
  | rest => rfl
  | inner items rest => rfl
  | empty rest plain => exact sampleType_eq_iff.mpr ⟨plain.symm, rfl⟩
  | boolean => rfl
  | integer => rfl
  | double => rfl
  | string same => exact sampleType_eq_iff.mpr ⟨same, rfl⟩

/-! Values of one type are similar. An array is similar to one that holds nothing but its
representative, and what is left are values that are no arrays. -/

theorem sampleBase_representative (key : String) (value : Json) :
    sampleBase detectUuid key (representative value) = sampleBase detectUuid key value := by
  fun_induction representative value with
  | case1 first _ ih => exact ih
  | case2 => rfl

theorem similar_inner {first : Json} (several : isArray first = true) (rest : List Json) :
    Similar detectUuid (.array (first :: rest)) first := by
  cases first with
  | array items => exact .inner items rest
  | _ => cases several

theorem similar_representative {value : Json} (several : isArray value = true) :
    representative value = .array [] ∧ Similar detectUuid value (.array []) ∨
      isArray (representative value) = false ∧
        Similar detectUuid value (.array [representative value]) := by
  fun_induction representative value with
  | case1 first rest ih =>
      cases single : isArray first with
      | false =>
          rw [representative_of_isArray_false single]
          exact .inr ⟨single, .rest first rest []⟩
      | true =>
          have flat : Similar detectUuid (.array (first :: rest)) first := similar_inner single rest
          exact (ih single).imp (fun none => ⟨none.1, flat.trans none.2⟩)
            fun one => ⟨one.1, flat.trans one.2⟩
  | case2 value other =>
      cases value with
      | array items =>
          cases items with
          | nil => exact .inl ⟨rfl, .refl _⟩
          | cons first rest => exact absurd rfl (other first rest)
      | _ => cases several

/-- What a base tells of a value that is no array. -/
inductive Classed (detectUuid : Bool) : Base → Json → Prop
  | null : Classed detectUuid .null .null
  | boolean (b : Bool) : Classed detectUuid .boolean (.boolean b)
  | integer (n : Int) : Classed detectUuid .integer (.number (.integer n))
  | double (x : Binary64) : Classed detectUuid .double (.number (.double x))
  | uuid {text : String} : stringBase detectUuid text = .uuid →
      Classed detectUuid .uuid (.string text)
  | plain {text : String} : stringBase detectUuid text = .string →
      Classed detectUuid .string (.string text)
  | record {members : List (String × Json)} {record : Record Base} :
      record.fields = sampleFields detectUuid members →
      Classed detectUuid (.record record) (.object members)

theorem classed (key : String) {value : Json} (single : isArray value = false) :
    Classed detectUuid (sampleBase detectUuid key value) value := by
  cases value with
  | null => exact .null
  | boolean b => exact .boolean b
  | number n =>
      cases n with
      | integer n => exact .integer n
      | double x => exact .double x
  | string text =>
      rw [sampleBase]
      cases h : (detectUuid && isUuid text) with
      | true =>
          have uuid : stringBase detectUuid text = .uuid := if_pos h
          exact uuid ▸ .uuid uuid
      | false =>
          have plain : stringBase detectUuid text = .string := if_neg (Bool.eq_false_iff.mp h)
          exact plain ▸ .plain plain
  | array items => cases single
  | object members => exact .record rfl

theorem similar_of_classed {base : Base} {value other : Json}
    (inside : ∀ members, value = .object members → ∀ member ∈ members, ∀ key other,
      sampleType detectUuid key member.2 = sampleType detectUuid key other →
        Similar detectUuid member.2 other)
    (h : Classed detectUuid base value) (h' : Classed detectUuid base other) :
    Similar detectUuid value other := by
  cases h with
  | null =>
      cases h'
      exact .refl _
  | boolean b =>
      cases h' with
      | boolean b' => exact .boolean b b'
  | integer n =>
      cases h' with
      | integer n' => exact .integer n n'
  | double x =>
      cases h' with
      | double x' => exact .double x x'
  | uuid same =>
      cases h' with
      | uuid same' => exact .string (same.trans same'.symm)
  | plain same =>
      cases h' with
      | plain same' => exact .string (same.trans same'.symm)
  | record same =>
      cases h' with
      | record same' =>
          obtain ⟨keys, types⟩ := sampleFields_eq_iff.mp (same.symm.trans same')
          exact .members keys fun pair paired =>
            inside _ rfl pair.1 (List.of_mem_zip paired).1 _ _ (types pair paired)

theorem similar_nil_of_plain {key : String} {value : Json} (single : isArray value = false)
    (plain : sampleBase detectUuid key value = .string) :
    Similar detectUuid (.array []) (.array [value]) := by
  have told := @classed detectUuid key value single
  rw [plain] at told
  cases told with
  | plain same => exact .empty [] same

/-- By induction on the first value. Items that are arrays are taken out one by one; where the first
item is none, the array of the other value is cut down to its representative. -/
theorem similar_of_sampleType_eq {key : String} {value other : Json}
    (same : sampleType detectUuid key value = sampleType detectUuid key other) :
    Similar detectUuid value other := by
  induction value using Json.induction generalizing key other with
  | scalar value notArray notObject =>
      obtain ⟨bases, arrays⟩ := sampleType_eq_iff.mp same
      have single : isArray value = false := by
        cases value with
        | array items => exact absurd rfl notArray
        | _ => rfl
      refine similar_of_classed ?_ (classed key single) (bases ▸ classed key (arrays ▸ single))
      rintro members rfl
      exact absurd rfl notObject
  | object members ih =>
      obtain ⟨bases, arrays⟩ := sampleType_eq_iff.mp same
      refine similar_of_classed ?_ (classed key rfl) (bases ▸ classed key (arrays ▸ rfl))
      rintro _ ⟨⟩ member present key other
      exact ih member present
  | array items ih =>
      obtain ⟨bases, arrays⟩ := sampleType_eq_iff.mp same
      have several : isArray other = true := arrays.symm
      have cut := @similar_representative detectUuid other several
      cases items with
      | nil =>
          rcases cut with ⟨-, empty⟩ | ⟨single, one⟩
          · exact empty.symm
          · have plain : sampleBase detectUuid key (representative other) = .string := by
              rw [sampleBase_representative, ← bases]
              rfl
            exact (similar_nil_of_plain single plain).trans one.symm
      | cons first rest =>
          have member : first ∈ first :: rest := List.mem_cons_self
          have base : sampleBase detectUuid key first = sampleBase detectUuid key other := bases
          cases single : isArray first with
          | true =>
              have types := sampleType_eq_iff.mpr ⟨base, single.trans several.symm⟩
              exact (similar_inner single rest).trans (ih first member types)
          | false =>
              have alone : Similar detectUuid (.array (first :: rest)) (.array [first]) :=
                .rest first rest []
              rcases cut with ⟨none, empty⟩ | ⟨single', one⟩
              · have plain : sampleBase detectUuid key first = .string := by
                  rw [base, ← sampleBase_representative, none]
                  rfl
                exact (alone.trans (similar_nil_of_plain single plain).symm).trans empty.symm
              · have types : sampleType detectUuid key first =
                    sampleType detectUuid key (representative other) := by
                  rw [← sampleBase_representative key other] at base
                  exact sampleType_eq_iff.mpr ⟨base, single.trans single'.symm⟩
                exact (alone.trans (.first [] (ih first member types))).trans one.symm

/-! What tells values apart: kinds, keys and their order, in what represents them. -/

/-- Values differ in kind, in their keys or the order of these, or in what stands under a key; or values
do that represent them. -/
inductive Unlike : Json → Json → Prop
  | kind {value other : Json} : value.kind ≠ other.kind → Unlike value other
  | keys {members others : List (String × Json)} :
      members.map Prod.fst ≠ others.map Prod.fst → Unlike (.object members) (.object others)
  | member {members others : List (String × Json)} {pair : (String × Json) × (String × Json)} :
      pair ∈ members.zip others → Unlike pair.1.2 pair.2.2 →
      Unlike (.object members) (.object others)
  | item {value other : Json} : isArray (representative value) = false →
      isArray (representative other) = false →
      Unlike (representative value) (representative other) → Unlike value other

theorem Similar.kind_eq {value other : Json} (h : Similar detectUuid value other) :
    value.kind = other.kind := by
  induction h with
  | symm _ ih => exact ih.symm
  | trans _ _ ih ih' => exact ih.trans ih'
  | _ => rfl

theorem Unlike.sampleType_ne {value other : Json} (h : Unlike value other) (key : String) :
    sampleType detectUuid key value ≠ sampleType detectUuid key other := by
  induction h generalizing key with
  | kind differ => exact fun same => differ (similar_of_sampleType_eq same).kind_eq
  | @keys members others differ =>
      intro same
      have fields := congrArg Record.fields (Base.record.inj (sampleType_eq_iff.mp same).1)
      exact differ (sampleFields_eq_iff.mp fields).1
  | @member members others pair paired _ ih =>
      intro same
      have fields := congrArg Record.fields (Base.record.inj (sampleType_eq_iff.mp same).1)
      exact ih _ ((sampleFields_eq_iff.mp fields).2 pair paired)
  | @item value other single single' _ ih =>
      intro same
      apply ih key
      rw [sampleType_eq_iff, sampleBase_representative, sampleBase_representative]
      exact ⟨(sampleType_eq_iff.mp same).1, single.trans single'.symm⟩

/-- Two values have one type under a key exactly if they are similar; so they never do if they are
unlike. -/
theorem walkType_eq_iff_similar (detectUuid : Bool) (key : String) (value other : Json) :
    (walkType detectUuid key value = walkType detectUuid key other ↔
      Similar detectUuid value other) ∧
    (Unlike value other → walkType detectUuid key value ≠ walkType detectUuid key other) := by
  have types : walkType detectUuid key value = walkType detectUuid key other ↔
      sampleType detectUuid key value = sampleType detectUuid key other := by
    rw [walkType_eq, walkType_eq, Except.ok.injEq]
  rw [types, ne_eq, types]
  exact ⟨⟨similar_of_sampleType_eq, fun similar => similar.sampleType_eq key⟩,
    fun unlike => unlike.sampleType_ne key⟩

end Similar

/-- A grid whose first cell is a number, and a row of numbers, under the same keys. -/
def gridSample : Json :=
  .object [("cells", .array [.array [.number (.integer 1)], .null]), ("name", .string "grid")]

def rowSample : Json :=
  .object [("cells", .array [.number (.integer 7)]), ("name", .string "row")]

theorem similar_grid_row : Similar true gridSample rowSample := by
  have texts : stringBase true "grid" = stringBase true "row" := rfl
  refine .members rfl ?_
  intro pair paired
  simp only [List.zip_cons_cons, List.zip_nil_right, List.mem_cons, List.not_mem_nil,
    or_false] at paired
  rcases paired with rfl | rfl
  · exact .trans (.inner _ _) (.first [] (.integer 1 7))
  · exact .string texts

/-- The grid is modelled as the row is, and not as the same members in another order are. -/
theorem walkType_eq_iff_similar_grid :
    walkType true "table" gridSample = walkType true "table" rowSample ∧
    walkType true "table" gridSample ≠ walkType true "table"
      (.object [("name", .string "grid"), ("cells", .array [.number (.integer 1)])]) :=
  ⟨(walkType_eq_iff_similar true "table" gridSample rowSample).1.mpr similar_grid_row,
    (walkType_eq_iff_similar true "table" gridSample _).2 (.keys (by decide))⟩

end SwiftModel.Inference
