/- Order shows in generated text only where it is kept: the members of a document may stand in any
order if fields are sorted, and the interfaces always. -/
import SwiftModel.Batch
import SwiftModel.Proofs.Emission.Order
import SwiftModel.Proofs.Inference.Order

namespace SwiftModel.Batch
open SwiftModel.Emission SwiftModel.Inference SwiftModel.Json

/-- Plans for the same part of documents of one kind, with options that differ at most in the order
and the repetition of the interfaces. -/
structure Plan.Alike (plan other : Plan) : Prop where
  kind : plan.kind = other.kind
  pointer : plan.pointer = other.pointer
  detectUuid : plan.settings.detectUuid = other.settings.detectUuid
  preferUnsigned : plan.settings.preferUnsigned = other.settings.preferUnsigned
  emission : plan.settings.emission.Alike other.settings.emission

theorem Plan.Alike.symm {plan other : Plan} (alike : plan.Alike other) : other.Alike plan :=
  ⟨alike.kind.symm, alike.pointer.symm, alike.detectUuid.symm, alike.preferUnsigned.symm,
    alike.emission.symm⟩

/-- The record that the part of a document is modelled by. -/
def inferred (plan : Plan) (document : Json) : Except Failure (Record Base) :=
  (select plan document).bind (infer plan)

section Generated

variable {plan other : Plan} {document moved : Json}

theorem generate_eq (plan : Plan) (document : Json) :
    generate plan document = (inferred plan document).bind fun record =>
      (emit (.record record) plan.settings.emission).mapError .emission := by
  rw [generate, inferred]
  cases select plan document <;> rfl

theorem tallies_select (alike : plan.Alike other) (h : document.Reordered moved)
    (distinct : document.DistinctKeys) :
    Tallies (fun part part' => part.Reordered part' ∧ part.DistinctKeys) (select plan document)
      (select other moved) := by
  rw [select, select, ← alike.pointer]
  cases plan.pointer with
  | none => exact .ok ⟨h, distinct⟩
  | some pointer =>
      have both := h.pointer? distinct pointer
      have inside : ∀ part, document.pointer? pointer = some part → part.DistinctKeys :=
        fun part found => distinct.pointer? found
      dsimp only
      generalize document.pointer? pointer = found, moved.pointer? pointer = found' at both inside
      cases both with
      | none => exact .error _
      | some related => exact .ok ⟨related, inside _ rfl⟩

theorem generate_eq_of_tallies (alike : plan.Alike other)
    (sorted : plan.settings.emission.sortedFields = true)
    (valid : plan.settings.emission.refusal? = none)
    (valid' : other.settings.emission.refusal? = none)
    (records : Tallies (fun record record' => Base.Alike true (.record record) (.record record'))
      (inferred plan document) (inferred other moved)) :
    generate plan document = generate other moved := by
  rw [generate_eq, generate_eq]
  apply Tallies.eq
  apply records.bind
  intro record record' same
  have models : Model.Alike plan.settings.emission.sortedFields (.record record) (.record record') :=
    sorted ▸ same
  rw [emit_eq_of_alike valid valid' alike.emission models]
  exact .rfl

theorem tallies_inferred_sample (alike : plan.Alike other) (kind : plan.kind = .sample)
    (h : document.Reordered moved) (distinct : document.DistinctKeys) :
    Tallies (fun record record' => Base.Alike true (.record record) (.record record'))
      (inferred plan document) (inferred other moved) := by
  apply (tallies_select alike h distinct).bind
  rintro part part' ⟨related, inside⟩
  rw [infer, infer, ← alike.kind, kind, ← alike.detectUuid]
  exact (tallies_sampleRecord related inside).mapError Failure.sample

theorem exists_inferred_schema (alike : plan.Alike other) (kind : plan.kind = .schema)
    (h : document.Reordered moved) (distinct : document.DistinctKeys) {record : Record Base}
    (known : inferred plan document = .ok record) : ∃ record', inferred other moved = .ok record' ∧
      Base.Alike true (.record record) (.record record') := by
  have parts := tallies_select alike h distinct
  obtain ⟨part, selected, there⟩ := bind_eq_ok.mp known
  rw [infer, kind] at there
  have inferred := mapError_eq_ok there
  rw [selected] at parts
  rw [Batch.inferred]
  generalize select other moved = selected' at parts
  cases parts with
  | @ok _ part' both =>
      obtain ⟨record', inferred'⟩ := succeeds_of_reordered both.1 both.2 ⟨record, inferred⟩
      refine ⟨record', ?_, alike_schemaRecord both.1 both.2 inferred inferred'⟩
      change infer other part' = .ok record'
      rw [infer, ← alike.kind, kind, ← alike.preferUnsigned]
      dsimp only
      rw [inferred']
      rfl

end Generated

/-- Accepted options that differ at most in the order and the repetition of the interfaces emit one
text, or fail in one way, for models that differ at most in names and, where fields are sorted, in the
order of fields with distinct keys. So where they are sorted the members of a sample may stand in any
order, and so may those of a schema that a record is inferred from. -/
theorem order_irrelevant :
    (∀ (options other : Options) (model moved : Model), options.refusal? = none →
      other.refusal? = none → options.Alike other → model.Alike options.sortedFields moved →
      emit model options = emit moved other) ∧
    ∀ (plan other : Plan) (document moved : Json), plan.settings.emission.refusal? = none →
      other.settings.emission.refusal? = none → plan.settings.emission.sortedFields = true →
      plan.Alike other → document.DistinctKeys → document.Reordered moved →
      (plan.kind = .sample → generate plan document = generate other moved) ∧
      (plan.kind = .schema →
        ((∃ record, inferred plan document = .ok record) ↔
          ∃ record, inferred other moved = .ok record) ∧
        ((∃ record, inferred plan document = .ok record) →
          generate plan document = generate other moved)) := by
  constructor
  · intro options other model moved valid valid' alike models
    exact emit_eq_of_alike valid valid' alike models
  · intro plan other document moved valid valid' sorted alike distinct h
    constructor
    · intro kind
      exact generate_eq_of_tallies alike sorted valid valid'
        (tallies_inferred_sample alike kind h distinct)
    · intro kind
      refine ⟨⟨?_, ?_⟩, ?_⟩
      · rintro ⟨record, known⟩
        obtain ⟨record', known', -⟩ := exists_inferred_schema alike kind h distinct known
        exact ⟨record', known'⟩
      · rintro ⟨record, known⟩
        have kind' := alike.kind.symm.trans kind
        obtain ⟨record', known', -⟩ :=
          exists_inferred_schema alike.symm kind' h.symm (h.distinctKeys distinct) known
        exact ⟨record', known'⟩
      · rintro ⟨record, known⟩
        obtain ⟨record', known', same⟩ := exists_inferred_schema alike kind h distinct known
        apply generate_eq_of_tallies alike sorted valid valid'
        rw [known, known']
        exact .ok same

/-- Fields are sorted, what is declared conforms to some interfaces, and nothing is written. -/
def sorting (kind : DocumentKind) (interfaces : List String) : Plan where
  kind := kind
  settings := { Config.Settings.default with
    emission := { Options.default with sortedFields := true, interfaces } }
  pointer := none
  directory := none
  extension := defaultExtension
  writeFiles := false

theorem sorting_alike (kind : DocumentKind) :
    (sorting kind ["Sendable", "Codable"]).Alike (sorting kind ["Codable", "Sendable", "Codable"]) := by
  refine ⟨rfl, rfl, rfl, rfl, rfl, ?_⟩
  intro name
  simp only [sorting, List.mem_cons, List.not_mem_nil, or_false]
  exact ⟨fun h => h.elim (.inr ∘ .inl) .inl, fun h => h.elim .inr (.elim · .inl .inr)⟩

theorem reordered_pair {key key' : String} {first first' second second' : Json}
    (h : first.Reordered first') (h' : second.Reordered second') :
    (Json.object [(key, first), (key', second)]).Reordered
      (.object [(key', second'), (key, first')]) :=
  .of_perm (.swap _ _ []) (.cons ⟨rfl, h'⟩ (.cons ⟨rfl, h⟩ .nil))

/-- A letter to someone. -/
def letter : Json :=
  .object [("re", .string "rent"), ("to", .object [("name", .string "Ida"), ("town", .string "Bern")])]

def letterBackward : Json :=
  .object [("to", .object [("town", .string "Bern"), ("name", .string "Ida")]), ("re", .string "rent")]

def letterSchema : Json :=
  .object [("type", .string "object"), ("properties", .object
    [("re", .object [("type", .string "string")]), ("to", .object [("type", .string "boolean")])])]

def letterSchemaBackward : Json :=
  .object [("properties", .object
    [("to", .object [("type", .string "boolean")]), ("re", .object [("type", .string "string")])]),
    ("type", .string "object")]

def letterRecord : Record Base :=
  ⟨"Letter", [⟨"re", .string, false, false⟩, ⟨"to", .boolean, false, true⟩]⟩

def letterRecordBackward : Record Base :=
  ⟨"", [⟨"to", .boolean, false, true⟩, ⟨"re", .string, false, false⟩]⟩

theorem order_irrelevant_letter :
    let plan := fun kind => sorting kind ["Sendable", "Codable"]
    let other := fun kind => sorting kind ["Codable", "Sendable", "Codable"]
    emit (.record letterRecord) (plan .sample).settings.emission =
      emit (.record letterRecordBackward) (other .sample).settings.emission ∧
    generate (plan .sample) letter = generate (other .sample) letterBackward ∧
    (∃ record, inferred (plan .schema) letterSchema = .ok record) ∧
    generate (plan .schema) letterSchema = generate (other .schema) letterSchemaBackward := by
  intro plan other
  have valid : ∀ kind, (plan kind).settings.emission.refusal? = none := by
    intro kind
    cases kind <;> decide
  have valid' : ∀ kind, (other kind).settings.emission.refusal? = none := by
    intro kind
    cases kind <;> decide
  have models : Base.Alike true (.record letterRecord) (.record letterRecordBackward) :=
    .of_perm (by decide) (.swap _ _ [])
      (.cons ⟨⟨rfl, rfl, rfl⟩, .same _⟩ (.cons ⟨⟨rfl, rfl, rfl⟩, .same _⟩ .nil)) _ _
  have sample : letter.Reordered letterBackward :=
    reordered_pair (.same _) (reordered_pair (.same _) (.same _))
  have schema : letterSchema.Reordered letterSchemaBackward :=
    reordered_pair (.same _) (reordered_pair (.same _) (.same _))
  have distinct : letter.DistinctKeys := by simp [letter]
  have distinct' : letterSchema.DistinctKeys := by simp [letterSchema]
  have text : WellFormed (.object [("type", .string "string")]) := by
    refine .string rfl ?_
    intro value found
    cases found
  have wellFormed : WellFormed letterSchema := by
    refine .object rfl rfl ?_ ?_
    · intro property member
      simp only [List.mem_cons, List.not_mem_nil, or_false] at member
      rcases member with rfl | rfl
      · exact text
      · exact .boolean rfl
    · intro value found
      cases found
  have inferred : ∃ record, inferred (plan .schema) letterSchema = .ok record := by
    obtain ⟨record, known⟩ := exists_schemaRecord_iff.mpr ⟨wellFormed, rfl⟩
    refine ⟨record, ?_⟩
    change (schemaRecord true letterSchema).mapError Failure.schema = .ok record
    rw [known]
    rfl
  obtain ⟨emits, generates⟩ := order_irrelevant
  refine ⟨emits _ _ _ _ (valid _) (valid' _) (sorting_alike _).emission models, ?_, inferred, ?_⟩
  · exact (generates _ _ _ _ (valid _) (valid' _) rfl (sorting_alike _) distinct sample).1 rfl
  · exact ((generates _ _ _ _ (valid _) (valid' _) rfl (sorting_alike _) distinct' schema).2 rfl).2
      inferred

end SwiftModel.Batch
