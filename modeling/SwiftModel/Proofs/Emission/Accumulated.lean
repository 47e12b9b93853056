/- An emitter adds up the texts of the models that are emitted; a model that is not leaves no trace,
however much of it was written. -/
import Mathlib.Data.List.Forall2
import SwiftModel.Proofs.Emission.Writing

namespace SwiftModel.Emission

section Step

variable {emitter next : Emitter} {model : Model} {clash : Clash}

theorem emitter_emit_eq (emitter : Emitter) (model : Model) :
    emitter.emit model = (declare emitter.options model).map fun declaration =>
      { emitter with text := emitter.text ++ emitter.options.text declaration } := by
  rw [Emitter.emit, modelText, modelLines]
  cases declare emitter.options model <;> rfl

theorem emitter_emit_eq_ok (valid : emitter.options.refusal? = none) :
    emitter.emit model = .ok next ↔ ∃ text, emit model emitter.options = .ok text ∧
      next = { emitter with text := emitter.text ++ text } := by
  rw [emitter_emit_eq, emit_eq valid]
  cases declare emitter.options model with
  | ok declaration =>
      constructor
      · intro same
        exact ⟨_, rfl, (Except.ok.inj same).symm⟩
      · rintro ⟨_, ⟨⟩, rfl⟩
        rfl
  | error clash => exact ⟨fun same => (nomatch same), fun ⟨_, same, _⟩ => (nomatch same)⟩

theorem emitter_emit_eq_error (valid : emitter.options.refusal? = none) :
    emitter.emit model = .error clash ↔ emit model emitter.options = .error (.clash clash) := by
  rw [emitter_emit_eq, emit_eq valid]
  cases declare emitter.options model with
  | ok declaration => exact ⟨fun same => (nomatch same), fun same => (nomatch same)⟩
  | error other => simp [Except.map]

theorem emitAll_of_ok (h : emitter.emit model = .ok next) (models : List Model) :
    emitter.emitAll (model :: models) = ((next.emitAll models).1, none :: (next.emitAll models).2) := by
  rw [Emitter.emitAll, h]

theorem emitAll_of_error (h : emitter.emit model = .error clash) (models : List Model) :
    emitter.emitAll (model :: models) =
      ((emitter.emitAll models).1, some clash :: (emitter.emitAll models).2) := by
  rw [Emitter.emitAll, h]

end Step

theorem runOn_writeModel {options : Options} {model : Model} {declaration : Declaration}
    (h : declare options model = .ok declaration) :
    (writeModel options model).runOn [] =
      (.ok (), declarationLines options.escaper 0 (draft options model)) := by
  obtain ⟨written, -, whole, ran⟩ := yields_writeModel options model []
  rw [h] at whole ran
  rw [ran, whole rfl]
  rfl

/-- A clash comes with what was written until then. -/
theorem exists_written {options : Options} {model : Model} {clash : Clash}
    (h : declare options model = .error clash) :
    ∃ written, written <+: declarationLines options.escaper 0 (draft options model) ∧
      (writeModel options model).runOn [] = (.error clash, written) := by
  obtain ⟨written, start, -, ran⟩ := yields_writeModel options model []
  rw [h] at ran
  exact ⟨written, start, ran⟩

/-- What an emitter tells of a model is what comes of the model on its own. -/
def Told (options : Options) (model : Model) : Option Clash → Prop
  | none => ∃ text, emit model options = .ok text
  | some clash => emit model options = .error (.clash clash)

/-- The texts of those models that have one. -/
def textsOf (options : Options) (models : List Model) : List String :=
  models.filterMap fun model => (emit model options).toOption

theorem textsOf_cons_of_ok {options : Options} {model : Model} {text : String}
    (h : emit model options = .ok text) (models : List Model) :
    textsOf options (model :: models) = text :: textsOf options models := by
  rw [textsOf, List.filterMap_cons, h]
  rfl

theorem textsOf_cons_of_error {options : Options} {model : Model} {failure : Failure}
    (h : emit model options = .error failure) (models : List Model) :
    textsOf options (model :: models) = textsOf options models := by
  rw [textsOf, List.filterMap_cons, h]
  rfl

theorem emitAll_append (emitter : Emitter) (before behind : List Model) :
    emitter.emitAll (before ++ behind) =
      (((emitter.emitAll before).1.emitAll behind).1,
        (emitter.emitAll before).2 ++ ((emitter.emitAll before).1.emitAll behind).2) := by
  induction before generalizing emitter with
  | nil => rfl
  | cons model before ih =>
      rw [List.cons_append]
      cases emitted : emitter.emit model with
      | ok next => rw [emitAll_of_ok emitted, emitAll_of_ok emitted, ih]; rfl
      | error clash => rw [emitAll_of_error emitted, emitAll_of_error emitted, ih]; rfl

/-- What a run comes to, from any emitter whose options are accepted. -/
theorem emitAll_told (emitter : Emitter) (valid : emitter.options.refusal? = none) (models : List Model) :
    List.Forall₂ (Told emitter.options) models (emitter.emitAll models).2 ∧
      (emitter.emitAll models).1 =
        { emitter with text := emitter.text ++ String.join (textsOf emitter.options models) } := by
  induction models generalizing emitter with
  | nil =>
      refine ⟨.nil, ?_⟩
      rw [textsOf, List.filterMap_nil, String.join_nil, String.append_empty]
      rfl
  | cons model models ih =>
      cases emitted : emitter.emit model with
      | ok next =>
          obtain ⟨text, own, rfl⟩ := (emitter_emit_eq_ok valid).mp emitted
          obtain ⟨told, reached⟩ := ih { emitter with text := emitter.text ++ text } valid
          rw [emitAll_of_ok emitted, reached, textsOf_cons_of_ok own, String.join_cons,
            String.append_assoc]
          exact ⟨.cons ⟨text, own⟩ told, rfl⟩
      | error clash =>
          have own := (emitter_emit_eq_error valid).mp emitted
          obtain ⟨told, reached⟩ := ih emitter valid
          rw [emitAll_of_error emitted, reached, textsOf_cons_of_error own]
          exact ⟨.cons own told, rfl⟩

section Last

variable {emitter : Emitter} {model : Model}

theorem options_emitAll (valid : emitter.options.refusal? = none) (models : List Model) :
    (emitter.emitAll models).1.options = emitter.options := by
  rw [(emitAll_told emitter valid models).2]

theorem emitAll_concat_of_ok (valid : emitter.options.refusal? = none) {text : String}
    (h : emit model emitter.options = .ok text) (models : List Model) :
    emitter.emitAll (models ++ [model]) =
      ({ (emitter.emitAll models).1 with text := (emitter.emitAll models).1.text ++ text },
        (emitter.emitAll models).2 ++ [none]) := by
  have same := options_emitAll valid models
  rw [← same] at valid h
  rw [emitAll_append, emitAll_of_ok ((emitter_emit_eq_ok valid).mpr ⟨text, h, rfl⟩)]
  rfl

theorem emitAll_concat_of_error (valid : emitter.options.refusal? = none) {clash : Clash}
    (h : emit model emitter.options = .error (.clash clash)) (models : List Model) :
    emitter.emitAll (models ++ [model]) =
      ((emitter.emitAll models).1, (emitter.emitAll models).2 ++ [some clash]) := by
  have same := options_emitAll valid models
  rw [← same] at valid h
  rw [emitAll_append, emitAll_of_error ((emitter_emit_eq_error valid).mpr h)]
  rfl

end Last

theorem ofOptions?_eq_ok {options : Options} {emitter : Emitter} :
    Emitter.ofOptions? options = .ok emitter ↔ options.refusal? = none ∧ emitter = ⟨options, ""⟩ := by
  rw [Emitter.ofOptions?]
  cases options.refusal? with
  | some refusal =>
      constructor
      · intro same
        cases same
      · rintro ⟨accepted, -⟩
        cases accepted
  | none =>
      constructor
      · rintro ⟨⟩
        exact ⟨rfl, rfl⟩
      · rintro ⟨-, rfl⟩
        rfl

/-- An emitter that emits models in turn tells of each what comes of it alone, and holds the texts of
those that have one, in order. One that clashes leaves the emitter as it was, though a beginning of it
was written. -/
theorem emitAll_accumulates {options : Options} {emitter : Emitter}
    (made : Emitter.ofOptions? options = .ok emitter) (models : List Model) :
    List.Forall₂ (Told options) models (emitter.emitAll models).2 ∧
    (emitter.emitAll models).1.text = String.join (textsOf options models) ∧
    ∀ model,
      (∀ text, emit model options = .ok text → ∃ lines,
        (writeModel options model).runOn [] = (.ok (), lines) ∧ options.layout.text lines = text ∧
        emitter.emitAll (models ++ [model]) =
          ({ (emitter.emitAll models).1 with text := (emitter.emitAll models).1.text ++ text },
            (emitter.emitAll models).2 ++ [none])) ∧
      ∀ failure, emit model options = .error failure → ∃ clash written,
        failure = .clash clash ∧
        written <+: declarationLines options.escaper 0 (draft options model) ∧
        (writeModel options model).runOn [] = (.error clash, written) ∧
        emitter.emitAll (models ++ [model]) =
          ((emitter.emitAll models).1, (emitter.emitAll models).2 ++ [some clash]) := by
  obtain ⟨valid, rfl⟩ := ofOptions?_eq_ok.mp made
  obtain ⟨told, reached⟩ := emitAll_told ⟨options, ""⟩ valid models
  refine ⟨told, ?_, fun model => ⟨fun text own => ?_, fun failure own => ?_⟩⟩
  · rw [reached, String.empty_append]
  · obtain ⟨declared, rfl⟩ := (emit_eq_ok valid).mp own
    have kept := @emitAll_concat_of_ok ⟨options, ""⟩ model valid _ own models
    exact ⟨_, runOn_writeModel declared, rfl, kept⟩
  · obtain ⟨clash, rfl, clashes⟩ := (emit_eq_error valid).mp own
    obtain ⟨written, start, ran⟩ := exists_written clashes
    have kept := @emitAll_concat_of_error ⟨options, ""⟩ model valid clash own models
    exact ⟨clash, written, rfl, start, ran, kept⟩

/-- A record whose fields clash far inside, behind a whole declaration. -/
def clashingInside : Model :=
  .record ⟨"Model", [⟨"id", .integer, false, false⟩, ⟨"kind", .choice ["x"], false, false⟩,
    ⟨"inner", .record ⟨"Inner", [⟨"_a", .record ⟨"", []⟩, false, false⟩,
      ⟨"A", .choice ["b"], false, false⟩]⟩, false, false⟩]⟩

def choiceOfOne : Model := .enumeration ⟨"Model", ["x"]⟩

theorem emitAll_accumulates_clashingInside :
    Emitter.ofOptions? .default = .ok ⟨.default, ""⟩ ∧
    (Emitter.emitAll ⟨.default, ""⟩ [choiceOfOne, clashingInside, choiceOfOne]).1.text =
      String.join (textsOf .default [choiceOfOne, clashingInside, choiceOfOne]) ∧
    ∃ clash written, (writeModel .default clashingInside).runOn [] = (.error clash, written) ∧
      Emitter.emitAll ⟨.default, ""⟩ [choiceOfOne, clashingInside] =
        ((Emitter.emitAll ⟨.default, ""⟩ [choiceOfOne]).1,
          (Emitter.emitAll ⟨.default, ""⟩ [choiceOfOne]).2 ++ [some clash]) := by
  have made : Emitter.ofOptions? .default = .ok ⟨.default, ""⟩ := rfl
  obtain ⟨-, joined, -⟩ := emitAll_accumulates made [choiceOfOne, clashingInside, choiceOfOne]
  obtain ⟨-, -, last⟩ := emitAll_accumulates made [choiceOfOne]
  have clashes : emit clashingInside .default = .error (.clash ⟨"Inner", "_A"⟩) := by decide +kernel
  obtain ⟨clash, written, -, -, ran, kept⟩ := (last clashingInside).2 _ clashes
  exact ⟨made, joined, clash, written, ran, kept⟩

end SwiftModel.Emission
