/- The choices of a layout change how lines look and nothing else: neither what lines there are nor
whether there are any. -/
import Mathlib.Data.List.Forall2
import SwiftModel.Proofs.Emission.Blocks
import SwiftModel.Proofs.Emission.Draft
import SwiftModel.Proofs.Text.Ordered

namespace SwiftModel.Emission

/-- What can be chosen about the layout. -/
structure LayoutChoice where
  indent : Indent
  access : Access
  mutable : Bool
  interfaces : List String

def Options.withLayout (options : Options) (choice : LayoutChoice) : Options :=
  { options with
    indent := choice.indent, access := choice.access, mutable := choice.mutable
    interfaces := choice.interfaces }

/-- Names that are written as a list: in order, and each once. -/
structure Lists (names written : List String) : Prop where
  ascending : written.Pairwise (· < ·)
  members : ∀ name, name ∈ written ↔ name ∈ names

/-- What stands behind the name of a declaration that conforms to these interfaces. -/
def conformance (written : List String) : String :=
  if written = [] then "" else ": " ++ ", ".intercalate written

namespace LayoutChoice

/-- A line that opens the declaration of a type. -/
def header (choice : LayoutChoice) (keyword name : String) (written : List String) : String :=
  choice.access.keyword ++ " " ++ keyword ++ " " ++ name ++ conformance written ++ " \x7b"

/-- How what a line says is written under a choice. -/
inductive Shows (choice : LayoutChoice) : LineContent → String → Prop
  | property (payload : String) : Shows choice (.property payload)
      (choice.access.keyword ++ (if choice.mutable then " var " else " let ") ++ payload)
  | recordHeader (name : String) {written : List String} : Lists choice.interfaces written →
      Shows choice (.recordHeader name) (choice.header "struct" name written)
  | enumerationHeader (name : String) {written : List String} :
      Lists (choice.interfaces.filter (· != "String")) written →
      Shows choice (.enumerationHeader name) (choice.header "enum" name ("String" :: written))
  | fixed (text : String) : Shows choice (.fixed text) text

/-- A line is written behind as many units of indentation as its level. -/
def ShowsLine (choice : LayoutChoice) (line : Line) (text : String) : Prop :=
  ∃ content, choice.Shows line.content content ∧
    text = String.join (List.replicate line.level choice.indent.unit) ++ content ++ "\n"

def Renders (choice : LayoutChoice) (lines : List Line) (text : String) : Prop :=
  ∃ texts, List.Forall₂ choice.ShowsLine lines texts ∧ text = String.join texts

end LayoutChoice

theorem lists_ordered (names : List String) : Lists names (Text.ordered names) :=
  ⟨Text.pairwise_lt_ordered names, fun _ => Text.mem_ordered⟩

theorem Lists.without {names written : List String} (h : Lists names written) (name : String) :
    Lists (names.filter (· != name)) (written.filter (· != name)) := by
  refine ⟨h.ascending.filter _, fun other => ?_⟩
  rw [List.mem_filter, List.mem_filter, h.members]

section Rendering

variable (options : Options) (choice : LayoutChoice)

theorem header_eq (keyword name : String) (written : List String) :
    (options.withLayout choice).layout.header keyword name written =
      choice.header keyword name written := by
  rw [Layout.header, LayoutChoice.header, conformance]
  cases written <;> rfl

theorem shows_content (content : LineContent) :
    choice.Shows content ((options.withLayout choice).layout.content content) := by
  have listed := lists_ordered choice.interfaces
  cases content with
  | recordHeader name =>
      rw [Layout.content, header_eq]
      exact .recordHeader name listed
  | enumerationHeader name =>
      rw [Layout.content, header_eq]
      exact .enumerationHeader name (listed.without "String")
  | property payload => exact .property payload
  | fixed text => exact .fixed text

theorem renders_text (lines : List Line) :
    choice.Renders lines ((options.withLayout choice).layout.text lines) := by
  refine ⟨lines.map (options.withLayout choice).layout.line, ?_, rfl⟩
  rw [List.forall₂_map_right_iff, List.forall₂_same]
  exact fun line _ => ⟨_, shows_content options choice line.content, rfl⟩

end Rendering

/-! What is declared has nothing to do with the layout. -/

section Declared

variable (options : Options) (choice : LayoutChoice)

theorem declareBase_withLayout {base : Base}
    (ih : ∀ inner, base = .record inner → ∀ name,
      declareRecord (options.withLayout choice) name inner = declareRecord options name inner)
    (name : String) :
    declareBase (options.withLayout choice) name base = declareBase options name base := by
  cases base with
  | record inner => rw [declareBase_record, declareBase_record, ih inner rfl]
  | _ => rfl

theorem declareFields_withLayout {fields : List (Field Base)}
    (ih : ∀ field ∈ fields, ∀ inner, field.base = .record inner → ∀ name,
      declareRecord (options.withLayout choice) name inner = declareRecord options name inner)
    (parent : String) (taken properties : List String) :
    declareFields (options.withLayout choice) parent taken fields properties =
      declareFields options parent taken fields properties := by
  induction fields generalizing taken properties with
  | nil => rfl
  | cons field fields tail =>
      cases properties with
      | nil => rfl
      | cons property properties =>
          have base := declareBase_withLayout options choice (ih field List.mem_cons_self)
            (options.fieldName field property)
          have rest := tail (fun other later => ih other (List.mem_cons_of_mem field later))
            (options.takenAfter taken field property) properties
          by_cases clash : options.TakesTaken taken field property
          · have clash' : (options.withLayout choice).TakesTaken taken field property := clash
            rw [declareFields_cons_of_takesTaken clash, declareFields_cons_of_takesTaken clash']
            rfl
          · have free : ¬ (options.withLayout choice).TakesTaken taken field property := clash
            rw [declareFields_cons clash, declareFields_cons free, ← base, ← rest]
            rfl

theorem declareRecord_withLayout (name : String) (record : Record Base) :
    declareRecord (options.withLayout choice) name record = declareRecord options name record := by
  induction record using Record.induction generalizing name with
  | step record ih =>
      rw [declareRecord_eq, declareRecord_eq, ← declareFields_withLayout options choice ih]
      rfl

theorem declare_withLayout (model : Model) :
    declare (options.withLayout choice) model = declare options model := by
  cases model with
  | record record => exact declareRecord_withLayout options choice options.rootName (options.arranged record)
  | enumeration enumeration => rfl

end Declared

/-- Whatever the layout, a model fails in one way or has one list of lines, which are one block; the
layout decides how each of them looks. -/
theorem layout_changes_looks_only (model : Model) (options : Options) :
    ∃ result : Except Failure (List Line),
      (∀ choice : LayoutChoice, (options.withLayout choice).refusal? = none →
        Tallies choice.Renders result (emit model (options.withLayout choice))) ∧
      ∀ lines, result = .ok lines → OneBlock lines := by
  refine ⟨((declare options model).map (declarationLines options.escaper 0)).mapError Failure.clash, ?_, ?_⟩
  · intro choice valid
    rw [emit_eq valid, declare_withLayout]
    cases declare options model with
    | ok declaration => exact .ok (renders_text options choice _)
    | error clash => exact .error (Failure.clash clash)
  · intro lines same
    obtain ⟨declaration, -, rfl⟩ := map_eq_ok (mapError_eq_ok same)
    exact oneBlock_declarationLines options.escaper declaration

/-- A record with a renamed key, an enumeration and a record inside. -/
def visitModel : Model :=
  .record ⟨"Model", [⟨"visit_id", .integer, false, false⟩, ⟨"kind", .choice ["a", "b_c"], false, true⟩,
    ⟨"guests", .record ⟨"Guests", [⟨"name", .string, false, false⟩]⟩, true, false⟩]⟩

def tabbedPublic : LayoutChoice := ⟨.tab, .everywhere, true, ["Hashable", "String", "Codable", "Hashable"]⟩

def bareWide : LayoutChoice := ⟨.spaces 4, .withinFile, false, []⟩

theorem layout_changes_looks_only_visit :
    (Options.default.withLayout tabbedPublic).refusal? = none ∧
    (Options.default.withLayout bareWide).refusal? = none ∧
    ∃ lines text other, OneBlock lines ∧
      emit visitModel (Options.default.withLayout tabbedPublic) = .ok text ∧
      tabbedPublic.Renders lines text ∧
      emit visitModel (Options.default.withLayout bareWide) = .ok other ∧ bareWide.Renders lines other := by
  have valid : (Options.default.withLayout tabbedPublic).refusal? = none := by decide
  have valid' : (Options.default.withLayout bareWide).refusal? = none := by decide
  have emitted : (emit visitModel (Options.default.withLayout tabbedPublic)).isOk = true := by
    decide +kernel
  refine ⟨valid, valid', ?_⟩
  obtain ⟨result, renders, blocks⟩ := layout_changes_looks_only visitModel .default
  have first := renders tabbedPublic valid
  have second := renders bareWide valid'
  generalize emit visitModel (Options.default.withLayout tabbedPublic) = one at first emitted
  generalize emit visitModel (Options.default.withLayout bareWide) = two at second
  cases first with
  | error failure => cases emitted
  | @ok lines text rendered =>
      cases second with
      | ok rendered' => exact ⟨lines, text, _, blocks lines rfl, rfl, rendered, rfl, rendered'⟩

end SwiftModel.Emission
