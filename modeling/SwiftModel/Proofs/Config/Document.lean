/- Which of the texts that are read as a configuration are documents. -/
import SwiftModel.Config.Settings
import SwiftModel.Proofs.Config.Reader

namespace SwiftModel.Config
open SwiftModel.Json

def escaperShape : Shape := .section [("reserved", .whole 1), ("prefix", .whole 0), ("suffix", .whole 0)]

def emissionShape : Shape := .section
  [("root_name", .whole 0), ("sorted_fields", .whole 0), ("mutable", .whole 0), ("indent_unit", .whole 1),
   ("access_level", .whole 1), ("always_emit_key_mapping", .whole 0), ("conforming_interfaces", .whole 1),
   ("variable_name_strategy", .whole 1), ("object_name_strategy", .whole 1), ("drop_plural_suffix", .whole 0),
   ("escaper", escaperShape)]

/-- What is taken of a configuration. -/
def settingsShape : Shape := .section
  [("emit", emissionShape), ("value", .section [("detect_uuid", .whole 0)]),
   ("schema", .section [("prefer_unsigned_integer", .whole 0)])]

theorem reads_names : Reads (.whole 1) (readList readString) := reads_list reads_string

theorem reads_bareChoice {α : Type} {choices : List (String × Choice α)}
    (bare : ∀ choice ∈ choices, ∃ value, choice.2 = .bare value) : Reads (.whole 1) (readChoice choices) := by
  have reads : ∀ choice ∈ choices, choice.2.Reads 0 := by
    intro choice member
    obtain ⟨value, is⟩ := bare choice member
    rw [is]
    trivial
  exact reads_choice reads

theorem reads_indent : Reads (.whole 1) readIndent := by
  have width : Reads (.whole 0) fun tree => (readWidth tree).map Emission.Indent.spaces :=
    reads_map reads_width Emission.Indent.spaces
  exact reads_choice (List.forall_mem_cons.mpr ⟨width, List.forall_mem_singleton.mpr trivial⟩)

theorem reads_access : Reads (.whole 1) readAccess := reads_bareChoice (by simp)

theorem reads_propertyNaming : Reads (.whole 1) readPropertyNaming := reads_bareChoice (by simp)

theorem reads_typeNaming : Reads (.whole 1) readTypeNaming := reads_bareChoice (by simp)

theorem reads_escaper (values : Identifier.Escaper) :
    Reads escaperShape (readSection "IdentifierEscaper" escaperMembers values) := by
  refine reads_section ?_ _ _
  exact .cons (fits_setting reads_names _ _) <| .cons (fits_setting reads_string _ _) <|
    .cons (fits_setting reads_string _ _) .nil

theorem reads_emission (values : Emission.Options) :
    Reads emissionShape (readSection "EmitOptions" emissionMembers values) := by
  refine reads_section ?_ _ _
  exact .cons (fits_setting reads_string _ _) <| .cons (fits_setting reads_boolean _ _) <|
    .cons (fits_setting reads_boolean _ _) <| .cons (fits_setting reads_indent _ _) <|
    .cons (fits_setting reads_access _ _) <| .cons (fits_setting reads_boolean _ _) <|
    .cons (fits_setting reads_names _ _) <| .cons (fits_setting reads_propertyNaming _ _) <|
    .cons (fits_setting reads_typeNaming _ _) <| .cons (fits_setting reads_boolean _ _) <|
    .cons (fits_nested reads_escaper _ _ _) .nil

theorem reads_settings : Reads settingsShape readSettings := by
  refine reads_section ?_ _ _
  refine .cons (fits_nested reads_emission _ _ _) <| .cons (fits_nested (fun _ => ?_) _ _ _) <|
    .cons (fits_nested (fun _ => ?_) _ _ _) .nil
  · exact reads_section (.cons (fits_setting reads_boolean _ _) .nil) _ _
  · exact reads_section (.cons (fits_setting reads_boolean _ _) .nil) _ _

theorem ofText_of_load {text : String} {settings : Settings} (loads : load text = .ok settings) :
    Settings.ofText text = .ok settings := by
  rw [load] at loads
  split at loads
  next => cases loads
  next read =>
    split at loads
    next => cases loads
    next =>
      cases loads
      exact read

theorem accepted_ofText {text : String} {settings : Settings} (read : Settings.ofText text = .ok settings) :
    Accepted settingsShape (Tree.ofText text.toList) :=
  reads_settings _ _ (coherent_ofText text.toList) (mapError_eq_ok read)

/-- A text that is taken for a configuration begins with a value. It is a document exactly if nothing stands
behind that value, and the members that no section has are fit to be read: nothing else is overlooked. -/
theorem document_of_load_iff {text : String} {settings : Settings} (loads : load text = .ok settings) :
    (Tree.ofText text.toList).passingFault? = none ∧
      ((∃ value, ofText text = .ok value) ↔
        skipBlank (Tree.ofText text.toList).after = [] ∧
          ∀ level part, PassesOver settingsShape (Tree.ofText text.toList) level part →
            part.Decodes (maximalDepth - level)) := by
  have accepted := accepted_ofText (ofText_of_load loads)
  refine ⟨accepted.passes, ?_⟩
  rw [ofText_eq_ok_iff]
  constructor
  · rintro ⟨⟨-, decodes⟩, nothing⟩
    exact ⟨nothing, fun level part passed => decodes_of_passesOver passed decodes⟩
  · rintro ⟨nothing, passed⟩
    exact ⟨⟨accepted.passes, accepted.decodes maximalDepth (by decide) passed⟩, nothing⟩

/-- A configuration with a member that no section has. -/
def notedConfig : String := "\x7b\"note\":[1],\"emit\":\x7b\"mutable\":true\x7d\x7d\n"

def mutableSettings : Settings :=
  { Settings.default with emission := { Emission.Options.default with mutable := true } }

theorem document_of_load_iff_noted :
    load notedConfig = .ok mutableSettings ∧ (∃ value, ofText notedConfig = .ok value) ∧
      ∀ level part, PassesOver settingsShape (Tree.ofText notedConfig.toList) level part →
        part.Decodes (maximalDepth - level) := by
  have loads : load notedConfig = .ok mutableSettings := by decide +kernel
  have document : ∃ value, ofText notedConfig = .ok value := exists_ok_of_isOk (by decide +kernel)
  exact ⟨loads, document, ((document_of_load_iff loads).2.mp document).2⟩

/-- A brace too many. -/
theorem not_document_of_load : ¬ ∀ (text : String) (settings : Settings), load text = .ok settings →
    ∃ value, ofText text = .ok value := by
  intro all
  obtain ⟨value, document⟩ := all "\x7b\x7d \x7d" .default (by decide +kernel)
  have refused : (ofText "\x7b\x7d \x7d").isOk = false := by decide +kernel
  rw [document] at refused
  cases refused

end SwiftModel.Config
