/- Settings written out in full, and read back. -/
import Mathlib.Data.String.Basic
import SwiftModel.Proofs.Config.Patch
import SwiftModel.Proofs.Text.Ordered

namespace SwiftModel.Config
open SwiftModel.Json SwiftModel.Emission SwiftModel.Identifier

section Writing

def writtenCharacter (c : Char) : List Char :=
  if c = '"' ∨ c = '\\' then ['\\', c]
  else if c.toNat < 0x20 then ['\\', 'u', '0', '0', Nat.digitChar (c.toNat / 16), Nat.digitChar (c.toNat % 16)]
  else [c]

def writtenString (content : String) : List Char :=
  '"' :: (content.toList.flatMap writtenCharacter ++ ['"'])

def separated : List (List Char) → List Char
  | [] => []
  | [text] => text
  | text :: texts => text ++ ',' :: separated texts

def writtenStrings (words : List String) : List Char := '[' :: (separated (words.map writtenString) ++ [']'])

def writtenObject (members : List (String × List Char)) : List Char :=
  '{' :: (separated (members.map fun member => writtenString member.1 ++ ':' :: member.2) ++ ['}'])

theorem hexDigit_digitChar {n : Nat} (small : n < 16) : HexDigit n (Nat.digitChar n) := by
  interval_cases n <;> exact .inl rfl

theorem unitText_writtenCharacter (c : Char) :
    ∃ unit, UnitText unit (writtenCharacter c) ∧
      ∀ units cs, Characters units cs → Characters (unit :: units) (c :: cs) := by
  unfold writtenCharacter
  by_cases marked : c = '"' ∨ c = '\\'
  · rw [if_pos marked]
    refine ⟨.plain c, .short ?_, fun _ _ => .plain⟩
    rcases marked with rfl | rfl <;> simp [shortEscapes]
  · rw [if_neg marked]
    by_cases control : c.toNat < 0x20
    · rw [if_pos control]
      have zero : HexDigit 0 '0' := .inl rfl
      have high : HexDigit (c.toNat / 16) (Nat.digitChar (c.toNat / 16)) := hexDigit_digitChar (by omega)
      have low : HexDigit (c.toNat % 16) (Nat.digitChar (c.toNat % 16)) := hexDigit_digitChar (by omega)
      have spelled := UnitText.code zero zero high low
      have value : ((0 * 16 + 0) * 16 + c.toNat / 16) * 16 + c.toNat % 16 = c.toNat := by omega
      rw [value] at spelled
      exact ⟨.code c.toNat, spelled, fun _ _ => .single (by omega)⟩
    · rw [if_neg control]
      obtain ⟨quote, escape⟩ := not_or.mp marked
      exact ⟨.plain c, .plain quote escape (Nat.not_lt.mp control), fun _ _ => .plain⟩

theorem stringText_writtenString (content : String) : StringText content (writtenString content) := by
  have spelled (cs : List Char) :
      ∃ units, UnitsText units (cs.flatMap writtenCharacter) ∧ Characters units cs := by
    induction cs with
    | nil => exact ⟨[], .nil, .nil⟩
    | cons c cs ih =>
        obtain ⟨units, rest, characters⟩ := ih
        obtain ⟨unit, first, further⟩ := unitText_writtenCharacter c
        exact ⟨unit :: units, .cons first rest, further _ _ characters⟩
  obtain ⟨units, text, characters⟩ := spelled content.toList
  exact ⟨units, _, text, characters, rfl⟩

theorem blank_nil : Blank [] := fun _ member => (nomatch member)

theorem padded_of {inner : Language} {text : List Char} (is : inner text) : Padded inner text :=
  ⟨[], text, [], blank_nil, is, blank_nil, (List.append_nil text).symm⟩

theorem delimited_separated {opening closing : Char} {items : List Language} {texts : List (List Char)}
    (each : List.Forall₂ (fun item text => item text) items texts) :
    Delimited opening closing items (opening :: (separated texts ++ [closing])) := by
  cases each with
  | nil => exact .none blank_nil
  | @cons item text items texts head rest =>
      refine .some ?_
      induction rest generalizing item text with
      | nil => exact .last (padded_of head)
      | cons next _ ih => exact .more (padded_of head) (ih next)

theorem stringsText_writtenStrings (words : List String) : StringsText words (writtenStrings words) := by
  refine delimited_separated ?_
  induction words with
  | nil => exact .nil
  | cons word words ih => exact .cons (stringText_writtenString word) ih

theorem objectText_writtenObject {members : List (String × Language)} {texts : List (String × List Char)}
    (each : List.Forall₂ (fun member text => member.1 = text.1 ∧ member.2 text.2) members texts) :
    ObjectText members (writtenObject texts) := by
  refine delimited_separated ?_
  induction each with
  | nil => exact .nil
  | @cons member text members texts head _ ih =>
      obtain ⟨same, is⟩ := head
      refine .cons ⟨_, [], [], _, stringText_writtenString member.1, blank_nil, blank_nil, is, ?_⟩ ih
      rw [same]
      rfl

theorem sectionText_writtenObject {σ : Type} {changes : List (Change σ)} {texts : List (String × List Char)}
    (each : List.Forall₂ (fun member text => member.1 = text.1 ∧ member.2 text.2)
      (writtenMembers changes) texts) :
    SectionText changes (writtenObject texts) := by
  refine ⟨[], writtenMembers changes, ⟨by simp, ?_⟩, objectText_writtenObject each⟩
  rw [List.map_nil, List.append_nil]

end Writing

def writtenIndent : Indent → List Char
  | .tab => writtenString "tab"
  | .spaces width => writtenObject [("spaces", Nat.toDigits 10 width)]

def writtenAccess : Access → List Char
  | .everywhere => writtenString "public"
  | .withinModule => writtenString "internal"
  | .withinFile => writtenString "fileprivate"

def writtenPropertyNaming : PropertyNaming → List Char
  | .verbatim => writtenString "original"
  | .camelFromSnake => writtenString "camel-from-snake"

def writtenTypeNaming : TypeNaming → List Char
  | .uppercase => writtenString "uppercase"
  | .camelFromSnake => writtenString "camel-from-snake"

def writtenEscaper (escaper : Escaper) : List Char := writtenObject
  [("reserved", writtenStrings escaper.reserved), ("prefix", writtenString escaper.opening),
   ("suffix", writtenString escaper.closing)]

def writtenEmission (options : Options) : List Char := writtenObject
  [("root_name", writtenString options.rootName), ("sorted_fields", wordBoolean options.sortedFields),
   ("mutable", wordBoolean options.mutable), ("indent_unit", writtenIndent options.indent),
   ("access_level", writtenAccess options.access),
   ("always_emit_key_mapping", wordBoolean options.alwaysKeyTable),
   ("conforming_interfaces", writtenStrings options.interfaces),
   ("variable_name_strategy", writtenPropertyNaming options.propertyNaming),
   ("object_name_strategy", writtenTypeNaming options.typeNaming),
   ("drop_plural_suffix", wordBoolean options.singularElements), ("escaper", writtenEscaper options.escaper)]

/-- All settings as a configuration. -/
def Settings.written (settings : Settings) : String := .ofList <| writtenObject
  [("emit", writtenEmission settings.emission),
   ("value", writtenObject [("detect_uuid", wordBoolean settings.detectUuid)]),
   ("schema", writtenObject [("prefer_unsigned_integer", wordBoolean settings.preferUnsigned)])]

/-! The patch that names all settings. -/

def EscaperPatch.all (escaper : Escaper) : EscaperPatch :=
  ⟨some escaper.reserved, some escaper.opening, some escaper.closing⟩

def EmissionPatch.all (options : Options) : EmissionPatch where
  rootName := some options.rootName
  sortedFields := some options.sortedFields
  mutable := some options.mutable
  indent := some options.indent
  access := some options.access
  alwaysKeyTable := some options.alwaysKeyTable
  interfaces := some options.interfaces
  propertyNaming := some options.propertyNaming
  typeNaming := some options.typeNaming
  singularElements := some options.singularElements
  escaper := some (.all options.escaper)

def SettingsPatch.all (settings : Settings) : SettingsPatch :=
  ⟨some (.all settings.emission), some ⟨some settings.detectUuid⟩, some ⟨some settings.preferUnsigned⟩⟩

/-- Settings as a program can hold them: a width of 64 bits, and reserved words that are a set. -/
structure Settings.Holdable (settings : Settings) : Prop where
  width : ∀ width, settings.emission.indent = .spaces width → width < 2 ^ 64
  reserved : settings.emission.escaper.reserved.Pairwise (· < ·)

theorem onto_all {settings : Settings} (holdable : settings.Holdable) (others : Settings) :
    (SettingsPatch.all settings).onto others = settings := by
  have reserved : Text.ordered settings.emission.escaper.reserved = settings.emission.escaper.reserved := by
    refine List.Subset.antisymm_of_pairwise (Text.pairwise_lt_ordered _) holdable.reserved ?_ ?_
    · exact fun word => Text.mem_ordered.mp
    · exact fun word => Text.mem_ordered.mpr
  simp [SettingsPatch.all, SettingsPatch.onto, EmissionPatch.all, EmissionPatch.onto, EscaperPatch.all,
    EscaperPatch.onto, SamplePatch.onto, SchemaPatch.onto, reserved]

theorem indentText_written {indent : Indent} (small : ∀ width, indent = .spaces width → width < 2 ^ 64) :
    IndentText indent (writtenIndent indent) := by
  cases indent with
  | tab => exact stringText_writtenString "tab"
  | spaces width => exact objectText_writtenObject (.cons ⟨rfl, small width rfl, rfl⟩ .nil)

theorem accessText_written (access : Access) : AccessText access (writtenAccess access) := by
  cases access <;> exact stringText_writtenString _

theorem propertyNamingText_written (naming : PropertyNaming) :
    PropertyNamingText naming (writtenPropertyNaming naming) := by
  cases naming <;> exact stringText_writtenString _

theorem typeNamingText_written (naming : TypeNaming) : TypeNamingText naming (writtenTypeNaming naming) := by
  cases naming <;> exact stringText_writtenString _

theorem sectionText_writtenEscaper (escaper : Escaper) :
    SectionText (EscaperPatch.all escaper).changes (writtenEscaper escaper) :=
  sectionText_writtenObject <|
    .cons ⟨rfl, stringsText_writtenStrings _⟩ <| .cons ⟨rfl, stringText_writtenString _⟩ <|
    .cons ⟨rfl, stringText_writtenString _⟩ .nil

theorem sectionText_writtenEmission {options : Options}
    (small : ∀ width, options.indent = .spaces width → width < 2 ^ 64) :
    SectionText (EmissionPatch.all options).changes (writtenEmission options) :=
  sectionText_writtenObject <|
    .cons ⟨rfl, stringText_writtenString _⟩ <| .cons ⟨rfl, rfl⟩ <| .cons ⟨rfl, rfl⟩ <|
    .cons ⟨rfl, indentText_written small⟩ <| .cons ⟨rfl, accessText_written _⟩ <| .cons ⟨rfl, rfl⟩ <|
    .cons ⟨rfl, stringsText_writtenStrings _⟩ <| .cons ⟨rfl, propertyNamingText_written _⟩ <|
    .cons ⟨rfl, typeNamingText_written _⟩ <| .cons ⟨rfl, rfl⟩ <|
    .cons ⟨rfl, sectionText_writtenEscaper _⟩ .nil

theorem writes_written {settings : Settings} (holdable : settings.Holdable) :
    (SettingsPatch.all settings).Writes settings.written := by
  rw [SettingsPatch.Writes, Settings.written, String.toList_ofList]
  refine padded_of (sectionText_writtenObject ?_)
  exact .cons ⟨rfl, sectionText_writtenEmission holdable.width⟩ <|
    .cons ⟨rfl, sectionText_writtenObject (.cons ⟨rfl, rfl⟩ .nil)⟩ <|
    .cons ⟨rfl, sectionText_writtenObject (.cons ⟨rfl, rfl⟩ .nil)⟩ .nil

theorem load_of_writes {patch : SettingsPatch} {text : String} (writes : patch.Writes text) :
    load text = match (patch.onto .default).emission.refusal? with
      | some refusal => .error (.refused refusal)
      | none => .ok (patch.onto .default) := by
  have read := ofText_of_writes writes
  cases refused : (patch.onto .default).emission.refusal? with
  | none => simp only [load, read, refused]
  | some refusal => simp only [load, read, refused]

/-- A configuration changes the settings that it names and no others, wherever they stand in it, unless they
are refused together with the others; and settings that are written out in full are read back as they are. -/
theorem load_changes_what_is_named :
    (∀ (patch : SettingsPatch) (text : String), patch.Writes text →
      load text = match (patch.onto .default).emission.refusal? with
        | some refusal => .error (.refused refusal)
        | none => .ok (patch.onto .default)) ∧
    ∀ settings : Settings, settings.Holdable → settings.emission.refusal? = none →
      (SettingsPatch.all settings).Writes settings.written ∧
        ∀ text, (SettingsPatch.all settings).Writes text → load text = .ok settings := by
  refine ⟨fun _ _ => load_of_writes, fun settings holdable accepted => ⟨writes_written holdable, ?_⟩⟩
  intro text writes
  rw [load_of_writes writes, onto_all holdable, accepted]

/-- A configuration with a member that no section has, and in a section two members out of order. -/
def sparseConfig : String :=
  "\x7b\"note\":null,\"emit\":\x7b\"escaper\":\x7b\"prefix\":\"_\"\x7d,\"indent_unit\":\"tab\"\x7d\x7d"

def sparsePatch : SettingsPatch where
  emission := some
    { rootName := none, sortedFields := none, mutable := none, indent := some .tab, access := none,
      alwaysKeyTable := none, interfaces := none, propertyNaming := none, typeNaming := none,
      singularElements := none, escaper := some ⟨none, some "_", none⟩ }
  sample := none
  schema := none

def sparseSettings : Settings :=
  { Settings.default with emission :=
    { Options.default with indent := .tab, escaper := { Escaper.swift with opening := "_" } } }

theorem writes_sparseConfig : sparsePatch.Writes sparseConfig := by
  have text : sparseConfig.toList = writtenObject [("note", wordNull), ("emit", writtenObject
      [("escaper", writtenObject [("prefix", writtenString "_")]),
       ("indent_unit", writtenString "tab")])] := by
    decide
  rw [SettingsPatch.Writes, text]
  refine padded_of ⟨["note"], _, ⟨?_, .swap _ _ _⟩,
    objectText_writtenObject (.cons ⟨rfl, ?_⟩ (.cons ⟨rfl, ?_⟩ .nil))⟩
  · decide
  · exact .word List.mem_cons_self
  · refine ⟨[], _, ⟨by simp, .swap _ _ _⟩,
      objectText_writtenObject (.cons ⟨rfl, ?_⟩ (.cons ⟨rfl, stringText_writtenString "tab"⟩ .nil))⟩
    exact sectionText_writtenObject (.cons ⟨rfl, stringText_writtenString "_"⟩ .nil)

theorem load_changes_what_is_named_sparse :
    sparsePatch.Writes sparseConfig ∧ load sparseConfig = .ok sparseSettings ∧
      load sparseSettings.written = .ok sparseSettings := by
  have named : sparsePatch.onto .default = sparseSettings := rfl
  have accepted : sparseSettings.emission.refusal? = none := by decide +kernel
  have holdable : sparseSettings.Holdable := ⟨fun _ is => (nomatch is), by decide +kernel⟩
  obtain ⟨writes, reads⟩ := load_changes_what_is_named.2 sparseSettings holdable accepted
  refine ⟨writes_sparseConfig, ?_, reads _ writes⟩
  rw [load_changes_what_is_named.1 sparsePatch sparseConfig writes_sparseConfig, named, accepted]

end SwiftModel.Config
