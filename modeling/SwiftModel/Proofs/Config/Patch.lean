/- A configuration as the settings that it names. Every text that writes these and no others, in any order and
with any other members between them, changes these and no others. -/
import SwiftModel.Config.Settings
import SwiftModel.Proofs.Config.Section

namespace SwiftModel.Config
open SwiftModel.Json SwiftModel.Emission SwiftModel.Identifier

/-! How the values of settings are written. -/

def AccessText : Access → Language
  | .everywhere => StringText "public"
  | .withinModule => StringText "internal"
  | .withinFile => StringText "fileprivate"

def PropertyNamingText : PropertyNaming → Language
  | .verbatim => StringText "original"
  | .camelFromSnake => StringText "camel-from-snake"

def TypeNamingText : TypeNaming → Language
  | .uppercase => StringText "uppercase"
  | .camelFromSnake => StringText "camel-from-snake"

/-- Widths are numbers of 64 bits. -/
def WidthText (width : Nat) : Language := fun text => width < 2 ^ 64 ∧ NaturalText width text

def IndentText : Indent → Language
  | .tab => StringText "tab"
  | .spaces width => ObjectText [("spaces", WidthText width)]

theorem readAs_indent (indent : Indent) : ReadAs readIndent (IndentText indent) indent := by
  cases indent with
  | tab => exact readAs_bare rfl
  | spaces width =>
      have reads : ReadAs (fun tree => (readWidth tree).map Indent.spaces) (WidthText width)
          (.spaces width) := by
        rintro body ⟨small, spelled⟩
        refine (readAs_width small body spelled).mono fun tree taken => ?_
        simp only [taken, Except.map]
      exact readAs_carrying rfl reads

theorem readAs_access (access : Access) : ReadAs readAccess (AccessText access) access := by
  cases access <;> exact readAs_bare rfl

theorem readAs_propertyNaming (naming : PropertyNaming) :
    ReadAs readPropertyNaming (PropertyNamingText naming) naming := by
  cases naming <;> exact readAs_bare rfl

theorem readAs_typeNaming (naming : TypeNaming) : ReadAs readTypeNaming (TypeNamingText naming) naming := by
  cases naming <;> exact readAs_bare rfl

/-! Patches: each setting as it is named, if it is. -/

structure EscaperPatch where
  reserved : Option (List String)
  opening : Option String
  closing : Option String

structure EmissionPatch where
  rootName : Option String
  sortedFields : Option Bool
  mutable : Option Bool
  indent : Option Indent
  access : Option Access
  alwaysKeyTable : Option Bool
  interfaces : Option (List String)
  propertyNaming : Option PropertyNaming
  typeNaming : Option TypeNaming
  singularElements : Option Bool
  escaper : Option EscaperPatch

structure SamplePatch where
  detectUuid : Option Bool

structure SchemaPatch where
  preferUnsigned : Option Bool

structure SettingsPatch where
  emission : Option EmissionPatch
  sample : Option SamplePatch
  schema : Option SchemaPatch

def EscaperPatch.onto (patch : EscaperPatch) (escaper : Escaper) : Escaper where
  reserved := patch.reserved.elim escaper.reserved Text.ordered
  opening := patch.opening.getD escaper.opening
  closing := patch.closing.getD escaper.closing

def EmissionPatch.onto (patch : EmissionPatch) (options : Options) : Options where
  rootName := patch.rootName.getD options.rootName
  sortedFields := patch.sortedFields.getD options.sortedFields
  mutable := patch.mutable.getD options.mutable
  indent := patch.indent.getD options.indent
  access := patch.access.getD options.access
  alwaysKeyTable := patch.alwaysKeyTable.getD options.alwaysKeyTable
  interfaces := patch.interfaces.getD options.interfaces
  propertyNaming := patch.propertyNaming.getD options.propertyNaming
  typeNaming := patch.typeNaming.getD options.typeNaming
  singularElements := patch.singularElements.getD options.singularElements
  escaper := patch.escaper.elim options.escaper fun escaper => escaper.onto options.escaper

def SamplePatch.onto (patch : SamplePatch) (detectUuid : Bool) : Bool := patch.detectUuid.getD detectUuid

def SchemaPatch.onto (patch : SchemaPatch) (preferUnsigned : Bool) : Bool :=
  patch.preferUnsigned.getD preferUnsigned

def SettingsPatch.onto (patch : SettingsPatch) (settings : Settings) : Settings where
  emission := patch.emission.elim settings.emission fun emission => emission.onto settings.emission
  detectUuid := patch.sample.elim settings.detectUuid fun sample => sample.onto settings.detectUuid
  preferUnsigned := patch.schema.elim settings.preferUnsigned fun schema => schema.onto settings.preferUnsigned

def EscaperPatch.changes (patch : EscaperPatch) : List (Change Escaper) :=
  [.of "reserved" StringsText patch.reserved fun words e =>
     { e with reserved := words.elim e.reserved Text.ordered },
   .of "prefix" StringText patch.opening fun mark e => { e with opening := mark.getD e.opening },
   .of "suffix" StringText patch.closing fun mark e => { e with closing := mark.getD e.closing }]

def EmissionPatch.changes (patch : EmissionPatch) : List (Change Options) :=
  [.of "root_name" StringText patch.rootName fun name o => { o with rootName := name.getD o.rootName },
   .of "sorted_fields" BooleanText patch.sortedFields fun b o =>
     { o with sortedFields := b.getD o.sortedFields },
   .of "mutable" BooleanText patch.mutable fun b o => { o with mutable := b.getD o.mutable },
   .of "indent_unit" IndentText patch.indent fun indent o => { o with indent := indent.getD o.indent },
   .of "access_level" AccessText patch.access fun access o => { o with access := access.getD o.access },
   .of "always_emit_key_mapping" BooleanText patch.alwaysKeyTable fun b o =>
     { o with alwaysKeyTable := b.getD o.alwaysKeyTable },
   .of "conforming_interfaces" StringsText patch.interfaces fun names o =>
     { o with interfaces := names.getD o.interfaces },
   .of "variable_name_strategy" PropertyNamingText patch.propertyNaming fun naming o =>
     { o with propertyNaming := naming.getD o.propertyNaming },
   .of "object_name_strategy" TypeNamingText patch.typeNaming fun naming o =>
     { o with typeNaming := naming.getD o.typeNaming },
   .of "drop_plural_suffix" BooleanText patch.singularElements fun b o =>
     { o with singularElements := b.getD o.singularElements },
   .of "escaper" (fun escaper => SectionText escaper.changes) patch.escaper fun escaper o =>
     { o with escaper := escaper.elim o.escaper fun escaper => escaper.onto o.escaper }]

def SamplePatch.changes (patch : SamplePatch) : List (Change Bool) :=
  [.of "detect_uuid" BooleanText patch.detectUuid fun b detectUuid => b.getD detectUuid]

def SchemaPatch.changes (patch : SchemaPatch) : List (Change Bool) :=
  [.of "prefer_unsigned_integer" BooleanText patch.preferUnsigned fun b preferUnsigned =>
     b.getD preferUnsigned]

def SettingsPatch.changes (patch : SettingsPatch) : List (Change Settings) :=
  [.of "emit" (fun emission => SectionText emission.changes) patch.emission fun emission s =>
     { s with emission := emission.elim s.emission fun emission => emission.onto s.emission },
   .of "value" (fun sample => SectionText sample.changes) patch.sample fun sample s =>
     { s with detectUuid := sample.elim s.detectUuid fun sample => sample.onto s.detectUuid },
   .of "schema" (fun schema => SectionText schema.changes) patch.schema fun schema s =>
     { s with preferUnsigned := schema.elim s.preferUnsigned fun schema => schema.onto s.preferUnsigned }]

/-- The texts that write the settings of a patch, and no others. -/
def SettingsPatch.Writes (patch : SettingsPatch) (text : String) : Prop :=
  Padded (SectionText patch.changes) text.toList

/-! Each member of a section reads the change that is written for it. -/

section Members

variable {σ τ α : Type} {text : α → Language} {value : Option α} {apply : Option α → σ → σ}

theorem makes_setting {read : Reader α} {set : σ → α → σ} (name : String)
    (reads : ∀ a, ReadAs read (text a) a) (keeps : ∀ values, apply none values = values)
    (makes : ∀ a values, apply (some a) values = set values a) :
    (Member.setting name read set).Makes (.of name text value apply) := by
  cases value with
  | none => exact ⟨rfl, fun _ => keeps, fun _ is => (nomatch is)⟩
  | some a =>
      refine ⟨rfl, fun none => (nomatch none), ?_⟩
      rintro _ ⟨⟩ body spelled
      refine (reads a body spelled).mono fun tree taken values => ?_
      simp only [Member.setting, taken, Except.map, Change.of, makes]

theorem makes_nested {read : τ → Reader τ} {get : σ → τ} {set : σ → τ → σ} (name : String) (onto : α → τ → τ)
    (reads : ∀ a body, text a body → Grows (fun tree => ∀ inner, read inner tree = .ok (onto a inner)) body)
    (keeps : ∀ values, apply none values = values)
    (makes : ∀ a values, apply (some a) values = set values (onto a (get values))) :
    (Member.nested name read get set).Makes (.of name text value apply) := by
  cases value with
  | none => exact ⟨rfl, fun _ => keeps, fun _ is => (nomatch is)⟩
  | some a =>
      refine ⟨rfl, fun none => (nomatch none), ?_⟩
      rintro _ ⟨⟩ body spelled
      refine (reads a body spelled).mono fun tree taken values => ?_
      simp only [Member.nested, taken, Except.map, Change.of, makes]

end Members

theorem describes_escaper (patch : EscaperPatch) : Describes escaperMembers patch.changes where
  makes := .cons (makes_setting _ readAs_strings (fun _ => rfl) fun _ _ => rfl) <|
    .cons (makes_setting _ readAs_string (fun _ => rfl) fun _ _ => rfl) <|
    .cons (makes_setting _ readAs_string (fun _ => rfl) fun _ _ => rfl) .nil
  distinct := by simp [EscaperPatch.changes, Change.of]
  commute := by simp [EscaperPatch.changes, Change.of]

theorem grows_escaper (patch : EscaperPatch) (body : List Char) (spelled : SectionText patch.changes body) :
    Grows (fun tree => ∀ escaper, readSection "IdentifierEscaper" escaperMembers escaper tree =
      .ok (patch.onto escaper)) body :=
  grows_sectionText (describes_escaper patch) _ spelled

theorem describes_emission (patch : EmissionPatch) : Describes emissionMembers patch.changes where
  makes :=
    .cons (makes_setting _ readAs_string (fun _ => rfl) fun _ _ => rfl) <|
    .cons (makes_setting _ readAs_boolean (fun _ => rfl) fun _ _ => rfl) <|
    .cons (makes_setting _ readAs_boolean (fun _ => rfl) fun _ _ => rfl) <|
    .cons (makes_setting _ readAs_indent (fun _ => rfl) fun _ _ => rfl) <|
    .cons (makes_setting _ readAs_access (fun _ => rfl) fun _ _ => rfl) <|
    .cons (makes_setting _ readAs_boolean (fun _ => rfl) fun _ _ => rfl) <|
    .cons (makes_setting _ readAs_strings (fun _ => rfl) fun _ _ => rfl) <|
    .cons (makes_setting _ readAs_propertyNaming (fun _ => rfl) fun _ _ => rfl) <|
    .cons (makes_setting _ readAs_typeNaming (fun _ => rfl) fun _ _ => rfl) <|
    .cons (makes_setting _ readAs_boolean (fun _ => rfl) fun _ _ => rfl) <|
    .cons (makes_nested _ EscaperPatch.onto grows_escaper (fun _ => rfl) fun _ _ => rfl) .nil
  distinct := by simp [EmissionPatch.changes, Change.of]
  commute := by simp [EmissionPatch.changes, Change.of]

theorem grows_emission (patch : EmissionPatch) (body : List Char) (spelled : SectionText patch.changes body) :
    Grows (fun tree => ∀ options, readSection "EmitOptions" emissionMembers options tree =
      .ok (patch.onto options)) body :=
  grows_sectionText (describes_emission patch) _ spelled

theorem describes_sample (patch : SamplePatch) : Describes sampleMembers patch.changes where
  makes := .cons (makes_setting _ readAs_boolean (fun _ => rfl) fun _ _ => rfl) .nil
  distinct := List.pairwise_singleton _ _
  commute := List.pairwise_singleton _ _

theorem describes_schema (patch : SchemaPatch) : Describes schemaMembers patch.changes where
  makes := .cons (makes_setting _ readAs_boolean (fun _ => rfl) fun _ _ => rfl) .nil
  distinct := List.pairwise_singleton _ _
  commute := List.pairwise_singleton _ _

theorem describes_settings (patch : SettingsPatch) : Describes members patch.changes where
  makes :=
    .cons (makes_nested _ EmissionPatch.onto grows_emission (fun _ => rfl) fun _ _ => rfl) <|
    .cons (makes_nested _ SamplePatch.onto (fun sample _ => grows_sectionText (describes_sample sample) _)
      (fun _ => rfl) fun _ _ => rfl) <|
    .cons (makes_nested _ SchemaPatch.onto (fun schema _ => grows_sectionText (describes_schema schema) _)
      (fun _ => rfl) fun _ _ => rfl) .nil
  distinct := by simp [SettingsPatch.changes, Change.of]
  commute := by simp [SettingsPatch.changes, Change.of]

theorem ofText_of_writes {patch : SettingsPatch} {text : String} (writes : patch.Writes text) :
    Settings.ofText text = .ok (patch.onto .default) := by
  have taken := grown_ofText (fun body => grows_sectionText (describes_settings patch) "Config") writes
  have read : readSettings (.ofText text.toList) = .ok (patch.onto .default) := taken .default
  rw [Settings.ofText, read]
  rfl

end SwiftModel.Config
