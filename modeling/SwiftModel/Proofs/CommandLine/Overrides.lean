/- What options make of the settings in a configuration file, and when a run goes on with the result. -/
import SwiftModel.Proofs.CommandLine.Parsed
import SwiftModel.Proofs.CommandLine.Run

namespace SwiftModel.CommandLine
open SwiftModel.Files SwiftModel.Emission SwiftModel.Identifier

/-- The choice that is read from the value of an option where it is given, and else the old one. -/
inductive Replaces {α : Type} (given : List Given) (option : OptionName) (read : String → Option α)
    (old : α) : α → Prop
  | given {text : String} {value : α} : ⟨option, [text]⟩ ∈ given → read text = some value →
    Replaces given option read old value
  | kept : isGiven option given = false → Replaces given option read old old

/-- The choice that an option without a value stands for where it is given, and else the old one. -/
inductive Switches {α : Type} (given : List Given) (option : OptionName) (set old : α) : α → Prop
  | given : isGiven option given = true → Switches given option set old set
  | kept : isGiven option given = false → Switches given option set old old

inductive Conforms (given : List Given) (old : List String) : List String → Prop
  | none : isGiven .noConformance given = true → Conforms given old []
  | listed : isGiven .conform given = true → Conforms given old (valuesOf .conform given)
  | kept : isGiven .noConformance given = false → isGiven .conform given = false → Conforms given old old

/-- What a name stands for in a table. -/
def named? {α : Type} (table : List (String × α)) (name : String) : Option α := table.lookup name

def accesses : List (String × Access) :=
  [("public", .everywhere), ("internal", .withinModule), ("fileprivate", .withinFile)]

def propertyNamings : List (String × PropertyNaming) :=
  [("original", .verbatim), ("camel-from-snake", .camelFromSnake)]

def typeNamings : List (String × TypeNaming) :=
  [("uppercase", .uppercase), ("camel-from-snake", .camelFromSnake)]

/-- The settings of a file, with each choice for which an option is given replaced by the option's. -/
structure Merges (given : List Given) (file merged : Config.Settings) : Prop where
  rootName : Replaces given .rootName some file.emission.rootName merged.emission.rootName
  sorted : Switches given .sorted true file.emission.sortedFields merged.emission.sortedFields
  mutable : Switches given .mutable true file.emission.mutable merged.emission.mutable
  indent : Replaces given .indent Indent.ofText? file.emission.indent merged.emission.indent
  access : Replaces given .access (named? accesses) file.emission.access merged.emission.access
  keyTable : Switches given .alwaysKeyMapping true file.emission.alwaysKeyTable
    merged.emission.alwaysKeyTable
  interfaces : Conforms given file.emission.interfaces merged.emission.interfaces
  properties : Replaces given .variableNames (named? propertyNamings) file.emission.propertyNaming
    merged.emission.propertyNaming
  types : Replaces given .objectNames (named? typeNamings) file.emission.typeNaming merged.emission.typeNaming
  elements : Switches given .dropPlural true file.emission.singularElements merged.emission.singularElements
  escaper : Switches given .noEscape Escaper.none file.emission.escaper merged.emission.escaper
  uuid : Switches given .noDetectUuid false file.detectUuid merged.detectUuid
  unsigned : Switches given .noPreferUnsigned false file.preferUnsigned merged.preferUnsigned

section Merging

variable {α : Type} {given : List Given} {option : OptionName} {shape : ValueShape} {set old new : α}
  {read choice : String → Option α} {arguments : List String} {result : Arguments}
  {file merged : Config.Settings}

theorem switches_iff :
    Switches given option set old new ↔ new = if isGiven option given then set else old := by
  constructor
  · rintro (present | absent)
    · rw [if_pos present]
    · rw [absent]
      rfl
  · rintro rfl
    cases present : isGiven option given with
    | true => exact .given present
    | false => exact .kept present

/-- An option that takes one value makes one choice: what is accepted as its value can be read. -/
theorem replaces_iff (well : WellGiven given) (one : option.arity = .one shape)
    (reads : ∀ text, shapeProblem? option shape text = none →
      ∃ value, read text = some value ∧ choice text = some value) :
    Replaces given option read old new ↔ new = ((value? option given).bind choice).getD old := by
  have chosen {text : String} (member : ⟨option, [text]⟩ ∈ given) :
      ∃ value, read text = some value ∧ (value? option given).bind choice = some value := by
    obtain ⟨_, ⟨⟩, fits⟩ := well.shaped _ member shape one
    rw [value?_of_mem well one member]
    exact reads text fits
  constructor
  · rintro (⟨member, same⟩ | absent)
    · obtain ⟨value, reading, choosing⟩ := chosen member
      rw [choosing]
      exact Option.some.inj (same.symm.trans reading)
    · rw [value?_of_not_isGiven absent]
      rfl
  · rintro rfl
    cases present : isGiven option given with
    | true =>
        obtain ⟨text, member⟩ := exists_mem_of_isGiven well one present
        obtain ⟨value, reading, choosing⟩ := chosen member
        rw [choosing]
        exact .given member reading
    | false =>
        rw [value?_of_not_isGiven present]
        exact .kept present

theorem conforms_iff {old new : List String}
    (apart : isGiven .noConformance given = true → isGiven .conform given = false) :
    Conforms given old new ↔ new = (interfaces? given).getD old := by
  rw [interfaces?]
  constructor
  · rintro (none | listed | ⟨some, unlisted⟩)
    · rw [if_pos none]
      rfl
    · have some : ¬ isGiven .noConformance given = true := fun none => by
        rw [apart none] at listed
        cases listed
      rw [if_neg some, if_pos listed]
      rfl
    · rw [some, unlisted]
      rfl
  · rintro rfl
    cases none : isGiven .noConformance given with
    | true => exact .none none
    | false =>
        cases listed : isGiven .conform given with
        | true => exact .listed listed
        | false => exact .kept none listed

theorem switchesOn_iff {old new : Bool} :
    Switches given option true old new ↔ new = (isGiven option given || old) := by
  rw [switches_iff]
  cases isGiven option given <;> rfl

theorem switchesOff_iff {old new : Bool} :
    Switches given option false old new ↔ new = (!isGiven option given && old) := by
  rw [switches_iff]
  cases isGiven option given <;> rfl

/-! Whatever is accepted as a value of an option can be read. -/

theorem mem_of_oneOf {names : List String} {text : String}
    (fits : shapeProblem? option (.oneOf names) text = none) : text ∈ names := by
  rw [shapeProblem?] at fits
  split at fits
  next known => exact List.contains_iff_mem.mp known
  next => cases fits

theorem replaces_rootName_iff (well : WellGiven given) {old : Options} {name : String} :
    Replaces given .rootName some old.rootName name ↔ name = (overrideEmission given old).rootName := by
  rw [replaces_iff well rfl fun text _ => ⟨text, rfl, rfl⟩, Option.bind_fun_some]
  rfl

theorem replaces_indent_iff (well : WellGiven given) {old : Options} {indent : Indent} :
    Replaces given .indent Indent.ofText? old.indent indent ↔
      indent = (overrideEmission given old).indent := by
  refine replaces_iff well rfl fun text fits => ?_
  rw [shapeProblem?] at fits
  split at fits
  next value read => exact ⟨value, read, read⟩
  next => cases fits

/-- The names that an option takes are told apart by a table. -/
theorem replaces_oneOf_iff {names : List String} (well : WellGiven given)
    (one : option.arity = .one (.oneOf names))
    (agree : ∀ name ∈ names, read name = choice name ∧ (read name).isSome = true) :
    Replaces given option read old new ↔ new = ((value? option given).bind choice).getD old := by
  refine replaces_iff well one fun text fits => ?_
  obtain ⟨same, isSome⟩ := agree text (mem_of_oneOf fits)
  obtain ⟨value, named⟩ := Option.isSome_iff_exists.mp isSome
  exact ⟨value, named, same.symm.trans named⟩

theorem replaces_access_iff (well : WellGiven given) {old : Options} {access : Access} :
    Replaces given .access (named? accesses) old.access access ↔
      access = (overrideEmission given old).access :=
  replaces_oneOf_iff well rfl (by decide)

theorem replaces_variableNames_iff (well : WellGiven given) {old : Options} {naming : PropertyNaming} :
    Replaces given .variableNames (named? propertyNamings) old.propertyNaming naming ↔
      naming = (overrideEmission given old).propertyNaming := by
  change _ ↔ naming = ((value? .variableNames given).map propertyNamingOf).getD old.propertyNaming
  rw [Option.map_eq_bind]
  exact replaces_oneOf_iff well rfl (by decide)

theorem replaces_objectNames_iff (well : WellGiven given) {old : Options} {naming : TypeNaming} :
    Replaces given .objectNames (named? typeNamings) old.typeNaming naming ↔
      naming = (overrideEmission given old).typeNaming := by
  change _ ↔ naming = ((value? .objectNames given).map typeNamingOf).getD old.typeNaming
  rw [Option.map_eq_bind]
  exact replaces_oneOf_iff well rfl (by decide)

theorem merges_iff (parsed : Arguments.ofList arguments = .ok result) :
    Merges result.options file merged ↔ merged = override result.options file := by
  have well := wellGiven_of_ofList parsed
  constructor
  · intro merges
    obtain ⟨emission, uuid, unsigned⟩ := merged
    obtain ⟨rootName, sorted, mutable, indent, access, keyTable, interfaces, properties, types, elements,
      escaper⟩ := emission
    rw [override, overrideEmission]
    congr 1
    · congr 1
      · exact (replaces_rootName_iff well).mp merges.rootName
      · exact switchesOn_iff.mp merges.sorted
      · exact switchesOn_iff.mp merges.mutable
      · exact (replaces_indent_iff well).mp merges.indent
      · exact (replaces_access_iff well).mp merges.access
      · exact switchesOn_iff.mp merges.keyTable
      · exact (conforms_iff (conform_apart_of_ofList parsed)).mp merges.interfaces
      · exact (replaces_variableNames_iff well).mp merges.properties
      · exact (replaces_objectNames_iff well).mp merges.types
      · exact switchesOn_iff.mp merges.elements
      · exact switches_iff.mp merges.escaper
    · exact switchesOff_iff.mp merges.uuid
    · exact switchesOff_iff.mp merges.unsigned
  · rintro rfl
    exact
      { rootName := (replaces_rootName_iff well).mpr rfl
        sorted := switchesOn_iff.mpr rfl
        mutable := switchesOn_iff.mpr rfl
        indent := (replaces_indent_iff well).mpr rfl
        access := (replaces_access_iff well).mpr rfl
        keyTable := switchesOn_iff.mpr rfl
        interfaces := (conforms_iff (conform_apart_of_ofList parsed)).mpr rfl
        properties := (replaces_variableNames_iff well).mpr rfl
        types := (replaces_objectNames_iff well).mpr rfl
        elements := switchesOn_iff.mpr rfl
        escaper := switches_iff.mpr rfl
        uuid := switchesOff_iff.mpr rfl
        unsigned := switchesOff_iff.mpr rfl }

end Merging

section Stage

variable {given : List Given} {world : World} {path text : String} {file settings : Config.Settings}
  {arguments : List String} {result : Arguments}

/-- A file is refused for its own choices, before any option replaces them. -/
theorem load_of_refused (reads : Config.Settings.ofText text = .ok file) {refusal : Refusal}
    (refused : file.emission.refusal? = some refusal) : Config.load text = .error (.refused refusal) := by
  simp only [Config.load, reads, refused]

theorem load_of_accepted (reads : Config.Settings.ofText text = .ok file)
    (own : file.emission.refusal? = none) : Config.load text = .ok file := by
  simp only [Config.load, reads, own]

theorem load_eq_ok_iff (reads : Config.Settings.ofText text = .ok file) :
    Config.load text = .ok settings ↔ settings = file ∧ file.emission.refusal? = none := by
  cases own : file.emission.refusal? with
  | some refusal => simp [load_of_refused reads own]
  | none => simp [load_of_accepted reads own, eq_comm]

theorem configures_iff (named : value? .config given = some path)
    (readable : world (.readText ⟨path⟩) = .ok text) (reads : Config.Settings.ofText text = .ok file) :
    Configures given world settings ↔ settings = override given file ∧
      file.emission.refusal? = none ∧ (override given file).emission.refusal? = none := by
  constructor
  · rintro ⟨loaded, loads, rfl, accepted⟩
    obtain other | ⟨same, read, loaded⟩ := loads
    · rw [named] at other
      cases other
    · cases named.symm.trans same
      cases readable.symm.trans read
      obtain ⟨rfl, own⟩ := (load_eq_ok_iff reads).mp loaded
      exact ⟨rfl, own, accepted⟩
  · rintro ⟨rfl, own, accepted⟩
    exact ⟨file, .file named readable (load_of_accepted reads own), rfl, accepted⟩

/-- Options come over the choices of a configuration file, and the run goes on with the settings they make
of it. But it does so only if the choices of the file are accepted without them as well: a choice that is
refused ends the run even where an option replaces it. -/
theorem settings_merged_of_accepted (parsed : Arguments.ofList arguments = .ok result)
    (named : ⟨.config, [path]⟩ ∈ result.options) (readable : world (.readText ⟨path⟩) = .ok text)
    (reads : Config.Settings.ofText text = .ok file) :
    ∃ merged, (∀ other, Merges result.options file other ↔ other = merged) ∧
      (∀ settings, (configure result.options : Program _).under world = .ok settings ↔
        settings = merged ∧ file.emission.refusal? = none ∧ merged.emission.refusal? = none) ∧
      (file.emission.refusal? = none → merged.emission.refusal? = none →
        (prepare result).under world =
          ((resolveAll (valuesOf .input result.options) : Program _).under world).map fun inputs =>
            (merged, inputs)) ∧
      (∀ refusal, file.emission.refusal? = some refusal →
        (execute result : Program _).under world = .error (.badConfig ⟨path⟩ (.refused refusal))) ∧
      ∀ refusal, file.emission.refusal? = none → merged.emission.refusal? = some refusal →
        (execute result : Program _).under world = .error (.refused refusal) := by
  have chosen : value? .config result.options = some path :=
    value?_of_mem (wellGiven_of_ofList parsed) rfl named
  have configured (settings : Config.Settings) :
      (configure result.options : Program _).under world = .ok settings ↔
        settings = override result.options file ∧ file.emission.refusal? = none ∧
          (override result.options file).emission.refusal? = none :=
    under_configure_eq_ok.trans (configures_iff chosen readable reads)
  refine ⟨override result.options file, fun other => merges_iff parsed, configured, ?_, ?_, ?_⟩
  · intro own accepted
    rw [under_prepare, (configured _).mpr ⟨rfl, own, accepted⟩]
    rfl
  · intro refusal refused
    have bad := load_of_refused reads refused
    exact under_execute_eq_error.mpr (.configuration (.bad chosen readable bad))
  · intro refusal own refused
    have loads : Loads result.options world file :=
      .file chosen readable (load_of_accepted reads own)
    exact under_execute_eq_error.mpr (.configuration (.refused loads refused))

end Stage

def indentWords : List String := ["json", "-i", "x.json", "--config", "cfg.json", "--indent", "4"]

def indentArguments : Arguments :=
  ⟨.json, [], [⟨.input, ["x.json"]⟩, ⟨.config, ["cfg.json"]⟩, ⟨.indent, ["4"]⟩]⟩

/-- A configuration whose only choice is the indentation. -/
def indentConfig (choice : String) : String :=
  "\x7b\"emit\":\x7b\"indent_unit\":" ++ choice ++ "\x7d\x7d"

def indentSettings (indent : Indent) : Config.Settings :=
  { Config.Settings.default with emission := { Options.default with indent := indent } }

def indentFiles (choice : String) : FileSystem :=
  ⟨[(["cfg.json"], .file (.text (indentConfig choice))), (["x.json"], .file (.text "\x7b\"a\":1\x7d"))], []⟩

theorem settings_merged_of_accepted_tab :
    Merges indentArguments.options (indentSettings .tab) (indentSettings (.spaces 4)) ∧
      (prepare indentArguments).under (indentFiles "\"tab\"").world =
        .ok (indentSettings (.spaces 4), [⟨"x.json"⟩]) := by
  have parsed : Arguments.ofList indentWords = .ok indentArguments := by decide +kernel
  have named : (⟨.config, ["cfg.json"]⟩ : Given) ∈ indentArguments.options := by decide
  have readable : (indentFiles "\"tab\"").world (.readText ⟨"cfg.json"⟩) = .ok (indentConfig "\"tab\"") := by
    decide +kernel
  have reads : Config.Settings.ofText (indentConfig "\"tab\"") = .ok (indentSettings .tab) := by
    decide +kernel
  obtain ⟨merged, unique, -, goesOn, -⟩ := settings_merged_of_accepted parsed named readable reads
  have same : indentSettings (.spaces 4) = merged :=
    (unique _).mp ((merges_iff parsed).mpr (by decide +kernel))
  subst same
  exact ⟨(unique _).mpr rfl, (goesOn (by decide +kernel) (by decide +kernel)).trans (by decide +kernel)⟩

/-- The indentation that the file asks for is none, and the option replaces it. -/
theorem not_settings_merged : ¬ ∀ (arguments : List String) (result : Arguments) (files : FileSystem)
    (path text : String) (file merged : Config.Settings), Arguments.ofList arguments = .ok result →
      ⟨.config, [path]⟩ ∈ result.options → files.world (.readText ⟨path⟩) = .ok text →
      Config.Settings.ofText text = .ok file → Merges result.options file merged →
      ((configure result.options : Program _).under files.world = .ok merged ↔
        merged.emission.refusal? = none) := by
  intro all
  have parsed : Arguments.ofList indentWords = .ok indentArguments := by decide +kernel
  have merges : Merges indentArguments.options (indentSettings (.spaces 0)) (indentSettings (.spaces 4)) :=
    (merges_iff parsed).mpr (by decide +kernel)
  have exactly := all indentWords indentArguments (indentFiles "\x7b\"spaces\":0\x7d") "cfg.json"
    (indentConfig "\x7b\"spaces\":0\x7d") _ _ parsed (by decide) (by decide +kernel) (by decide +kernel)
    merges
  revert exactly
  decide +kernel

end SwiftModel.CommandLine
