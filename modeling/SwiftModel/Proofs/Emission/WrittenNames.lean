/- When names that stand side by side in a text are written alike: only where a reserved word is quoted
into the spelling of another of them. -/
import Mathlib.Data.List.Nodup
import SwiftModel.Proofs.Emission.LegalNames

namespace SwiftModel.Identifier

/-- A word between the marks that quote it. -/
def Escaper.quoted (escaper : Escaper) (word : String) : String :=
  escaper.opening ++ word ++ escaper.closing

/-- No reserved word among the names is quoted into another of them, one that is written as it is. -/
def Escaper.QuotesApart (escaper : Escaper) (names : List String) : Prop :=
  ∀ word ∈ names, word ∈ escaper.reserved →
    ∀ name ∈ names, name ∉ escaper.reserved → name ≠ escaper.quoted word

instance (escaper : Escaper) (names : List String) : Decidable (escaper.QuotesApart names) :=
  inferInstanceAs (Decidable (∀ word ∈ names, word ∈ escaper.reserved →
    ∀ name ∈ names, name ∉ escaper.reserved → name ≠ escaper.quoted word))

section Quoting

variable {escaper : Escaper} {names : List String}

theorem escape_of_mem {name : String} (h : name ∈ escaper.reserved) :
    escaper.escape name = escaper.quoted name := if_pos (List.contains_iff_mem.mpr h)

theorem escape_of_not_mem {name : String} (h : name ∉ escaper.reserved) :
    escaper.escape name = name := if_neg fun listed => h (List.contains_iff_mem.mp listed)

theorem toList_quoted (escaper : Escaper) (word : String) :
    (escaper.quoted word).toList =
      escaper.opening.toList ++ (word.toList ++ escaper.closing.toList) := by
  rw [Escaper.quoted, String.toList_append, String.toList_append, List.append_assoc]

theorem quoted_inj {word other : String} (h : escaper.quoted word = escaper.quoted other) :
    word = other := by
  rw [← String.toList_inj, toList_quoted, toList_quoted] at h
  exact String.toList_inj.mp (List.append_cancel_right (List.append_cancel_left h))

/-- Two names that are written alike are one name, or the one is reserved and quoted into the other. -/
theorem eq_of_escape_eq (apart : escaper.QuotesApart names) {name other : String}
    (hn : name ∈ names) (ho : other ∈ names) (same : escaper.escape name = escaper.escape other) :
    name = other := by
  by_cases reserved : name ∈ escaper.reserved
  · by_cases reserved' : other ∈ escaper.reserved
    · rw [escape_of_mem reserved, escape_of_mem reserved'] at same
      exact quoted_inj same
    · rw [escape_of_mem reserved, escape_of_not_mem reserved'] at same
      exact absurd same.symm (apart name hn reserved other ho reserved')
  · by_cases reserved' : other ∈ escaper.reserved
    · rw [escape_of_not_mem reserved, escape_of_mem reserved'] at same
      exact absurd same (apart other ho reserved' name hn reserved)
    · rwa [escape_of_not_mem reserved, escape_of_not_mem reserved'] at same

theorem nodup_map_escape_iff (distinct : names.Nodup) :
    (names.map escaper.escape).Nodup ↔ escaper.QuotesApart names := by
  rw [List.nodup_map_iff_inj_on distinct]
  constructor
  · intro injective word hw reserved name hn free same
    have alike : escaper.escape name = escaper.escape word := by
      rw [escape_of_not_mem free, escape_of_mem reserved, same]
    exact free (injective name hn word hw alike ▸ reserved)
  · exact fun apart name hn other ho => eq_of_escape_eq apart hn ho

/-- A mark that occurs in no name tells what is quoted from what is not. -/
theorem quotesApart_of_mark {mark : Char}
    (marked : mark ∈ escaper.opening.toList ∨ mark ∈ escaper.closing.toList)
    (foreign : ∀ name ∈ names, mark ∉ name.toList) : escaper.QuotesApart names := by
  intro word _ _ name hn _ same
  apply foreign name hn
  rw [same, toList_quoted, List.mem_append, List.mem_append]
  exact marked.imp id .inr

theorem quotesApart_of_unmarked (opening : escaper.opening = "") (closing : escaper.closing = "") :
    escaper.QuotesApart names := by
  intro word _ reserved name _ free same
  rw [Escaper.quoted, opening, closing, String.append_empty, String.empty_append] at same
  exact free (same ▸ reserved)

end Quoting

/-- The quotation marks tell a quoted word from every name: there are none, or one is no character of a
name. -/
def Escaper.Marks (escaper : Escaper) : Prop :=
  escaper.opening = "" ∧ escaper.closing = "" ∨
    ∃ mark ∈ escaper.opening.toList ++ escaper.closing.toList, isPlain mark = false

-- The search for a mark is named, or every character there is would be tried.
instance (escaper : Escaper) : Decidable escaper.Marks :=
  @instDecidableOr _ _ inferInstance (List.decidableBEx (isPlain · = false) _)

example : Escaper.swift.Marks ∧ Escaper.none.Marks ∧ ¬ Escaper.Marks ⟨["class"], "", "_"⟩ := by decide

theorem Escaper.Marks.quotesApart {escaper : Escaper} (h : escaper.Marks) {names : List String}
    (plain : ∀ name ∈ names, Plain name.toList) : escaper.QuotesApart names := by
  rcases h with ⟨opening, closing⟩ | ⟨mark, marked, foreign⟩
  · exact quotesApart_of_unmarked opening closing
  · exact quotesApart_of_mark (List.mem_append.mp marked) fun name member =>
      (plain name member).not_mem foreign

end SwiftModel.Identifier

namespace SwiftModel.Emission
open SwiftModel.Identifier

/-- The lists of names that stand side by side in a declaration: of properties and of the rows of the
key table, or of cases. -/
def Declaration.nameLists : Declaration → List (List String)
  | .record _ properties keyTable =>
    properties.map Property.name :: keyTable.toList.map (·.map Case.name)
  | .enumeration _ cases => [cases.map Case.name]

section Drafts

variable {options : Options}

theorem names_drafts (options : Options) (fields : List (Field Base)) :
    (options.drafts fields).map Property.name = options.identifiers (fields.map Field.key) := by
  have short : (options.properties fields).length ≤ fields.length :=
    Nat.le_of_eq (length_properties options fields)
  rw [Options.drafts, List.map_zipWith]
  exact List.map_zip_eq_zipWith.symm.trans (List.map_snd_zip short)

theorem names_cases (options : Options) (keys : List String) :
    (options.cases keys).map Case.name = options.identifiers keys := by
  have short : (options.identifiers keys).length ≤ keys.length :=
    Nat.le_of_eq (length_identifiers options keys)
  rw [Options.cases, List.map_zipWith]
  exact List.map_zip_eq_zipWith.symm.trans (List.map_fst_zip short)

/-- Names that stand side by side are the identifiers of keys, made distinct. -/
theorem Stands.eq_identifiers {model : Model} {scope : Scope} {path : List Nat} {inner : Declaration}
    (h : Stands (draft options model) scope path inner) {names : List String}
    (side : names ∈ inner.nameLists) : ∃ keys, names = options.identifiers keys := by
  cases inner with
  | record name properties keyTable =>
      obtain ⟨record, -, rfl, rfl⟩ := h.exists_record
      rcases List.mem_cons.mp side with rfl | row
      · exact ⟨_, names_drafts options record.fields⟩
      · obtain ⟨rows, table, rfl⟩ := List.mem_map.mp row
        rw [eq_cases_of_keyTable? (Option.mem_toList.mp table)]
        exact ⟨_, names_cases options _⟩
  | enumeration name cases =>
      obtain ⟨values, -, rfl⟩ := h.exists_choice
      rw [List.mem_singleton.mp side]
      exact ⟨values, names_cases options values⟩

end Drafts

/-- Names that stand side by side in an emitted text are distinct, and they are written apart exactly if
no reserved word among them is quoted into another. Marks that no name holds are enough for that. -/
theorem names_written_apart {options : Options} (valid : options.refusal? = none) {model : Model}
    {text : String} (emitted : emit model options = .ok text) :
    ∃ declaration, declare options model = .ok declaration ∧ text = options.text declaration ∧
      ∀ scope path inner, Stands declaration scope path inner → ∀ names ∈ inner.nameLists,
        names.Nodup ∧
        ((names.map options.escaper.escape).Nodup ↔ options.escaper.QuotesApart names) ∧
        (options.escaper.Marks → (names.map options.escaper.escape).Nodup) := by
  obtain ⟨declared, rfl⟩ := (emit_eq_ok valid).mp emitted
  refine ⟨_, declared, rfl, ?_⟩
  intro scope path inner stands names side
  obtain ⟨keys, rfl⟩ := stands.eq_identifiers side
  have distinct := nodup_identifiers options keys
  have quoting : ((options.identifiers keys).map options.escaper.escape).Nodup ↔
      options.escaper.QuotesApart (options.identifiers keys) := nodup_map_escape_iff distinct
  refine ⟨distinct, quoting, fun marks => quoting.mpr ?_⟩
  exact marks.quotesApart fun _ => plain_of_mem_identifiers

/-- A reserved word, and the word with an underscore in front: as keys, and as the texts of a choice. -/
def classModel : Model :=
  .record ⟨"Model", [⟨"class", .choice ["class", "_class"], false, false⟩,
    ⟨"_class", .string, false, false⟩]⟩

theorem names_written_apart_class :
    Options.default.refusal? = none ∧
    ∃ declaration, declare Options.default classModel = .ok declaration ∧
      ∀ scope path inner, Stands declaration scope path inner → ∀ names ∈ inner.nameLists,
        (names.map Escaper.swift.escape).Nodup := by
  have valid : Options.default.refusal? = none := by decide
  refine ⟨valid, ?_⟩
  obtain ⟨declaration, declared, -, apart⟩ := @names_written_apart _ valid classModel _ rfl
  exact ⟨declaration, declared, fun scope path inner stands names side =>
    (apart scope path inner stands names side).2.2 (by decide)⟩

/-- A word is quoted by an underscore in front of it. -/
def underscoreOptions : Options :=
  { Options.default with alwaysKeyTable := true, escaper := ⟨["class"], "_", ""⟩ }

/-- The properties, the rows of the key table and the cases are all written twice as `_class`. -/
theorem not_names_written_apart :
    underscoreOptions.refusal? = none ∧
    ∃ text declaration, emit classModel underscoreOptions = .ok text ∧
      declare underscoreOptions classModel = .ok declaration ∧
      (∃ scope path name properties rows,
        Stands declaration scope path (.record name properties (some rows)) ∧
          ¬ (properties.map fun property => underscoreOptions.escaper.escape property.name).Nodup ∧
          ¬ (rows.map fun row => underscoreOptions.escaper.escape row.name).Nodup) ∧
      ∃ scope path name cases, Stands declaration scope path (.enumeration name cases) ∧
        ¬ (cases.map fun row => underscoreOptions.escaper.escape row.name).Nodup := by
  refine ⟨by decide, _, _, rfl, rfl, ⟨_, _, _, _, _, .root, ?_, ?_⟩, _, _, _, _,
    @Stands.nested _ _ _ _ _ _ 0 _ _ .root rfl rfl, ?_⟩
  all_goals decide

end SwiftModel.Emission
