/- The reader gives back every declaration whose names are plain, however deep blocks are nested. -/
import SwiftModel.Proofs.Emission.Reader
import SwiftModel.Proofs.Text.Pieces

namespace SwiftModel.Emission
open SwiftModel.Identifier SwiftModel.Text

/-- A declaration in which every name is plain and no type goes over the end of its line. -/
inductive Declaration.Legible : Declaration → Prop
  | record {name : String} {properties : List (Property Declaration)}
      {keyTable : Option (List Case)} :
      Plain name.toList →
      (∀ property ∈ properties, Plain property.name.toList ∧ '\n' ∉ property.type.toList) →
      (∀ property ∈ properties, ∀ nested, property.nested = some nested → nested.Legible) →
      (∀ cases, keyTable = some cases → ∀ row ∈ cases, Plain row.name.toList) →
      Legible (.record name properties keyTable)
  | enumeration {name : String} {cases : List Case} :
      Plain name.toList → (∀ row ∈ cases, Plain row.name.toList) →
      Legible (.enumeration name cases)

/-- The indentation of a line, and its content. -/
def Options.body (options : Options) (line : Line) : List Char :=
  (String.join (List.replicate line.level options.layout.indent)).toList
    ++ (options.layout.content line.content).toList

section Indentation

variable {options : Options}

theorem isBlank_of_mem_unit {indent : Indent} {c : Char} (h : c ∈ indent.unit.toList) :
    isBlank c = true := by
  cases indent with
  | spaces width =>
      rw [Indent.unit, String.toList_ofList] at h
      exact List.eq_of_mem_replicate h ▸ rfl
  | tab =>
      rw [List.mem_singleton.mp h]
      rfl

theorem isBlank_of_mem_indentation {level : Nat} {c : Char}
    (h : c ∈ (String.join (List.replicate level options.layout.indent)).toList) :
    isBlank c = true := by
  rw [String.toList_join] at h
  obtain ⟨unit, member, inside⟩ := List.mem_flatMap.mp h
  rw [List.eq_of_mem_replicate member] at inside
  exact isBlank_of_mem_unit inside

theorem toList_line (line : Line) :
    (options.layout.line line).toList = options.body line ++ ['\n'] := by
  rw [Layout.line, String.toList_append, String.toList_append]
  rfl

theorem pieces_text {lines : List Line} (h : ∀ line ∈ lines, '\n' ∉ options.body line) :
    (pieces '\n' (options.layout.text lines).toList).dropLast = lines.map options.body := by
  have text : (options.layout.text lines).toList =
      (lines.map options.body).flatMap (· ++ ['\n']) := by
    rw [Layout.text, String.toList_join, List.flatMap_map, List.flatMap_map]
    congr 1
    funext line
    exact toList_line line
  rw [text, pieces_flatMap, List.dropLast_concat]
  intro body member
  obtain ⟨line, inside, rfl⟩ := List.mem_map.mp member
  exact h line inside

end Indentation

/-- Lines take the reader from the blocks that are open before them to those that are open behind
them. -/
structure Options.Reads (options : Options) (lines : List Line) (before after : List Frame) :
    Prop where
  oneLine : ∀ line ∈ lines, '\n' ∉ options.body line
  run : (lines.map options.body).foldlM options.readLine before = some after

section Reads

variable {options : Options} {content : LineContent} {token : Token} {level : Nat}
  {first second lines : List Line} {before between after : List Frame}

theorem Options.Reads.nil (options : Options) (frames : List Frame) :
    options.Reads [] frames frames := ⟨fun _ member => (nomatch member), rfl⟩

theorem Options.Reads.append (h : options.Reads first before between)
    (h' : options.Reads second between after) : options.Reads (first ++ second) before after := by
  constructor
  · intro line member
    exact (List.mem_append.mp member).elim (h.oneLine line) (h'.oneLine line)
  · rw [List.map_append, List.foldlM_append, h.run]
    exact h'.run

theorem Options.Tells.newline_not_mem (told : options.Tells content token) :
    '\n' ∉ options.body ⟨level, content⟩ := by
  intro member
  rcases List.mem_append.mp member with indentation | inside
  · exact absurd (isBlank_of_mem_indentation indentation) (by decide)
  · exact told.oneLine inside

theorem Options.Tells.readLine (told : options.Tells content token) (frames : List Frame) :
    options.readLine frames (options.body ⟨level, content⟩) = step frames token := by
  have seen : (options.layout.content content).toList.dropWhile isBlank =
      (options.layout.content content).toList := by
    have visible := told.visible
    cases hc : (options.layout.content content).toList with
    | nil => rfl
    | cons c cs =>
        rw [hc] at visible
        exact List.dropWhile_cons_of_neg (ne_true_of_eq_false visible)
  rw [Options.readLine, Options.body,
    List.dropWhile_append_of_pos fun c => isBlank_of_mem_indentation, seen, told.read]
  rfl

theorem Options.Reads.line (told : options.Tells content token) (h : step before token = some after) :
    options.Reads [⟨level, content⟩] before after := by
  constructor
  · intro line member
    rw [List.mem_singleton.mp member]
    exact told.newline_not_mem
  · rw [List.map_singleton, List.foldlM_cons, told.readLine, h]
    rfl

theorem Options.Reads.cons (told : options.Tells content token)
    (h : step before token = some between) (h' : options.Reads lines between after) :
    options.Reads (⟨level, content⟩ :: lines) before after := (Reads.line told h).append h'

end Reads

section Blocks

variable {options : Options} (readable : options.escaper = .swift ∨ options.escaper = .none)
  (interfaces : ∀ name ∈ options.writtenInterfaces, '\n' ∉ name.toList) (level : Nat)
include readable

theorem reads_caseLines {block : List Case → Frame} {frames : List Frame}
    (gathers : ∀ row rows, step (block rows :: frames) (.row row) = some (block (row :: rows) :: frames))
    {cases : List Case} (plain : ∀ row ∈ cases, Plain row.name.toList) (rows : List Case) :
    options.Reads (caseLines options.escaper level cases) (block rows :: frames)
      (block (cases.reverse ++ rows) :: frames) := by
  induction cases generalizing rows with
  | nil => exact .nil options _
  | cons row cases ih =>
      obtain ⟨here, behind⟩ := List.forall_mem_cons.mp plain
      rw [List.reverse_cons, List.append_assoc]
      exact .cons (tells_row readable here) (gathers row rows) (ih behind (row :: rows))

theorem reads_keyTableLines {keyTable : Option (List Case)}
    (plain : ∀ cases, keyTable = some cases → ∀ row ∈ cases, Plain row.name.toList)
    (name : String) (properties : List (Property Declaration)) (frames : List Frame) :
    options.Reads (keyTableLines options.escaper level keyTable)
      (.record name properties none :: frames) (.record name properties keyTable :: frames) := by
  cases keyTable with
  | none => exact .nil options _
  | some cases =>
      have rows : options.Reads (caseLines options.escaper (level + 1) cases)
          (.keyTable [] :: .record name properties none :: frames)
          (.keyTable (cases.reverse ++ []) :: .record name properties none :: frames) :=
        reads_caseLines readable (level + 1) (fun row rows => rfl) (plain cases rfl) []
      rw [List.append_nil] at rows
      refine .cons tells_keyTable rfl (rows.append (.line tells_close ?_))
      rw [step, List.reverse_reverse]

theorem reads_propertyLines {properties : List (Property Declaration)}
    (plain : ∀ property ∈ properties,
      Plain property.name.toList ∧ '\n' ∉ property.type.toList)
    (ih : ∀ property ∈ properties, ∀ nested, property.nested = some nested →
      ∀ before after, put nested before = some after →
        options.Reads (declarationLines options.escaper level nested) before after)
    (name : String) (keyTable : Option (List Case)) (frames : List Frame)
    (read : List (Property Declaration)) :
    options.Reads (propertyLines options.escaper level properties)
      (.record name read keyTable :: frames)
      (.record name (properties.reverse ++ read) keyTable :: frames) := by
  induction properties generalizing read with
  | nil => exact .nil options _
  | cons property properties tail =>
      obtain ⟨here, behind⟩ := List.forall_mem_cons.mp plain
      obtain ⟨within, later⟩ := List.forall_mem_cons.mp ih
      obtain ⟨propertyName, type, nested⟩ := property
      rw [List.reverse_cons, List.append_assoc]
      cases nested with
      | none =>
          rw [propertyLines]
          exact .cons (tells_property readable here.1 here.2) rfl (tail behind later _)
      | some declaration =>
          rw [propertyLines]
          exact .cons (tells_property readable here.1 here.2) rfl
            ((within declaration rfl _ _ rfl).append (tail behind later _))

include interfaces

/-- The lines of a declaration put it into the block around them. -/
theorem reads_declarationLines {declaration : Declaration} (legible : declaration.Legible)
    {before after : List Frame} (h : put declaration before = some after) :
    options.Reads (declarationLines options.escaper level declaration) before after := by
  -- a nested declaration is put into other blocks than the one around it, one level deeper
  induction legible generalizing level before after with
  | @record name properties keyTable hn hp hd ht ih =>
      have fields := reads_propertyLines readable (level + 1) hp
        (fun property member nested same before after => ih property member nested same (level + 1))
        name none before []
      have table := reads_keyTableLines readable (level + 1) ht name properties.reverse before
      rw [List.append_nil] at fields
      rw [declarationLines]
      refine (Options.Reads.cons (tells_recordHeader interfaces hn) rfl
        (fields.append table)).append (.line tells_close ?_)
      rw [step, List.reverse_reverse]
      exact h
  | @enumeration name cases hn hc =>
      have rows : options.Reads (caseLines options.escaper (level + 1) cases)
          (.enumeration name [] :: before) (.enumeration name (cases.reverse ++ []) :: before) :=
        reads_caseLines readable (level + 1) (fun row rows => rfl) hc []
      rw [List.append_nil] at rows
      rw [declarationLines]
      refine (Options.Reads.cons (tells_enumerationHeader interfaces hn) rfl
        rows).append (.line tells_close ?_)
      rw [step, List.reverse_reverse]
      exact h

/-- The reader gives back the declaration that a text was made of. -/
theorem readDeclaration_text {declaration : Declaration} (legible : declaration.Legible) :
    readDeclaration options
      (options.layout.text (declarationLines options.escaper 0 declaration)) = some declaration := by
  have reads : options.Reads (declarationLines options.escaper 0 declaration) [.file none]
      [.file (some declaration)] := reads_declarationLines readable interfaces 0 legible rfl
  rw [readDeclaration, pieces_text reads.oneLine, reads.run]

end Blocks

end SwiftModel.Emission
