/- A reader of emitted text: each line is a token, and tokens build declarations on a stack of the
blocks that are open. -/
import Mathlib.Data.List.Basic
import SwiftModel.Emission.Layout
import SwiftModel.Proofs.Identifier.PlainNames

namespace SwiftModel.Emission
open SwiftModel.Identifier SwiftModel.Text

/-- What a line told. -/
inductive Token
  | record (name : String)
  | enumeration (name : String)
  | property (name type : String)
  | keyTable
  | row (row : Case)
  | close

/-- A name, quoted or not, and what is behind it. -/
def readName : List Char → String × List Char
  | '\x60' :: cs => (.ofList (cs.takeWhile isPlain), (cs.dropWhile isPlain).tail)
  | cs => (.ofList (cs.takeWhile isPlain), cs.dropWhile isPlain)

/-- The text that a literal stands for, from behind its opening mark. -/
def readLiteral : List Char → Option (List Char)
  | [] => none
  | '"' :: rest => if rest.isEmpty then some [] else none
  | '\\' :: 'n' :: rest => (readLiteral rest).map ('\n' :: ·)
  | '\\' :: 'r' :: rest => (readLiteral rest).map ('\r' :: ·)
  | '\\' :: 't' :: rest => (readLiteral rest).map ('\t' :: ·)
  | '\\' :: c :: rest => (readLiteral rest).map (c :: ·)
  | c :: rest => (readLiteral rest).map (c :: ·)

/-- A case stands for its literal or, without one, for its own name. -/
def readCase (cs : List Char) : Option Case :=
  let (name, rest) := readName cs
  if rest.isEmpty then some ⟨name, name⟩
  else (rest.dropPrefix? " = \"".toList).bind fun literal =>
    (readLiteral literal).map fun raw => ⟨name, .ofList raw⟩

def readProperty (cs : List Char) : Option Token :=
  let (name, rest) := readName cs
  (rest.dropPrefix? ": ".toList).map fun type => .property name (.ofList type)

def keyTableHeader : String := "private enum " ++ keyTableName ++ ": String, CodingKey \x7b"

/-- A line that no option changes. -/
def readFixed (content : List Char) : Option Token :=
  if content = keyTableHeader.toList then some .keyTable
  else if content = ['\x7d'] then some .close
  else (content.dropPrefix? "case ".toList).bind fun rest => (readCase rest).map .row

/-- What is behind the access and a word. -/
def Options.behind? (options : Options) (word : String) (content : List Char) :
    Option (List Char) :=
  (content.dropPrefix? options.access.keyword.toList).bind fun rest => rest.dropPrefix? word.toList

def Options.binding (options : Options) : String := if options.mutable then " var " else " let "

def Options.token? (options : Options) (content : List Char) : Option Token :=
  (options.behind? " struct " content).map (fun rest => .record (readName rest).1)
    <|> (options.behind? " enum " content).map (fun rest => .enumeration (readName rest).1)
    <|> (options.behind? options.binding content).bind readProperty
    <|> readFixed content

/-- A block that is open, with what is read of it, the latest in front. -/
inductive Frame
  | file (root : Option Declaration)
  | record (name : String) (properties : List (Property Declaration)) (keyTable : Option (List Case))
  | enumeration (name : String) (cases : List Case)
  | keyTable (cases : List Case)

/-- A declaration that is read whole is the root, or belongs to the property in front of it. -/
def put (declaration : Declaration) : List Frame → Option (List Frame)
  | .file none :: frames => some (.file (some declaration) :: frames)
  | .record name (⟨property, type, none⟩ :: properties) keyTable :: frames =>
    some (.record name (⟨property, type, some declaration⟩ :: properties) keyTable :: frames)
  | _ => none

def step : List Frame → Token → Option (List Frame)
  | frames, .record name => some (.record name [] none :: frames)
  | frames, .enumeration name => some (.enumeration name [] :: frames)
  | .record name properties keyTable :: frames, .property property type =>
    some (.record name (⟨property, type, none⟩ :: properties) keyTable :: frames)
  | frames, .keyTable => some (.keyTable [] :: frames)
  | .enumeration name cases :: frames, .row row => some (.enumeration name (row :: cases) :: frames)
  | .keyTable cases :: frames, .row row => some (.keyTable (row :: cases) :: frames)
  | .record name properties keyTable :: frames, .close =>
    put (.record name properties.reverse keyTable) frames
  | .enumeration name cases :: frames, .close => put (.enumeration name cases.reverse) frames
  | .keyTable cases :: .record name properties none :: frames, .close =>
    some (.record name properties (some cases.reverse) :: frames)
  | _, _ => none

/-- Spaces and tabs, in which indentation is written. -/
def isBlank (c : Char) : Bool := c == ' ' || c == '\t'

def Options.readLine (options : Options) (frames : List Frame) (line : List Char) :
    Option (List Frame) :=
  (options.token? (line.dropWhile isBlank)).bind (step frames)

/-- The declaration that a text holds; behind its last line the text ends. -/
def readDeclaration (options : Options) (text : String) : Option Declaration :=
  match (pieces '\n' text.toList).dropLast.foldlM options.readLine [.file none] with
  | some [.file (some root)] => some root
  | _ => none

/-! Names and literals come back. -/

/-- What can stand behind a name is no part of it and no quote. -/
def EndsName (rest : List Char) : Prop :=
  ∀ c cs, rest = c :: cs → isPlain c = false ∧ c ≠ '\x60'

theorem takeWhile_isPlain {name : List Char} (h : Plain name) (rest : List Char)
    (hr : ∀ c cs, rest = c :: cs → isPlain c = false) :
    (name ++ rest).takeWhile isPlain = name ∧ (name ++ rest).dropWhile isPlain = rest := by
  rw [List.takeWhile_append_of_pos h, List.dropWhile_append_of_pos h]
  cases rest with
  | nil => exact ⟨List.append_nil name, rfl⟩
  | cons c cs =>
      have stop : ¬ isPlain c = true := ne_true_of_eq_false (hr c cs rfl)
      rw [List.takeWhile_cons_of_neg stop, List.dropWhile_cons_of_neg stop, List.append_nil]
      exact ⟨rfl, rfl⟩

theorem readName_append {name rest : List Char} (h : Plain name) (hr : EndsName rest) :
    readName (name ++ rest) = (.ofList name, rest) := by
  obtain ⟨taken, dropped⟩ := takeWhile_isPlain h rest fun c cs same => (hr c cs same).1
  rw [readName]
  · rw [taken, dropped]
  · intro cs same
    cases name with
    | nil => exact (hr _ cs same).2 rfl
    | cons c name => exact ne_of_isPlain (h c List.mem_cons_self) rfl (List.cons.inj same).1

theorem readName_quoted {name : List Char} (h : Plain name) (rest : List Char) :
    readName ('\x60' :: (name ++ '\x60' :: rest)) = (.ofList name, rest) := by
  obtain ⟨taken, dropped⟩ := takeWhile_isPlain h ('\x60' :: rest) fun c cs same =>
    (List.cons.inj same).1 ▸ rfl
  rw [readName, taken, dropped, List.tail_cons]

section Escaped

variable {escaper : Escaper} (readable : escaper = .swift ∨ escaper = .none)
include readable

theorem toList_escape (name : String) :
    (escaper.escape name).toList = name.toList ∨
      (escaper.escape name).toList = '\x60' :: (name.toList ++ ['\x60']) := by
  rw [Escaper.escape]
  rcases readable with rfl | rfl
  · split
    · right
      rw [String.toList_append, String.toList_append]
      rfl
    · exact .inl rfl
  · exact .inl rfl

theorem newline_not_mem_escape {name : String} (h : Plain name.toList) :
    '\n' ∉ (escaper.escape name).toList := by
  rcases toList_escape readable name with bare | quoted
  · rw [bare]
    exact h.not_mem rfl
  · rw [quoted, List.mem_cons, List.mem_append, List.mem_singleton, not_or, not_or]
    exact ⟨by decide, h.not_mem rfl, by decide⟩

theorem readName_escape {name : String} (h : Plain name.toList) {rest : List Char}
    (hr : EndsName rest) : readName ((escaper.escape name).toList ++ rest) = (name, rest) := by
  rcases toList_escape readable name with bare | quoted
  · rw [bare, readName_append h hr, String.ofList_toList]
  · rw [quoted, List.cons_append, List.append_assoc, List.singleton_append, readName_quoted h,
      String.ofList_toList]

end Escaped

theorem readLiteral_cons {c : Char} (quote : c ≠ '"') (escape : c ≠ '\\') (rest : List Char) :
    readLiteral (c :: rest) = (readLiteral rest).map (c :: ·) := by
  rw [readLiteral]
  · exact quote
  all_goals
    intros
    exact escape ‹_›

theorem readLiteral_literalCharacter (c : Char) (rest : List Char) :
    readLiteral (literalCharacter c ++ rest) = (readLiteral rest).map (c :: ·) := by
  unfold literalCharacter
  split
  case h_6 escape quote _ _ _ => exact readLiteral_cons quote escape rest
  all_goals rfl

theorem readLiteral_flatMap (cs : List Char) :
    readLiteral (cs.flatMap literalCharacter ++ ['"']) = some cs := by
  induction cs with
  | nil => rfl
  | cons c cs ih =>
      rw [List.flatMap_cons, List.append_assoc, readLiteral_literalCharacter, ih]
      rfl

theorem newline_not_mem_flatMap (cs : List Char) : '\n' ∉ cs.flatMap literalCharacter := by
  intro member
  obtain ⟨c, -, inside⟩ := List.mem_flatMap.mp member
  unfold literalCharacter at inside
  split at inside
  case h_6 newline _ _ => exact newline (List.mem_singleton.mp inside).symm
  all_goals exact absurd inside (by decide)

/-! Lines come back, each as the token that it was. -/

def headerEnd (conformances : List String) : List Char :=
  ((if conformances.isEmpty then "" else ": " ++ ", ".intercalate conformances) ++ " \x7b").toList

theorem endsName_headerEnd (conformances : List String) : EndsName (headerEnd conformances) := by
  intro c cs same
  rw [headerEnd, String.toList_append] at same
  split at same
  · cases (List.cons.inj same).1
    exact ⟨rfl, by decide⟩
  · rw [String.toList_append] at same
    cases (List.cons.inj same).1
    exact ⟨rfl, by decide⟩

theorem newline_not_mem_intercalate {texts : List String} (h : ∀ text ∈ texts, '\n' ∉ text.toList) :
    '\n' ∉ (", ".intercalate texts).toList := by
  induction texts with
  | nil => decide
  | cons text texts ih =>
      obtain ⟨first, rest⟩ := List.forall_mem_cons.mp h
      cases texts with
      | nil => rwa [String.intercalate_singleton]
      | cons second texts =>
          rw [String.intercalate_cons_cons, String.toList_append, String.toList_append]
          intro member
          rcases List.mem_append.mp member with before | inside
          · rcases List.mem_append.mp before with here | comma
            · exact first here
            · exact absurd comma (by decide)
          · exact ih rest inside

theorem newline_not_mem_headerEnd {conformances : List String}
    (h : ∀ name ∈ conformances, '\n' ∉ name.toList) : '\n' ∉ headerEnd conformances := by
  rw [headerEnd, String.toList_append]
  intro member
  rcases List.mem_append.mp member with inside | brace
  · split at inside
    · cases inside
    · rw [String.toList_append] at inside
      rcases List.mem_append.mp inside with colon | inside
      · exact absurd colon (by decide)
      · exact newline_not_mem_intercalate h inside
  · exact absurd brace (by decide)

theorem toList_header (layout : Layout) (keyword name : String) (conformances : List String) :
    (layout.header keyword name conformances).toList = layout.access.toList ++
      ((" " ++ keyword ++ " ").toList ++ (name.toList ++ headerEnd conformances)) := by
  simp only [Layout.header, headerEnd, String.toList_append, List.append_assoc]

section Lines

variable {options : Options}

theorem behind?_keyword (word : String) (rest : List Char) :
    options.behind? word (options.access.keyword.toList ++ rest) =
      rest.dropPrefix? word.toList := by
  rw [Options.behind?, List.dropPrefix?_append_of_beq rest BEq.rfl]
  rfl

theorem dropPrefix?_append (mark rest : List Char) : (mark ++ rest).dropPrefix? mark = some rest :=
  List.dropPrefix?_append_of_beq rest BEq.rfl

/-- The content of a line says a token: it stands on one line, is seen from its start, and is read
as the token. -/
structure Options.Tells (options : Options) (content : LineContent) (token : Token) : Prop where
  oneLine : '\n' ∉ (options.layout.content content).toList
  visible : (options.layout.content content).toList.head?.any isBlank = false
  read : options.token? (options.layout.content content).toList = some token

theorem newline_not_mem_keyword (access : Access) : '\n' ∉ access.keyword.toList := by
  cases access <;> decide

theorem visible_keyword (access : Access) (rest : List Char) :
    (access.keyword.toList ++ rest).head?.any isBlank = false := by
  cases access <;> rfl

theorem tells_recordHeader (interfaces : ∀ name ∈ options.writtenInterfaces, '\n' ∉ name.toList)
    {name : String} (h : Plain name.toList) :
    options.Tells (.recordHeader name) (.record name) := by
  have content : (options.layout.content (.recordHeader name)).toList =
      options.access.keyword.toList ++
        (" struct ".toList ++ (name.toList ++ headerEnd options.writtenInterfaces)) :=
    toList_header ..
  constructor <;> rw [content]
  · simp only [List.mem_append, not_or]
    exact ⟨newline_not_mem_keyword _, by decide, h.not_mem rfl, newline_not_mem_headerEnd interfaces⟩
  · exact visible_keyword ..
  · rw [Options.token?, behind?_keyword, dropPrefix?_append, Option.map_some,
      readName_append h (endsName_headerEnd _), String.ofList_toList]
    rfl

theorem tells_enumerationHeader
    (interfaces : ∀ name ∈ options.writtenInterfaces, '\n' ∉ name.toList) {name : String}
    (h : Plain name.toList) : options.Tells (.enumerationHeader name) (.enumeration name) := by
  let conformances := rawType :: options.writtenInterfaces.filter (· != rawType)
  have content : (options.layout.content (.enumerationHeader name)).toList =
      options.access.keyword.toList ++
        (" enum ".toList ++ (name.toList ++ headerEnd conformances)) :=
    toList_header ..
  have oneLine : ∀ name ∈ conformances, '\n' ∉ name.toList :=
    List.forall_mem_cons.mpr ⟨by decide, fun name member =>
      interfaces name (List.mem_filter.mp member).1⟩
  constructor <;> rw [content]
  · simp only [List.mem_append, not_or]
    exact ⟨newline_not_mem_keyword _, by decide, h.not_mem rfl, newline_not_mem_headerEnd oneLine⟩
  · exact visible_keyword ..
  · have other : (" enum ".toList ++ (name.toList ++ headerEnd conformances)).dropPrefix?
        " struct ".toList = none := rfl
    rw [Options.token?, behind?_keyword, other, behind?_keyword, dropPrefix?_append,
      Option.map_some, readName_append h (endsName_headerEnd _), String.ofList_toList]
    rfl

theorem tells_property (readable : options.escaper = .swift ∨ options.escaper = .none)
    {name type : String} (hn : Plain name.toList) (ht : '\n' ∉ type.toList) :
    options.Tells (.property (options.escaper.escape name ++ ": " ++ type)) (.property name type) := by
  have content : (options.layout.content
      (.property (options.escaper.escape name ++ ": " ++ type))).toList =
      options.access.keyword.toList ++ (options.binding.toList ++
        ((options.escaper.escape name).toList ++ (": ".toList ++ type.toList))) := by
    simp only [Layout.content, String.toList_append, List.append_assoc]
    rfl
  have binding : options.binding = " var " ∨ options.binding = " let " := by
    rw [Options.binding]
    split
    · exact .inl rfl
    · exact .inr rfl
  have name_end : EndsName (": ".toList ++ type.toList) := by
    rintro c cs ⟨⟩
    exact ⟨rfl, by decide⟩
  constructor <;> rw [content]
  · simp only [List.mem_append, not_or]
    refine ⟨newline_not_mem_keyword _, ?_, ?_, by decide, ht⟩
    · rcases binding with same | same <;> rw [same] <;> decide
    · exact newline_not_mem_escape readable hn
  · exact visible_keyword ..
  · have noStruct : (options.binding.toList ++ ((options.escaper.escape name).toList ++
        (": ".toList ++ type.toList))).dropPrefix? " struct ".toList = none := by
      rcases binding with same | same <;> rw [same] <;> rfl
    have noEnum : (options.binding.toList ++ ((options.escaper.escape name).toList ++
        (": ".toList ++ type.toList))).dropPrefix? " enum ".toList = none := by
      rcases binding with same | same <;> rw [same] <;> rfl
    have read : readProperty ((options.escaper.escape name).toList ++ (": ".toList ++ type.toList)) =
        some (.property name type) := by
      rw [readProperty, readName_escape readable hn name_end]
      simp only [dropPrefix?_append, Option.map_some, String.ofList_toList]
    rw [Options.token?, behind?_keyword, noStruct, behind?_keyword, noEnum, behind?_keyword,
      dropPrefix?_append, Option.bind_some, read]
    rfl

/-- A text that begins otherwise than with the access is read apart from the options. -/
theorem token?_of_dropPrefix?_eq_none {content : List Char}
    (h : content.dropPrefix? options.access.keyword.toList = none) :
    options.token? content = readFixed content := by
  simp only [Options.token?, Options.behind?, h]
  rfl

theorem tells_keyTable : options.Tells (.fixed keyTableHeader) .keyTable := by
  constructor <;> rw [Layout.content]
  · decide
  · rfl
  · rw [token?_of_dropPrefix?_eq_none (by cases options.access <;> rfl)]
    exact if_pos rfl

theorem tells_close : options.Tells (.fixed "\x7d") .close := by
  constructor <;> rw [Layout.content]
  · decide
  · rfl
  · rw [token?_of_dropPrefix?_eq_none (by cases options.access <;> rfl)]
    rfl

def caseEnd (row : Case) : List Char :=
  if row.name = row.raw then []
  else " = \"".toList ++ (row.raw.toList.flatMap literalCharacter ++ ['"'])

theorem toList_written (row : Case) (escaper : Escaper) :
    (row.written escaper).toList =
      "case ".toList ++ ((escaper.escape row.name).toList ++ caseEnd row) := by
  rw [Case.written, caseEnd, String.toList_append, String.toList_append, List.append_assoc]
  split
  · rfl
  · simp only [literal, String.toList_append, String.toList_ofList, List.append_assoc]
    rfl

theorem endsName_caseEnd (row : Case) : EndsName (caseEnd row) := by
  rw [caseEnd]
  split
  · rintro c cs ⟨⟩
  · rintro c cs ⟨⟩
    exact ⟨rfl, by decide⟩

theorem readCase_written (readable : options.escaper = .swift ∨ options.escaper = .none) {row : Case}
    (h : Plain row.name.toList) :
    readCase ((options.escaper.escape row.name).toList ++ caseEnd row) = some row := by
  rw [readCase, readName_escape readable h (endsName_caseEnd row)]
  simp only [caseEnd]
  split
  next same =>
    exact congrArg some (congrArg (Case.mk row.name) same)
  next =>
    rw [if_neg (by exact Bool.false_ne_true), dropPrefix?_append, Option.bind_some,
      readLiteral_flatMap, Option.map_some, String.ofList_toList]

theorem newline_not_mem_caseEnd (row : Case) : '\n' ∉ caseEnd row := by
  rw [caseEnd]
  split
  · exact List.not_mem_nil
  · simp only [List.mem_append, not_or]
    exact ⟨by decide, newline_not_mem_flatMap _, by decide⟩

theorem tells_row (readable : options.escaper = .swift ∨ options.escaper = .none) {row : Case}
    (h : Plain row.name.toList) : options.Tells (.fixed (row.written options.escaper)) (.row row) := by
  constructor <;> rw [Layout.content, toList_written]
  · simp only [List.mem_append, not_or]
    exact ⟨by decide, newline_not_mem_escape readable h, newline_not_mem_caseEnd row⟩
  · rfl
  · have noTable : ∀ rest : List Char, "case ".toList ++ rest ≠ keyTableHeader.toList :=
      fun rest same => absurd (congrArg List.head? same) (show some 'c' ≠ some 'p' by decide)
    have noClose : ∀ rest : List Char, "case ".toList ++ rest ≠ ['\x7d'] :=
      fun rest same => absurd (congrArg List.head? same) (show some 'c' ≠ some '\x7d' by decide)
    rw [token?_of_dropPrefix?_eq_none (by cases options.access <;> rfl), readFixed,
      if_neg (noTable _), if_neg (noClose _), dropPrefix?_append, Option.bind_some,
      readCase_written readable h]
    rfl

end Lines

end SwiftModel.Emission
