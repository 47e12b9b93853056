/- The lines of a declaration, and the text they make under the options that choose layout alone. -/
import SwiftModel.Emission.Declaration

namespace SwiftModel.Emission
open SwiftModel.Identifier

/-- What a line says, apart from what the layout adds to it. -/
inductive LineContent
  | recordHeader (name : String)
  | enumerationHeader (name : String)
  /-- A property, from its name on. -/
  | property (payload : String)
  /-- Text that no layout changes. -/
  | fixed (text : String)
deriving DecidableEq

/-- A line, and how many blocks are open around it. -/
structure Line where
  level : Nat
  content : LineContent
deriving DecidableEq

def literalCharacter : Char → List Char
  | '\\' => ['\\', '\\']
  | '"' => ['\\', '"']
  | '\n' => ['\\', 'n']
  | '\r' => ['\\', 'r']
  | '\t' => ['\\', 't']
  | c => [c]

def literal (text : String) : String :=
  "\"" ++ .ofList (text.toList.flatMap literalCharacter) ++ "\""

/-- A case, with a literal where its name is not the text it stands for. -/
def Case.written (c : Case) (escaper : Escaper) : String :=
  "case " ++ escaper.escape c.name ++ (if c.name = c.raw then "" else " = " ++ literal c.raw)

def closingLine (level : Nat) : Line := ⟨level, .fixed "\x7d"⟩

def caseLines (escaper : Escaper) (level : Nat) (cases : List Case) : List Line :=
  cases.map fun c => ⟨level, .fixed (c.written escaper)⟩

def keyTableLines (escaper : Escaper) (level : Nat) : Option (List Case) → List Line
  | none => []
  | some cases =>
    ⟨level, .fixed ("private enum " ++ keyTableName ++ ": String, CodingKey \x7b")⟩
      :: caseLines escaper (level + 1) cases ++ [closingLine level]

mutual

def declarationLines (escaper : Escaper) (level : Nat) : Declaration → List Line
  | .record name properties keyTable =>
    ⟨level, .recordHeader name⟩ :: propertyLines escaper (level + 1) properties
      ++ keyTableLines escaper (level + 1) keyTable ++ [closingLine level]
  | .enumeration name cases =>
    ⟨level, .enumerationHeader name⟩ :: caseLines escaper (level + 1) cases ++ [closingLine level]
termination_by structural declaration => declaration

/-- The lines of properties, each with the declaration of its type behind it. -/
def propertyLines (escaper : Escaper) (level : Nat) : List (Property Declaration) → List Line
  | [] => []
  | ⟨name, type, nested⟩ :: properties =>
    ⟨level, .property (escaper.escape name ++ ": " ++ type)⟩ ::
      match nested with
      | some declaration =>
        declarationLines escaper level declaration ++ propertyLines escaper level properties
      | none => propertyLines escaper level properties
termination_by structural properties => properties

end

/-- The choices that change how lines look and nothing else. -/
structure Layout where
  indent : String
  access : String
  mutable : Bool
  interfaces : List String

def Options.layout (options : Options) : Layout where
  indent := options.indent.unit
  access := options.access.keyword
  mutable := options.mutable
  interfaces := options.writtenInterfaces

/-- The raw type of an enumeration; it leads the list of what the enumeration conforms to. -/
def rawType : String := "String"

def Layout.header (layout : Layout) (keyword name : String) (conformances : List String) : String :=
  layout.access ++ " " ++ keyword ++ " " ++ name
    ++ (if conformances.isEmpty then "" else ": " ++ ", ".intercalate conformances) ++ " \x7b"

def Layout.content (layout : Layout) : LineContent → String
  | .recordHeader name => layout.header "struct" name layout.interfaces
  | .enumerationHeader name =>
    layout.header "enum" name (rawType :: layout.interfaces.filter (· != rawType))
  | .property payload => layout.access ++ (if layout.mutable then " var " else " let ") ++ payload
  | .fixed text => text

def Layout.line (layout : Layout) (line : Line) : String :=
  String.join (List.replicate line.level layout.indent) ++ layout.content line.content ++ "\n"

def Layout.text (layout : Layout) (lines : List Line) : String :=
  String.join (lines.map layout.line)

end SwiftModel.Emission
