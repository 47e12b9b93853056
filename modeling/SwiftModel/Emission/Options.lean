/- What can be chosen about the emitted text, and which choices are refused. -/
import SwiftModel.Identifier.Naming
import SwiftModel.Identifier.ReservedWords
import SwiftModel.Model
import SwiftModel.Text.Ordered
import SwiftModel.Text.Pieces

namespace SwiftModel.Emission
open SwiftModel.Identifier

inductive Indent
  | spaces (width : Nat)
  | tab
deriving DecidableEq

inductive Access
  | everywhere
  | withinModule
  | withinFile
deriving DecidableEq

structure Options where
  rootName : String
  sortedFields : Bool
  mutable : Bool
  indent : Indent
  access : Access
  /-- The key table is written even where every property is named as its key. -/
  alwaysKeyTable : Bool
  interfaces : List String
  propertyNaming : PropertyNaming
  typeNaming : TypeNaming
  /-- The type of an array's elements is named in the singular. -/
  singularElements : Bool
  escaper : Escaper
deriving DecidableEq

def Options.default : Options where
  rootName := defaultRootName
  sortedFields := false
  mutable := false
  indent := .spaces 2
  access := .withinModule
  alwaysKeyTable := false
  interfaces := ["Codable"]
  propertyNaming := .camelFromSnake
  typeNaming := .camelFromSnake
  singularElements := false
  escaper := .swift

def Indent.unit : Indent → String
  | .spaces width => .ofList (List.replicate width ' ')
  | .tab => "\t"

def Access.keyword : Access → String
  | .everywhere => "public"
  | .withinModule => "internal"
  | .withinFile => "fileprivate"

/-- The interfaces as they are written: ascending, each once. -/
def Options.writtenInterfaces (options : Options) : List String :=
  Text.ordered options.interfaces

/-- A letter or underscore, then letters, numbers and underscores. -/
def isIdentifier : List Char → Bool
  | [] => false
  | c :: cs => (Unicode.isAlphabetic c || c == '_') && cs.all isNameCharacter

/-- Identifiers with a point between them. -/
def isTypeName (name : String) : Bool :=
  (Text.pieces '.' name.toList).all isIdentifier

inductive Refusal
  | rootNotIdentifier (name : String)
  | rootReserved (name : String)
  | interfaceNotTypeName (name : String)
  | noIndentation
deriving DecidableEq

def Refusal.option : Refusal → String
  | .rootNotIdentifier _ | .rootReserved _ => "root_name"
  | .interfaceNotTypeName _ => "conforming_interfaces"
  | .noIndentation => "indent_unit"

def Refusal.reason : Refusal → String
  | .rootNotIdentifier name => "\x60" ++ name ++ "\x60 is not an identifier"
  | .rootReserved name => "\x60" ++ name ++ "\x60 is a reserved word"
  | .interfaceNotTypeName name => "\x60" ++ name ++ "\x60 is not a type name"
  | .noIndentation => "indentation needs at least one space"

def Refusal.message (refusal : Refusal) : String :=
  "invalid emit option \x60" ++ refusal.option ++ "\x60: " ++ refusal.reason

/-- The first reason to refuse the options: the root's name, the interfaces, the indentation. -/
def Options.refusal? (options : Options) : Option Refusal :=
  if !isIdentifier options.rootName.toList then
    some (.rootNotIdentifier options.rootName)
  else if options.escaper.reserved.contains options.rootName then
    some (.rootReserved options.rootName)
  else
    match options.interfaces.find? (!isTypeName ·) with
    | some name => some (.interfaceNotTypeName name)
    | none => if options.indent = .spaces 0 then some .noIndentation else none

end SwiftModel.Emission
