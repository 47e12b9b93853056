/- Reserved words, and how an identifier that is one is written. -/
import SwiftModel.Text.Ordered

namespace SwiftModel.Identifier

/-- A table of reserved words and the two marks that turn one into an identifier. -/
structure Escaper where
  /-- Ascending, each word once. -/
  reserved : List String
  opening : String
  closing : String
deriving DecidableEq

def swiftReserved : List String :=
  ["Any", "Protocol", "Self", "Type", "as", "associatedtype", "await", "break", "case", "catch",
   "class", "continue", "default", "defer", "deinit", "do", "else", "enum", "extension",
   "fallthrough", "false", "fileprivate", "for", "func", "guard", "if", "import", "in", "init",
   "inout", "internal", "is", "let", "nil", "open", "operator", "precedencegroup", "private",
   "protocol", "public", "repeat", "rethrows", "return", "self", "static", "struct", "subscript",
   "super", "switch", "throw", "throws", "true", "try", "typealias", "var", "where", "while"]

/-- Swift's reserved words, quoted by backticks. -/
def Escaper.swift : Escaper := ⟨swiftReserved, "\x60", "\x60"⟩

def Escaper.none : Escaper := ⟨[], "", ""⟩

def Escaper.withReserved (escaper : Escaper) (words : List String) : Escaper :=
  { escaper with reserved := Text.ordered (escaper.reserved ++ words) }

def Escaper.escape (escaper : Escaper) (identifier : String) : String :=
  if escaper.reserved.contains identifier then
    escaper.opening ++ identifier ++ escaper.closing
  else identifier

/-- The name of a type has no quoted form, so a reserved one gets an underscore in front. -/
def Escaper.avoidReserved (escaper : Escaper) (typeName : String) : String :=
  if escaper.reserved.contains typeName then "_" ++ typeName else typeName

end SwiftModel.Identifier
