/- The options of the command line. -/
import SwiftModel.Emission.IndentText

namespace SwiftModel.CommandLine

inductive Command
  | json
  | schema
deriving DecidableEq

def Command.name : Command → String
  | .json => "json"
  | .schema => "schema"

def Command.ofName? (name : String) : Option Command :=
  [.json, .schema].find? fun (c : Command) => c.name == name

inductive OptionName
  | verbose
  | help
  | version
  | jsonPointer
  | input
  | config
  | outDir
  | extension
  | stdout
  | rootName
  | sorted
  | mutable
  | indent
  | access
  | alwaysKeyMapping
  | conform
  | noConformance
  | variableNames
  | objectNames
  | dropPlural
  | noEscape
  | noDetectUuid
  | noPreferUnsigned
deriving DecidableEq

inductive ValueShape
  | text
  /-- A path, which is not empty. -/
  | path
  | indentation
  | oneOf (names : List String)
deriving DecidableEq

/-- What an option takes, and how often it may be given. -/
inductive Arity
  /-- Nothing, once. -/
  | switch
  /-- Nothing, any number of times. -/
  | counter
  /-- Nothing; it ends the reading. -/
  | halt
  /-- One value, once. -/
  | one (shape : ValueShape)
  /-- One value or more, any number of times; commas may separate values. -/
  | many (atCommas : Bool)
deriving DecidableEq

def OptionName.long : OptionName → String
  | .verbose => "verbose"
  | .help => "help"
  | .version => "version"
  | .jsonPointer => "json-pointer"
  | .input => "input"
  | .config => "config"
  | .outDir => "out-dir"
  | .extension => "extension"
  | .stdout => "stdout"
  | .rootName => "root-name"
  | .sorted => "sorted"
  | .mutable => "mutable"
  | .indent => "indent"
  | .access => "access"
  | .alwaysKeyMapping => "always-key-mapping"
  | .conform => "conform"
  | .noConformance => "no-conformance"
  | .variableNames => "variable-names"
  | .objectNames => "object-names"
  | .dropPlural => "drop-plural"
  | .noEscape => "no-escape"
  | .noDetectUuid => "no-detect-uuid"
  | .noPreferUnsigned => "no-prefer-unsigned"

def OptionName.short? : OptionName → Option Char
  | .verbose => some 'v'
  | .help => some 'h'
  | .version => some 'V'
  | .input => some 'i'
  | .outDir => some 'o'
  | _ => none

def OptionName.arity : OptionName → Arity
  | .verbose => .counter
  | .help | .version => .halt
  | .input => .many false
  | .conform => .many true
  | .jsonPointer | .extension | .rootName => .one .text
  | .config | .outDir => .one .path
  | .indent => .one .indentation
  | .access => .one (.oneOf ["public", "internal", "fileprivate"])
  | .variableNames => .one (.oneOf ["original", "camel-from-snake"])
  | .objectNames => .one (.oneOf ["uppercase", "camel-from-snake"])
  | .stdout | .sorted | .mutable | .alwaysKeyMapping | .noConformance | .dropPlural | .noEscape
  | .noDetectUuid | .noPreferUnsigned => .switch

def topOptions : List OptionName := [.verbose, .help, .version]

def commonOptions : List OptionName :=
  [.verbose, .help, .jsonPointer, .input, .config, .outDir, .extension, .stdout, .rootName, .sorted,
   .mutable, .indent, .access, .alwaysKeyMapping, .conform, .noConformance, .variableNames,
   .objectNames, .dropPlural, .noEscape]

def Command.options : Command → List OptionName
  | .json => .noDetectUuid :: commonOptions
  | .schema => .noPreferUnsigned :: commonOptions

end SwiftModel.CommandLine
