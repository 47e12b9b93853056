/- What the program leaves behind: what it prints, and the code it exits with. -/
import SwiftModel.CommandLine.Run

namespace SwiftModel.CommandLine
open SwiftModel.Files

/-- What is printed, where results and where messages belong, and the exit code. -/
structure Ending where
  output : String
  messages : String
  code : UInt32
deriving DecidableEq

def programName : String := "swiftmodel"

def OptionName.written (option : OptionName) : String := "--" ++ option.long

def Arity.hint : Arity → String
  | .switch | .counter | .halt => ""
  | .one .text => " TEXT"
  | .one .path => " PATH"
  | .one .indentation => " tab|NUMBER"
  | .one (.oneOf names) => " " ++ "|".intercalate names
  | .many atCommas => if atCommas then " NAME,..." else " PATH..."

def OptionName.helpLine (option : OptionName) : String :=
  let short :=
    match option.short? with
    | some c => "-" ++ String.singleton c ++ ", "
    | none => "    "
  "  " ++ short ++ option.written ++ option.arity.hint ++ "\n"

def optionsHelp (title : String) (options : List OptionName) : String :=
  title ++ ":\n" ++ String.join (options.map OptionName.helpLine)

def helpText : String :=
  "usage: " ++ programName ++ " [-v] json|schema --input PATH... [OPTION...]\n\n"
    ++ optionsHelp "options in front of a command" topOptions
    ++ optionsHelp "options of json and schema" commonOptions
    ++ optionsHelp "options of json" [.noDetectUuid]
    ++ optionsHelp "options of schema" [.noPreferUnsigned]

def Usage.message : Usage → String
  | .help | .nothingGiven => helpText
  | .version => programName ++ " 0.1.0\n"
  | .noCommand => "error: a command is needed: json or schema\n"
  | .unknownCommand name => "error: no such command: " ++ name ++ "\n"
  | .unknownArgument text => "error: unexpected argument: " ++ text ++ "\n"
  | .missingValue option => "error: a value is needed for " ++ option.written ++ "\n"
  | .invalidValue option value =>
    "error: not a value for " ++ option.written ++ option.arity.hint ++ ": " ++ value ++ "\n"
  | .rejectedValue option value =>
    "error: not a value for " ++ option.written ++ ": " ++ Emission.indentComplaint value ++ "\n"
  | .unneededValue option => "error: no value can be given to " ++ option.written ++ "\n"
  | .givenTwice option => "error: given more than once: " ++ option.written ++ "\n"
  | .conflict first second =>
    "error: not to be given together: " ++ first.written ++ ", " ++ second.written ++ "\n"
  | .missingOption option => "error: needed and not given: " ++ option.written ++ "\n"

/-- A text that was asked for is a result; every other one is a complaint. -/
def Usage.ending (usage : Usage) : Ending :=
  if usage = .help ∨ usage = .version then ⟨usage.message, "", 0⟩ else ⟨"", usage.message, 2⟩

/-- An input that failed shows in the exit code. -/
def Report.ending (report : Report) : Ending :=
  ⟨report.output, report.status, if report.succeeded then 0 else 1⟩

def Abort.ending (abort : Abort) : Ending := ⟨"", "error: " ++ abort.message ++ "\n", 2⟩

variable {m : Type → Type} [Monad m] [FileAccess m]

def Arguments.ending (arguments : Arguments) : m Ending := do
  match ← execute arguments with
  | .error abort => return abort.ending
  | .ok report => return report.ending

def endingOf (arguments : List String) : m Ending :=
  match Arguments.ofList arguments with
  | .error usage => return usage.ending
  | .ok arguments => arguments.ending

end SwiftModel.CommandLine
