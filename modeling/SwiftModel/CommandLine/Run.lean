/- What the program does with its arguments, from the configuration to the report. -/
import SwiftModel.Batch
import SwiftModel.CommandLine.Arguments
import SwiftModel.Files.Expansion

namespace SwiftModel.CommandLine
open SwiftModel.Files SwiftModel.Batch SwiftModel.Emission SwiftModel.Identifier

def value? (option : OptionName) (given : List Given) : Option String :=
  (valuesOf option given).head?

def accessOf? (name : String) : Option Access :=
  [.everywhere, .withinModule, .withinFile].find? fun (a : Access) => a.keyword == name

def propertyNamingOf : String → PropertyNaming
  | "original" => .verbatim
  | _ => .camelFromSnake

def typeNamingOf : String → TypeNaming
  | "uppercase" => .uppercase
  | _ => .camelFromSnake

def interfaces? (given : List Given) : Option (List String) :=
  if isGiven .noConformance given then some []
  else if isGiven .conform given then some (valuesOf .conform given)
  else none

/-- The choices about emission with those that options make in place of the old ones. -/
def overrideEmission (given : List Given) (old : Options) : Options where
  rootName := (value? .rootName given).getD old.rootName
  sortedFields := isGiven .sorted given || old.sortedFields
  mutable := isGiven .mutable given || old.mutable
  indent := ((value? .indent given).bind Indent.ofText?).getD old.indent
  access := ((value? .access given).bind accessOf?).getD old.access
  alwaysKeyTable := isGiven .alwaysKeyMapping given || old.alwaysKeyTable
  interfaces := (interfaces? given).getD old.interfaces
  propertyNaming := ((value? .variableNames given).map propertyNamingOf).getD old.propertyNaming
  typeNaming := ((value? .objectNames given).map typeNamingOf).getD old.typeNaming
  singularElements := isGiven .dropPlural given || old.singularElements
  escaper := if isGiven .noEscape given then .none else old.escaper

def override (given : List Given) (old : Config.Settings) : Config.Settings where
  emission := overrideEmission given old.emission
  detectUuid := !isGiven .noDetectUuid given && old.detectUuid
  preferUnsigned := !isGiven .noPreferUnsigned given && old.preferUnsigned

inductive Abort
  | unreadableConfig (path : Files.Path) (problem : Problem)
  | badConfig (path : Files.Path) (failure : Config.Failure)
  | refused (refusal : Refusal)
  | badPattern (pattern : String) (fault : PatternFault)
  | unreadableDirectory (unreadable : Unreadable)
  | nothingMatched (pattern : String)
deriving DecidableEq

def Abort.message : Abort → String
  | .unreadableConfig path problem =>
    "failed to read config file " ++ path.text ++ ": " ++ problem.message
  | .badConfig path failure =>
    "failed to load config file " ++ path.text ++ ": " ++ failure.message
  | .refused refusal => refusal.message
  | .badPattern pattern fault =>
    "failed to resolve input file paths: invalid glob pattern: " ++ pattern ++ ": " ++ fault.message
  | .unreadableDirectory unreadable =>
    "failed to resolve input file paths: " ++ unreadable.message
  | .nothingMatched pattern =>
    "failed to resolve input file paths: glob pattern matched no files: " ++ pattern

structure Report where
  output : String
  status : String
  succeeded : Bool
deriving DecidableEq

def outputText (several : Bool) (input : Files.Path) (emitted : Emitted) : String :=
  (if several then "// " ++ input.text ++ "\n" else "") ++ emitted.text

/-- The line about an input; the text of one that succeeded says enough where texts are printed. -/
def statusLine (toOutput : Bool) (outcome : Outcome) : String :=
  match outcome.result with
  | .error failure => "failed " ++ outcome.input.text ++ ": " ++ failure.message ++ "\n"
  | .ok emitted =>
    if toOutput then ""
    else
      "wrote " ++ outcome.input.text ++ " → " ++ (emitted.output.getD outcome.input).text ++ "\n"

/-- What an input adds to the output. -/
def outcomeText (toOutput several : Bool) (outcome : Outcome) : String :=
  match outcome.result with
  | .error _ => ""
  | .ok emitted => if toOutput then outputText several outcome.input emitted else ""

/-- The report on outcomes, whose texts are printed or were written. -/
def Report.ofOutcomes (toOutput : Bool) (outcomes : List Outcome) : Report :=
  let failures := failureCount outcomes
  let summary :=
    if failures = 0 then ""
    else toString failures ++ " of " ++ toString outcomes.length ++ " inputs failed\n"
  { output := String.join (outcomes.map (outcomeText toOutput (1 < outcomes.length)))
    status := String.join (outcomes.map (statusLine toOutput)) ++ summary
    succeeded := failures = 0 }

def plan (arguments : Arguments) (settings : Config.Settings) : Plan where
  kind := match arguments.command with
    | .json => .sample
    | .schema => .schema
  settings := settings
  pointer := value? .jsonPointer arguments.options
  directory := (value? .outDir arguments.options).map Files.Path.mk
  extension := (value? .extension arguments.options).getD defaultExtension
  writeFiles := !isGiven .stdout arguments.options

variable {m : Type → Type} [Monad m] [FileAccess m]

/-- The settings of the configuration file, if one is given, and else the default ones. -/
def loadSettings (given : List Given) : m (Except Abort Config.Settings) := do
  match value? .config given with
  | none => return .ok .default
  | some path =>
    match ← FileAccess.readText ⟨path⟩ with
    | .error problem => return .error (.unreadableConfig ⟨path⟩ problem)
    | .ok text => return (Config.load text).mapError (.badConfig ⟨path⟩)

/-- The settings of a run: those of the configuration file, overridden by options. -/
def configure (given : List Given) : m (Except Abort Config.Settings) := do
  match ← loadSettings given with
  | .error abort => return .error abort
  | .ok loaded =>
    let settings := override given loaded
    match settings.emission.refusal? with
    | some refusal => return .error (.refused refusal)
    | none => return .ok settings

/-- The paths that one input stands for: itself, or all that match it if it has wildcards. -/
def resolve (input : String) : m (Except Abort (List Files.Path)) := do
  if !hasWildcards input then return .ok [⟨input⟩]
  match PathPattern.ofText? input with
  | .error fault => return .error (.badPattern input fault)
  | .ok pattern =>
    match ← (expand pattern).run with
    | .error unreadable => return .error (.unreadableDirectory unreadable)
    | .ok [] => return .error (.nothingMatched input)
    | .ok paths => return .ok paths

def resolveAll : List String → m (Except Abort (List Files.Path))
  | [] => return .ok []
  | input :: inputs => do
    match ← resolve input with
    | .error abort => return .error abort
    | .ok paths => return (← resolveAll inputs).map (paths ++ ·)

def execute (arguments : Arguments) : m (Except Abort Report) := do
  match ← configure arguments.options with
  | .error abort => return .error abort
  | .ok settings =>
    match ← resolveAll (valuesOf .input arguments.options) with
    | .error abort => return .error abort
    | .ok inputs =>
      let outcomes ← run (plan arguments settings) inputs
      return .ok (.ofOutcomes (isGiven .stdout arguments.options) outcomes)

end SwiftModel.CommandLine
