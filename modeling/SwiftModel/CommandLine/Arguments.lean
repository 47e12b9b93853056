/- Reading the arguments of the command line. -/
import SwiftModel.CommandLine.Option
import SwiftModel.Text.Pieces

namespace SwiftModel.CommandLine

inductive Usage
  | help
  | version
  | nothingGiven
  | noCommand
  | unknownCommand (name : String)
  | unknownArgument (text : String)
  | missingValue (option : OptionName)
  | invalidValue (option : OptionName) (value : String)
  | rejectedValue (option : OptionName) (value : String)
  | unneededValue (option : OptionName)
  | givenTwice (option : OptionName)
  | conflict (first second : OptionName)
  | missingOption (option : OptionName)
deriving DecidableEq

structure Given where
  option : OptionName
  values : List String
deriving DecidableEq

/-- The options that are read, and the last one while it may still take values. -/
structure Reading where
  given : List Given
  pending : Option Given

def Reading.none : Reading := ⟨[], .none⟩

def isGiven (option : OptionName) (given : List Given) : Bool := given.any (·.option = option)

def valuesOf (option : OptionName) (given : List Given) : List String :=
  (given.filter (·.option = option)).flatMap Given.values

def shapeProblem? (option : OptionName) (shape : ValueShape) (value : String) : Option Usage :=
  match shape with
  | .text => .none
  | .path => if value.isEmpty then some (.missingValue option) else .none
  | .indentation =>
    match Emission.Indent.ofText? value with
    | some _ => .none
    | .none => some (.rejectedValue option value)
  | .oneOf names => if names.contains value then .none else some (.invalidValue option value)

def accept (given : List Given) (option : OptionName) (values : List String) :
    Except Usage (List Given) :=
  match option.arity with
  | .halt => .error (if option = .version then .version else .help)
  | .counter => .ok (given ++ [⟨option, []⟩])
  | .switch =>
    if isGiven option given then .error (.givenTwice option) else .ok (given ++ [⟨option, []⟩])
  | .one shape =>
    if values.isEmpty then .error (.missingValue option)
    else if isGiven option given then .error (.givenTwice option)
    else
      match values.findSome? (shapeProblem? option shape) with
      | some usage => .error usage
      | .none => .ok (given ++ [⟨option, values⟩])
  | .many atCommas =>
    if values.isEmpty then .error (.missingValue option)
    else .ok (given ++ [⟨option, if atCommas then values.flatMap (Text.split ',') else values⟩])

def settle (reading : Reading) : Except Usage (List Given) :=
  match reading.pending with
  | .none => .ok reading.given
  | some ⟨option, values⟩ => accept reading.given option values

/-- Accepts the pending option and then another, which has all its values. -/
def addComplete (reading : Reading) (option : OptionName) (values : List String) :
    Except Usage Reading := do
  return ⟨← accept (← settle reading) option values, .none⟩

/-- Accepts the pending option; another waits for its values. -/
def addPending (reading : Reading) (option : OptionName) : Except Usage Reading := do
  return ⟨← settle reading, some ⟨option, []⟩⟩

def takesValues (option : OptionName) : Bool :=
  match option.arity with
  | .one _ | .many _ => true
  | .switch | .counter | .halt => false

def readLong (options : List OptionName) (reading : Reading) (word : List Char) :
    Except Usage Reading :=
  let name := String.ofList (word.takeWhile (· != '='))
  let attached := word.dropWhile (· != '=')
  match options.find? (·.long == name) with
  | .none => .error (.unknownArgument name)
  | some option =>
    match takesValues option, attached with
    | true, [] => addPending reading option
    | true, _ :: value => addComplete reading option [.ofList value]
    | false, [] => addComplete reading option []
    | false, _ :: _ => .error (.unneededValue option)

/-- Reads letters behind one hyphen. Those behind an option that takes values are its value. -/
def readShort (options : List OptionName) (reading : Reading) : List Char → Except Usage Reading
  | [] => .ok reading
  | c :: cs =>
    match options.find? (·.short? == some c) with
    | .none => .error (.unknownArgument (.ofList ['-', c]))
    | some option =>
      if takesValues option then
        match cs with
        | [] => addPending reading option
        | '=' :: value => addComplete reading option [.ofList value]
        | value => addComplete reading option [.ofList value]
      else do readShort options (← addComplete reading option []) cs

def wantsValue (reading : Reading) : Bool :=
  match reading.pending with
  | .none => false
  | some ⟨option, values⟩ =>
    match option.arity with
    | .many _ => true
    | .one _ => values.isEmpty
    | .switch | .counter | .halt => false

def takeValue (reading : Reading) (value : String) : Reading :=
  { reading with
    pending := reading.pending.map fun g => { g with values := g.values ++ [value] } }

def readOptions (options : List OptionName) (reading : Reading) :
    List String → Except Usage (List Given)
  | [] => settle reading
  | argument :: rest =>
    match argument.toList with
    | ['-', '-'] =>
      match rest with
      | [] => settle reading
      | stray :: _ => .error (.unknownArgument stray)
    | '-' :: '-' :: word => do readOptions options (← readLong options reading word) rest
    | '-' :: c :: cs => do readOptions options (← readShort options reading (c :: cs)) rest
    | _ =>
      if wantsValue reading then readOptions options (takeValue reading argument) rest
      else .error (.unknownArgument argument)

/-- A command with what is given in front of it and behind it. -/
structure Arguments where
  command : Command
  before : List Given
  options : List Given
deriving DecidableEq

/-- Options that cannot be given together, and one that must be given. -/
def checkTogether (given : List Given) : Except Usage Unit :=
  if isGiven .noConformance given && isGiven .conform given then
    .error (.conflict .noConformance .conform)
  else if !isGiven .input given then .error (.missingOption .input)
  else .ok ()

def helpCommand : String := "help"

/-- What the command for help makes of the words behind it. -/
def helpOn : List String → Usage
  | [] => .help
  | word :: rest =>
    if word = helpCommand ∨ (Command.ofName? word).isSome then
      match rest with
      | [] => .help
      | stray :: _ => .unknownCommand stray
    else .unknownCommand word

/-- What a word is that should be a command and is not, behind two hyphens on their own. -/
def strayWord (word : String) : Usage :=
  if word = helpCommand ∨ (Command.ofName? word).isSome then .unknownArgument word
  else .unknownCommand word

def readArguments (before : Reading) : List String → Except Usage Arguments
  | [] => do
    let given ← settle before
    throw (if given.isEmpty then .nothingGiven else .noCommand)
  | argument :: rest =>
    match Command.ofName? argument with
    | some command => do
      let options ← readOptions command.options .none rest
      checkTogether options
      return ⟨command, before.given, options⟩
    | .none =>
      if argument = helpCommand then .error (helpOn rest)
      else
        match argument.toList with
        | ['-', '-'] =>
          match rest with
          | [] => .error (if before.given.isEmpty then .nothingGiven else .noCommand)
          | stray :: _ => .error (strayWord stray)
        | '-' :: '-' :: word => do readArguments (← readLong topOptions before word) rest
        | '-' :: c :: cs => do readArguments (← readShort topOptions before (c :: cs)) rest
        | _ => .error (.unknownCommand argument)

/-- How often more output of the log is asked for. Behind a command it counts instead of in front
of it. -/
def Arguments.verbosity (arguments : Arguments) : Nat :=
  let count (given : List Given) : Nat := given.countP (·.option = .verbose)
  let behind := count arguments.options
  min 255 (if behind = 0 then count arguments.before else behind)

def Arguments.ofList (arguments : List String) : Except Usage Arguments :=
  readArguments .none arguments

end SwiftModel.CommandLine
