/- The program on the files of an operating system. -/
import SwiftModel.CommandLine.Ending

namespace SwiftModel
open SwiftModel.Files

/-- The code of an operating system for a directory where a file is wanted. -/
def directoryCode : UInt32 := 21

def systemProblem : IO.Error → Problem
  | .noFileOrDirectory .. => .notFound
  | .alreadyExists .. => .exists
  | .inappropriateType _ code _ => if code = directoryCode then .isDirectory else .notDirectory
  | .permissionDenied _ code text => .other (text ++ " (os error " ++ toString code ++ ")")
  | failure => .other (toString failure)

def attemptAction {α : Type} (action : IO α) : IO (Except Problem α) :=
  return (← action.toBaseIO).mapError systemProblem

def actualKind? (path : Files.Path) : IO (Option EntryKind) := do
  match ← (System.mkFilePath [path.text]).metadata.toBaseIO with
  | .error _ => return none
  | .ok found =>
    match found.type with
    | .dir => return some .directory
    | _ => return some .file

def actualNames (path : Files.Path) : IO (Except Problem (List String)) := do
  let found ← attemptAction (System.mkFilePath [path.text]).readDir
  return found.map fun entries => (entries.map fun entry => entry.fileName).toList

def actualText (path : Files.Path) : IO (Except Problem String) := do
  match ← attemptAction (IO.FS.readBinFile path.text) with
  | .error problem => return .error problem
  | .ok bytes =>
    match String.fromUTF8? bytes with
    | some text => return .ok text
    | none => return .error .notText

instance : FileAccess IO where
  readText := actualText
  writeText path text := attemptAction (IO.FS.writeFile path.text text)
  makeDirectory path := attemptAction (IO.FS.createDir path.text)
  kind? := actualKind?
  names := actualNames

end SwiftModel

/-- Runs the program and prints what it leaves behind. -/
def main (arguments : List String) : IO UInt32 := do
  let ending ← SwiftModel.CommandLine.endingOf arguments
  IO.print ending.output
  IO.eprint ending.messages
  return ending.code
