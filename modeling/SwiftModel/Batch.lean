/- Many documents at once: each is read, modelled and written on its own, and one that fails stops
no other. -/
import SwiftModel.Config.Settings
import SwiftModel.Emission.Emitter
import SwiftModel.Files.Access
import SwiftModel.Files.Table
import SwiftModel.Inference.Schema
import SwiftModel.Json.Document

namespace SwiftModel.Batch
open SwiftModel.Files SwiftModel.Inference

inductive DocumentKind
  | sample
  | schema
deriving DecidableEq

structure Plan where
  kind : DocumentKind
  settings : Config.Settings
  /-- The pointer to the part of each document that is modelled. -/
  pointer : Option String
  /-- The directory for outputs; without one they go beside their inputs. -/
  directory : Option Files.Path
  extension : String
  writeFiles : Bool

inductive FileAction
  | read
  | create
  | write
deriving DecidableEq

def FileAction.name : FileAction → String
  | .read => "cannot read"
  | .create => "cannot create"
  | .write => "cannot write"

inductive Failure
  | malformed (malformed : Json.Malformed)
  | pointerNotFound (pointer : String)
  | sample (fault : SampleFault)
  | schema (fault : SchemaFault)
  | emission (failure : Emission.Failure)
  | collision (output : Files.Path) (inputs : List Files.Path)
  | file (action : FileAction) (path : Files.Path) (problem : Problem)
deriving DecidableEq

def Failure.message : Failure → String
  | .malformed m => m.message
  | .pointerNotFound pointer => "JSON pointer \x60" ++ pointer ++ "\x60 does not resolve"
  | .sample fault => fault.message
  | .schema fault => fault.message
  | .emission failure => failure.message
  | .collision output inputs =>
    "output \x60" ++ output.text ++ "\x60 would be written by every one of "
      ++ ", ".intercalate (inputs.map Files.Path.text)
  | .file action path problem =>
    action.name ++ " \x60" ++ path.text ++ "\x60: " ++ problem.message

def select (plan : Plan) (document : Json) : Except Failure Json :=
  match plan.pointer with
  | none => .ok document
  | some pointer =>
    match document.pointer? pointer with
    | some value => .ok value
    | none => .error (.pointerNotFound pointer)

def infer (plan : Plan) (document : Json) : Except Failure (Record Base) :=
  match plan.kind with
  | .sample => (sampleRecord plan.settings.detectUuid document).mapError .sample
  | .schema => (schemaRecord plan.settings.preferUnsigned document).mapError .schema

def generate (plan : Plan) (document : Json) : Except Failure String := do
  let record ← infer plan (← select plan document)
  (Emission.emit (.record record) plan.settings.emission).mapError .emission

def generateText (plan : Plan) (source : String) : Except Failure String := do
  generate plan (← (Json.ofText source).mapError .malformed)

/-- The name of an output whose input has none. -/
def namelessStem : String := "output"

def defaultExtension : String := "swift"

/-- The path of the output of an input: its stem with the extension, in the directory for outputs.
-/
def outputPath (directory : Option Files.Path) (extension : String) (input : Files.Path) : Files.Path :=
  let directory := directory.getD (input.parent?.getD ⟨""⟩)
  let stem := input.fileStem?.getD namelessStem
  directory.join ⟨if extension.isEmpty then stem else stem ++ "." ++ extension⟩

def Plan.output (plan : Plan) (input : Files.Path) : Files.Path :=
  outputPath plan.directory plan.extension input

structure Emitted where
  output : Option Files.Path
  text : String
deriving DecidableEq

structure Outcome where
  input : Files.Path
  result : Except Failure Emitted

def Outcome.failed (outcome : Outcome) : Bool :=
  match outcome.result with
  | .ok _ => false
  | .error _ => true

/-- The inputs that have their output in common with others, each with the failure that it comes to. -/
def collided (plan : Plan) (inputs : List Files.Path) : List (Files.Path × Failure) :=
  let shared := (Table.grouped plan.output inputs).filter fun group => 1 < group.2.length
  shared.flatMap fun group => group.2.map fun input => (input, .collision group.1 group.2)

/-- Why inputs are not processed. Nothing collides if nothing is written. -/
def collisions (plan : Plan) (inputs : List Files.Path) : Table Failure :=
  if plan.writeFiles then .ofEntries (collided plan inputs) else []

variable {m : Type → Type} [Monad m] [FileAccess m]

/-- Writes a text, into a directory that is made for it. -/
def writeOutput (output : Files.Path) (text : String) : m (Except Failure Unit) := do
  match output.parent? with
  | some parent =>
    if let .error problem ← makeDirectories parent then
      return .error (.file .create parent problem)
  | none => pure ()
  return (← FileAccess.writeText output text).mapError (.file .write output)

def process (plan : Plan) (input : Files.Path) : m (Except Failure Emitted) := do
  match ← FileAccess.readText input with
  | .error problem => return .error (.file .read input problem)
  | .ok source =>
    match generateText plan source with
    | .error failure => return .error failure
    | .ok text =>
      if !plan.writeFiles then return .ok ⟨none, text⟩
      let output := plan.output input
      return (← writeOutput output text).map fun _ => ⟨some output, text⟩

def runOne (plan : Plan) (collisions : Table Failure) (input : Files.Path) : m Outcome := do
  match collisions.value? input with
  | some failure => return ⟨input, .error failure⟩
  | none => return ⟨input, ← process plan input⟩

def run (plan : Plan) (inputs : List Files.Path) : m (List Outcome) :=
  inputs.mapM (runOne plan (collisions plan inputs))

def failureCount (outcomes : List Outcome) : Nat := outcomes.countP Outcome.failed

end SwiftModel.Batch
