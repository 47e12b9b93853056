/- The emitted text of models. -/
import SwiftModel.Emission.Layout

namespace SwiftModel.Emission

def modelLines (options : Options) (model : Model) : Except Clash (List Line) :=
  (declare options model).map (declarationLines options.escaper 0)

def modelText (options : Options) (model : Model) : Except Clash String :=
  (modelLines options model).map options.layout.text

inductive Failure
  | refused (refusal : Refusal)
  | clash (clash : Clash)
deriving DecidableEq

def Failure.message : Failure → String
  | .refused r => r.message
  | .clash c => c.message

/-- Options that are accepted, and the text emitted under them so far. -/
structure Emitter where
  options : Options
  text : String

/-- An emitter without text, unless the options are refused. -/
def Emitter.ofOptions? (options : Options) : Except Refusal Emitter :=
  match options.refusal? with
  | some refusal => .error refusal
  | none => .ok ⟨options, ""⟩

def Emitter.emit (emitter : Emitter) (model : Model) : Except Clash Emitter :=
  (modelText emitter.options model).map fun text => { emitter with text := emitter.text ++ text }

/-- Emits models in turn, and tells of each whether it clashed; one that did leaves no text. -/
def Emitter.emitAll (emitter : Emitter) : List Model → Emitter × List (Option Clash)
  | [] => (emitter, [])
  | model :: models =>
    match emitter.emit model with
    | .ok next =>
      let (last, clashes) := next.emitAll models
      (last, none :: clashes)
    | .error clash =>
      let (last, clashes) := emitter.emitAll models
      (last, some clash :: clashes)

def emit (model : Model) (options : Options) : Except Failure String :=
  match Emitter.ofOptions? options with
  | .error refusal => .error (.refused refusal)
  | .ok emitter =>
    match emitter.emit model with
    | .error clash => .error (.clash clash)
    | .ok emitted => .ok emitted.text

end SwiftModel.Emission
