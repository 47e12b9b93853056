/- A batch as programs side by side, one for each input. Their steps may come in any order; one after
the other is one of the orders. -/
import SwiftModel.Batch
import SwiftModel.Proofs.Files.Effects

namespace SwiftModel.Batch
open SwiftModel.Files

/-- Why an input is not processed, if it is not. -/
def collision? (plan : Plan) (inputs : List Files.Path) (input : Files.Path) : Option Failure :=
  (collisions plan inputs).value? input

/-- The inputs, processed side by side, come to these outcomes and leave these files. -/
def Execution (plan : Plan) (inputs : List Files.Path) (files : FileSystem) (outcomes : List Outcome)
    (last : FileSystem) : Prop :=
  Pool.Ends ⟨files, inputs.map fun input => (runOne plan (collisions plan inputs) input : Program Outcome)⟩
    outcomes last

variable {plan : Plan} {inputs : List Files.Path} {files last : FileSystem} {outcomes : List Outcome}

/-- What holds of all pairs of two lists holds at each position. -/
theorem of_forall₂ {α β : Type} {holds : α → β → Prop} {l : List α} {l' : List β}
    (each : List.Forall₂ holds l l') {index : Nat} {a : α} {b : β} (here : l[index]? = some a)
    (there : l'[index]? = some b) : holds a b := by
  induction each generalizing index with
  | nil => cases here
  | cons head _ ih =>
      cases index with
      | zero =>
          cases here
          cases there
          exact head
      | succ index => exact ih here there

theorem forall_of_forall₂ {α β : Type} {holds : β → Prop} {l : List α} {l' : List β}
    (each : List.Forall₂ (fun _ b => holds b) l l') : ∀ b ∈ l', holds b := by
  induction each with
  | nil => exact fun _ member => nomatch member
  | cons head _ ih => exact List.forall_mem_cons.mpr ⟨head, ih⟩

theorem run_writeOutput (output : Files.Path) (text : String) :
    (writeOutput output text : Program _).run = writeOutput output text := by
  simp only [writeOutput]
  split
  next parent _ =>
    rw [Program.bind_eq, Program.run_bind, Program.run_makeDirectories]
    congr 1
    funext made
    cases made <;> rfl
  next => rfl

theorem run_process (plan : Plan) (input : Files.Path) :
    (process plan input : Program _).run = process plan input := by
  simp only [process, Program.bind_eq]
  rw [Program.run_bind]
  congr 1
  funext source
  split
  next => rfl
  next =>
    split
    next => rfl
    next text _ =>
      split
      · rfl
      · rw [Program.run_bind, run_writeOutput]
        rfl

theorem run_runOne (plan : Plan) (rejected : Table Failure) (input : Files.Path) :
    (runOne plan rejected input : Program _).run = runOne plan rejected input := by
  rw [runOne, runOne]
  split
  next => rfl
  next =>
    rw [Program.bind_eq, Program.run_bind, run_process]
    rfl

/-- One input after the other, and the files after the last. -/
def inTurn (plan : Plan) (inputs : List Files.Path) (files : FileSystem) : List Outcome × FileSystem :=
  (run plan inputs : StateM FileSystem (List Outcome)).run files

theorem run_run (plan : Plan) (inputs : List Files.Path) (files : FileSystem) :
    (run plan inputs : Program _).run.run files = inTurn plan inputs files := by
  simp only [run, Program.run_mapM, run_runOne]
  rfl

/-- To process one input after the other is one of the orders. -/
theorem execution_inTurn (plan : Plan) (inputs : List Files.Path) (files : FileSystem) :
    Execution plan inputs files (inTurn plan inputs files).1 (inTurn plan inputs files).2 := by
  have ends := Pool.ends_mapM
    (fun input => (runOne plan (collisions plan inputs) input : Program Outcome)) inputs files
  simp only [run_runOne] at ends
  exact ends

/-! An input makes directories on the way of its output and writes the output, and no more. -/

/-- Writes a text into a directory that is there. -/
def writeInto (output : Files.Path) (text : String) : Program (Except Failure Unit) :=
  (FileAccess.writeText output text : Program _).bind fun written =>
    .done (written.mapError (.file .write output))

theorem writeOutput_of_none {output : Files.Path} (root : output.parent? = none) (text : String) :
    writeOutput output text = writeInto output text := by
  simp only [writeOutput, root]
  rfl

theorem writeOutput_of_some {output parent : Files.Path} (above : output.parent? = some parent)
    (text : String) : writeOutput output text = (makeDirectories parent : Program _).bind fun made =>
      match made with
      | .error problem => .done (.error (.file .create parent problem))
      | .ok () => writeInto output text := by
  simp only [writeOutput, above, Program.bind_eq]
  congr 1
  funext made
  cases made <;> rfl

theorem guarantees_writeInto (output : Files.Path) (text : String) :
    (writeInto output text).Guarantees (WritesAt output) :=
  ⟨writesAt_writeText output text, fun _ => trivial⟩

theorem guarantees_writeOutput (output : Files.Path) (text : String) :
    (writeOutput output text : Program _).Guarantees (WritesAt output) := by
  cases above : output.parent? with
  | none =>
      rw [writeOutput_of_none above]
      exact guarantees_writeInto output text
  | some parent =>
      rw [writeOutput_of_some above]
      refine ((Program.guarantees_makeWithParents _ parent).mono fun _ _ made => made.writesAt above).bind ?_
      rintro (problem | ⟨⟩)
      · trivial
      · exact guarantees_writeInto output text

/-- What is left to do for an input that is read. -/
def finish (plan : Plan) (input : Files.Path) :
    Except Problem String → Program (Except Failure Emitted)
  | .error problem => .done (.error (.file .read input problem))
  | .ok source =>
    match generateText plan source with
    | .error failure => .done (.error failure)
    | .ok text =>
      if plan.writeFiles then
        (writeOutput (plan.output input) text : Program _).bind fun written =>
          .done (written.map fun _ => ⟨some (plan.output input), text⟩)
      else .done (.ok ⟨none, text⟩)

theorem process_eq (plan : Plan) (input : Files.Path) :
    process plan input = Program.ask (.readText input) (finish plan input) := by
  rw [process]
  refine congrArg (Program.ask (.readText input)) ?_
  funext source
  cases source with
  | error problem => rfl
  | ok source =>
      simp only [Program.bind, finish]
      cases generateText plan source with
      | error failure => rfl
      | ok text => cases plan.writeFiles <;> rfl

theorem guarantees_process (plan : Plan) (input : Files.Path) :
    (process plan input : Program _).Guarantees (WritesAt (plan.output input)) := by
  rw [process_eq]
  refine ⟨fun files => .refl _ files, fun source => ?_⟩
  rw [finish.eq_def]
  split
  next => trivial
  next source =>
    split
    next => trivial
    next text _ =>
      split
      · exact (guarantees_writeOutput _ text).bind fun _ => trivial
      · trivial

section Input

variable {input : Files.Path} {m : Type → Type} [Monad m] [FileAccess m]

theorem runOne_eq_pure {failure : Failure} (collides : collision? plan inputs input = some failure) :
    (runOne plan (collisions plan inputs) input : m Outcome) = pure ⟨input, .error failure⟩ := by
  rw [collision?] at collides
  rw [runOne, collides]

theorem runOne_eq_process (none : collision? plan inputs input = none) :
    (runOne plan (collisions plan inputs) input : m Outcome) = do
      return ⟨input, ← process plan input⟩ := by
  rw [collision?] at none
  rw [runOne, none]

end Input

theorem guarantees_runOne (plan : Plan) (inputs : List Files.Path) (input : Files.Path) :
    (runOne plan (collisions plan inputs) input : Program _).Guarantees fun files later =>
      collision? plan inputs input = none ∧ WritesAt (plan.output input) files later := by
  rw [runOne]
  split
  next => trivial
  next none =>
    refine ((guarantees_process plan input).mono ?_).bind fun _ => trivial
    exact fun _ _ writes => ⟨none, writes⟩

/-- Samples, with the texts for them written beside them. -/
def beside : Plan := ⟨.sample, .default, none, none, "swift", true⟩

end SwiftModel.Batch
