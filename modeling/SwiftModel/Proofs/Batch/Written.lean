/- What succeeds was written: when an input is done, its text is at its output. -/
import SwiftModel.Proofs.Batch.Survival
import SwiftModel.Proofs.Files.Moment

namespace SwiftModel.Batch
open SwiftModel.Files

/-- What a success says of the files at the moment of it: the text is at the output, if one is written. -/
def Emitted.Holds (plan : Plan) (input : Files.Path) (emitted : Emitted) (now : FileSystem) : Prop :=
  if plan.writeFiles then
    emitted.output = some (plan.output input) ∧ now.readText (plan.output input) = .ok emitted.text
  else emitted.output = none

theorem leaves_writeInto (output : Files.Path) (text : String) (files : FileSystem) :
    (writeInto output text).Leaves (fun written now => written = .ok () → now.readText output = .ok text)
      files := by
  intro now written
  have refl := (keepsPlace output).refl
  exact ensures_writeInto output text now now (refl now) _ (refl _) written

theorem leaves_writeOutput (output : Files.Path) (text : String) (files : FileSystem) :
    (writeOutput output text : Program _).Leaves
      (fun written now => written = .ok () → now.readText output = .ok text) files := by
  cases above : output.parent? with
  | none =>
      rw [writeOutput_of_none above]
      exact leaves_writeInto output text files
  | some parent =>
      rw [writeOutput_of_some above]
      refine Program.leaves_bind ?_ _ files
      rintro (problem | ⟨⟩) later
      · rintro ⟨⟩
      · exact leaves_writeInto output text later

theorem leaves_process (plan : Plan) (input : Files.Path) (files : FileSystem) :
    (process plan input : Program _).Leaves
      (fun result now => ∀ emitted, result = .ok emitted → emitted.Holds plan input now) files := by
  rw [process_eq]
  intro now
  rw [finish.eq_def]
  split
  next => rintro _ ⟨⟩
  next source _ =>
    split
    next => rintro _ ⟨⟩
    next text _ =>
      split
      next on =>
        -- how the output is written has been looked into, and is not again
        have written := leaves_writeOutput (plan.output input) text now
        generalize (writeOutput (plan.output input) text : Program _) = program at written ⊢
        refine written.map ?_
        intro written later reads emitted ok
        obtain ⟨_, rfl, rfl⟩ := map_eq_ok ok
        rw [Emitted.Holds, if_pos on]
        exact ⟨rfl, reads rfl⟩
      next off =>
        rintro _ ⟨⟩
        rw [Emitted.Holds, if_neg off]

theorem leaves_runOne (plan : Plan) (inputs : List Files.Path) (input : Files.Path) (files : FileSystem) :
    (runOne plan (collisions plan inputs) input : Program _).Leaves
      (fun outcome now => ∀ emitted, outcome.result = .ok emitted → emitted.Holds plan input now) files := by
  rw [runOne]
  split
  next => rintro _ ⟨⟩
  next => exact (leaves_process plan input files).map fun _ _ => id

/-- The inputs before any is processed. -/
def begun (plan : Plan) (inputs : List Files.Path) (files : FileSystem) : Pool Outcome :=
  ⟨files, inputs.map fun input => (runOne plan (collisions plan inputs) input : Program Outcome)⟩

variable {plan : Plan} {inputs : List Files.Path} {files last : FileSystem} {outcomes : List Outcome}

theorem inputs_of_execution (ends : Execution plan inputs files outcomes last) :
    outcomes.map Outcome.input = inputs := by
  have same : List.Forall₂ (fun input outcome => input = Outcome.input outcome) inputs outcomes :=
    (forall₂_outcomes ends).imp fun _ _ facts => facts.1.symm
  rw [← List.forall₂_map_right_iff, List.forall₂_eq_eq_eq] at same
  exact same.symm

/-- Of an input that succeeds, the processing comes by files that hold its text. -/
theorem passes_of_ok (ends : Execution plan inputs files outcomes last) {index : Nat} {outcome : Outcome}
    (found : outcomes[index]? = some outcome) {emitted : Emitted} (ok : outcome.result = .ok emitted) :
    (begun plan inputs files).Passes outcomes last index outcome (emitted.Holds plan outcome.input) := by
  have here : inputs[index]? = some outcome.input := by
    rw [← inputs_of_execution ends, List.getElem?_map, found]
    rfl
  have program : (begun plan inputs files).programs[index]? =
      some (runOne plan (collisions plan inputs) outcome.input) := by
    rw [begun, List.getElem?_map, here]
    rfl
  obtain ⟨moment, steps, done, holds, rest⟩ :=
    Pool.Ends.passes ends program (leaves_runOne plan inputs outcome.input files) found
  exact ⟨moment, steps, done, holds emitted ok, rest⟩

/-- It is there at the end too, unless two outputs are one file that is written in two ways. -/
theorem survives_of_toldApart (writes : plan.writeFiles = true) (told : ToldApart plan inputs files.current)
    (ends : Execution plan inputs files outcomes last) : ∀ outcome ∈ outcomes, outcome.Survives last := by
  have agreement := agreement_of_toldApart writes told
  have each := agreement.forall₂ rfl (fun input _ => guarantees_runOne plan inputs input)
    (fun input _ => ensures_runOne_survives plan inputs input files) ends
  exact forall_of_forall₂ each

end SwiftModel.Batch
