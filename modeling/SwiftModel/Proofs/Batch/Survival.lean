/- What is written is there at the end, unless two outputs are one file that is written in two ways. -/
import SwiftModel.Proofs.Batch.Collisions

namespace SwiftModel.Batch
open SwiftModel.Files

/-- Others leave every directory, and what is at the place of a path. -/
def keepsPlace (path : Files.Path) : Interference where
  Allows files later := later.current = files.current ∧
    (∀ at_, files.entry? at_ = some .directory → later.entry? at_ = some .directory) ∧
    ∀ entry, files.entry? (path.place files.current) = some entry →
      later.entry? (path.place files.current) = some entry
  refl files := ⟨rfl, fun _ => id, fun _ => id⟩
  trans := by
    rintro first second third ⟨current, directory, place⟩ ⟨current', directory', place'⟩
    rw [current] at place'
    exact ⟨current'.trans current, fun at_ => directory' at_ ∘ directory at_,
      fun entry => place' entry ∘ place entry⟩

/-- If a text is written for an input, the files hold it at the output. -/
def Outcome.Survives (last : FileSystem) (outcome : Outcome) : Prop :=
  ∀ output text, outcome.result = .ok ⟨some output, text⟩ → last.readText output = .ok text

instance (last : FileSystem) (outcome : Outcome) : Decidable (outcome.Survives last) :=
  match known : outcome.result with
  | .ok ⟨some output, text⟩ =>
    decidable_of_iff (last.readText output = .ok text) (by simp [Outcome.Survives, known])
  | .ok ⟨none, _⟩ => isTrue (by simp [Outcome.Survives, known])
  | .error _ => isTrue (by simp [Outcome.Survives, known])

/-- Outputs at one place are written in one way. -/
def ToldApart (plan : Plan) (inputs : List Files.Path) (current : Location) : Prop :=
  ∀ input ∈ inputs, ∀ other ∈ inputs,
    (plan.output input).place current = (plan.output other).place current →
      (plan.output input).components = (plan.output other).components

instance (plan : Plan) (inputs : List Files.Path) (current : Location) :
    Decidable (ToldApart plan inputs current) :=
  inferInstanceAs (Decidable (∀ input ∈ inputs, ∀ other ∈ inputs, _ → _))

variable {plan : Plan} {inputs : List Files.Path} {files last : FileSystem} {outcomes : List Outcome}

/-- Plain outputs are told apart, if all of them are absolute or none is. -/
theorem toldApart_of_plain (current : Location)
    (plain : ∀ input ∈ inputs, (plan.output input).Plain)
    (alike : ∀ input ∈ inputs, ∀ other ∈ inputs,
      (plan.output input).isAbsolute = (plan.output other).isAbsolute) :
    ToldApart plan inputs current := by
  intro input member other member' one
  have absolute := alike input member other member'
  have origin : (plan.output input).origin current = (plan.output other).origin current := by
    rw [Path.origin, Path.origin, absolute]
  rw [Path.place_of_plain (plain input member), Path.place_of_plain (plain other member'), origin,
    List.append_cancel_left_eq] at one
  exact Prod.ext absolute one

/-- A text that is written is there from then on. -/
theorem ensures_writeText (output : Files.Path) (text : String) (files : FileSystem) :
    (FileAccess.writeText output text : Program _).Ensures (keepsPlace output)
      (fun written later => written = .ok () → later.readText output = .ok text) files := by
  rintro later -
  cases known : later.writeText output text with
  | error problem =>
      rw [(writeText_of_error known).1]
      rintro _ - ⟨⟩
  | ok changed =>
      obtain ⟨written, ready, other, whole⟩ := FileSystem.writeText_eq_ok known
      have put := writeText_of_ok known
      rw [put.1, put.2]
      rintro last ⟨current, directory, place⟩ -
      have entry := fun at_ => later.entry?_put (ne_nil_of_free other) (.file (.text text)) at_
      rw [← whole] at entry
      have here : changed.current = later.current := by rw [whole, FileSystem.current_put]
      have there := entry (output.place later.current)
      rw [if_pos rfl] at there
      refine FileSystem.readText_eq_ok.mpr ⟨written, ?_, ?_⟩
      · intro at_ member
        rw [current, here] at member
        apply directory at_
        rw [entry, if_neg, ready at_ member]
        rintro rfl
        exact other (ready _ member)
      · rw [here] at place
        rw [current, here]
        exact place _ there

theorem ensures_writeInto (output : Files.Path) (text : String) (files : FileSystem) :
    (writeInto output text).Ensures (keepsPlace output)
      (fun written later => written = .ok () → later.readText output = .ok text) files := by
  refine (ensures_writeText output text files).map ?_
  intro written later reads ok
  exact reads (mapError_eq_ok ok)

theorem ensures_writeOutput (output : Files.Path) (text : String) (files : FileSystem) :
    (writeOutput output text : Program _).Ensures (keepsPlace output)
      (fun written later => written = .ok () → later.readText output = .ok text) files := by
  cases above : output.parent? with
  | none =>
      rw [writeOutput_of_none above]
      exact ensures_writeInto output text files
  | some parent =>
      rw [writeOutput_of_some above]
      have made : (makeDirectories parent : Program _).Ensures (keepsPlace output) (fun _ _ => True) files :=
        (Program.guarantees_makeWithParents _ parent).ensures (fun _ _ _ => id) (fun _ _ _ => id) trivial
      refine made.bind ?_
      rintro (problem | ⟨⟩) later _
      · rintro _ - ⟨⟩
      · exact ensures_writeInto output text later

/-- An input that is processed leaves its text where its outcome says. -/
theorem ensures_process (plan : Plan) (input : Files.Path) (files : FileSystem) :
    (process plan input : Program _).Ensures (keepsPlace (plan.output input))
      (fun result later => ∀ output text, result = .ok ⟨some output, text⟩ →
        later.readText output = .ok text) files := by
  rw [process_eq]
  rintro later -
  rw [finish.eq_def]
  split
  next => rintro _ - output text ⟨⟩
  next source _ =>
    split
    next failure _ => rintro _ - output text ⟨⟩
    next text _ =>
      split
      · -- how the output is written has been looked into, and is not again
        have written := ensures_writeOutput (plan.output input) text later
        generalize (writeOutput (plan.output input) text : Program _) = program at written ⊢
        refine written.map ?_
        intro written last reads output text' ok
        obtain ⟨_, rfl, same⟩ := map_eq_ok ok
        cases same
        exact reads rfl
      · rintro _ - output text ⟨⟩

theorem ensures_runOne_survives (plan : Plan) (inputs : List Files.Path) (input : Files.Path)
    (files : FileSystem) : (runOne plan (collisions plan inputs) input : Program _).Ensures
      (keepsPlace (plan.output input)) (fun outcome later => outcome.Survives later) files := by
  rw [runOne]
  split
  next => rintro _ - output text ⟨⟩
  next => exact (ensures_process plan input files).map fun _ _ => id

/-- What one input writes, each other one puts up with: their outputs are not at one place. -/
theorem agreement_of_toldApart (writes : plan.writeFiles = true) {current : Location}
    (told : ToldApart plan inputs current) :
    Pool.Agreement inputs (fun files => files.current = current)
      (fun input => keepsPlace (plan.output input)) fun input files later =>
        collision? plan inputs input = none ∧ WritesAt (plan.output input) files later := by
  constructor
  · rintro input - files later here ⟨-, change⟩
    exact change.current.trans here
  · rintro index at_ input other apart here there files later rfl ⟨none, change⟩
    refine ⟨change.current, fun location directory => ?_, fun entry present => ?_⟩
    · rcases change.entry location with same | ⟨-, absent, -⟩ | ⟨-, free, -⟩
      · exact same.trans directory
      · rw [absent] at directory
        cases directory
      · exact absurd directory free
    · rcases change.entry ((plan.output input).place files.current) with same | ⟨-, absent, -⟩ | ⟨one, -⟩
      · exact same.trans present
      · rw [absent] at present
        cases present
      · -- the two outputs are at one place, so the other input is not processed either
        have shares : Shares plan inputs at_ other := ⟨index, input, apart, here,
          told input (List.mem_of_getElem? here) other (List.mem_of_getElem? there) one⟩
        obtain ⟨_, _, -, collides⟩ := collision?_of_shares writes there shares
        rw [none] at collides
        cases collides

/-- In whatever order the inputs are processed, each text that is written is there at the end, and
inputs with outputs at one place all fail, if such outputs are written in one way. -/
theorem outputs_survive (writes : plan.writeFiles = true)
    (told : ToldApart plan inputs files.current) (ends : Execution plan inputs files outcomes last) :
    (∀ outcome ∈ outcomes, outcome.Survives last) ∧
    ∀ (index at_ : Nat) (input other : Files.Path) (outcome : Outcome), at_ ≠ index →
      inputs[index]? = some input → inputs[at_]? = some other →
      (plan.output input).place files.current = (plan.output other).place files.current →
      outcomes[index]? = some outcome → Collides outcome.result := by
  constructor
  · refine forall_of_forall₂ (l := inputs) ?_
    exact (agreement_of_toldApart writes told).forall₂ rfl
      (fun input _ => guarantees_runOne plan inputs input)
      (fun input _ => ensures_runOne_survives plan inputs input files) ends
  · intro index at_ input other outcome apart here there one found
    have shares : Shares plan inputs index input := ⟨at_, other, apart, there,
      (told input (List.mem_of_getElem? here) other (List.mem_of_getElem? there) one).symm⟩
    obtain ⟨_, _, -, collides⟩ := collision?_of_shares writes here shares
    obtain ⟨-, reported, -⟩ := of_forall₂ (forall₂_outcomes ends) here found
    exact ⟨_, _, reported _ collides⟩

def spelledTwiceFiles : FileSystem :=
  ⟨[(["v.json"], .file (.text "\x7b\"a\":1\x7d"))], []⟩

theorem outputs_survive_spelledTwice :
    ToldApart beside spelledTwice spelledTwiceFiles.current ∧
      ∀ outcome ∈ (inTurn beside spelledTwice spelledTwiceFiles).1,
        outcome.Survives (inTurn beside spelledTwice spelledTwiceFiles).2 := by
  have told : ToldApart beside spelledTwice spelledTwiceFiles.current := by decide +kernel
  exact ⟨told, (outputs_survive rfl told (execution_inTurn beside spelledTwice spelledTwiceFiles)).1⟩

/-- Two inputs whose outputs are one file: a point at the front of a path is a component. -/
def pointed : List Files.Path := [⟨"u.json"⟩, ⟨"./u.txt"⟩]

def pointedFiles : FileSystem :=
  ⟨[(["u.json"], .file (.text "\x7b\"a\":1\x7d")), (["u.txt"], .file (.text "\x7b\"b\":1\x7d"))], []⟩

theorem not_outputs_survive : ¬ ∀ (plan : Plan) (inputs : List Files.Path) (files : FileSystem)
    (outcomes : List Outcome) (last : FileSystem), plan.writeFiles = true →
      Execution plan inputs files outcomes last → ∀ outcome ∈ outcomes, outcome.Survives last := by
  intro all
  have survives := all beside pointed pointedFiles _ _ rfl (execution_inTurn beside pointed pointedFiles)
  revert survives
  decide +kernel

end SwiftModel.Batch
