/- An input comes to what it comes to alone, if no output of another is where it is read or written. -/
import SwiftModel.Proofs.Batch.Collisions

namespace SwiftModel.Batch
open SwiftModel.Files

variable {plan : Plan} {inputs : List Files.Path} {first files later last : FileSystem}
  {input output parent : Files.Path} {outcomes : List Outcome}

/-- What others may do while an input is processed: nothing changes that it reads, or that is where it
writes; on the way of its output, directories are made. -/
structure LeavesAlone (first : FileSystem) (input output : Files.Path) (files later : FileSystem) :
    Prop where
  current : later.current = files.current
  directory : ∀ at_, files.entry? at_ = some .directory → later.entry? at_ = some .directory
  source : ∀ at_ ∈ input.trail files.current, files.entry? at_ ≠ none ∨ first.entry? at_ = none →
    later.entry? at_ = files.entry? at_
  way : ∀ at_ ∈ output.way files.current, (∀ content, files.entry? at_ ≠ some (.file content)) →
    ∀ content, later.entry? at_ ≠ some (.file content)
  place : later.entry? (output.place files.current) = files.entry? (output.place files.current)

theorem LeavesAlone.refl (first : FileSystem) (input output : Files.Path) (files : FileSystem) :
    LeavesAlone first input output files files :=
  ⟨rfl, fun _ => id, fun _ _ _ => rfl, fun _ _ => id, rfl⟩

theorem LeavesAlone.trans {between : FileSystem} (h : LeavesAlone first input output files between)
    (h' : LeavesAlone first input output between later) : LeavesAlone first input output files later := by
  have source := h'.source
  have way := h'.way
  have place := h'.place
  rw [h.current] at source way place
  refine ⟨h'.current.trans h.current, fun at_ => h'.directory at_ ∘ h.directory at_, ?_,
    fun at_ member => way at_ member ∘ h.way at_ member, place.trans h.place⟩
  intro at_ member known
  have same := h.source at_ member known
  rw [source at_ member (same ▸ known), same]

def leavesAlone (first : FileSystem) (input output : Files.Path) : Interference :=
  ⟨LeavesAlone first input output, .refl first input output, .trans⟩

theorem spares_leavesAlone (above : output.parent? = some parent) :
    (leavesAlone first input output).Spares parent := by
  refine ⟨LeavesAlone.current, LeavesAlone.directory, fun allowed at_ member => ?_⟩
  exact LeavesAlone.way allowed at_ (Path.mem_way_of_parent above member)

theorem spares_nothing (path : Files.Path) : nothing.Spares path := by
  refine ⟨?_, ?_, ?_⟩
  all_goals
    rintro files later rfl
  · rfl
  · exact fun _ => id
  · exact fun _ _ => id

/-! What is read is what was there at first. -/

theorem LeavesAlone.readText (allowed : LeavesAlone first input output first later) :
    later.readText input = first.readText input := by
  have stays : ∀ at_ ∈ input.trail first.current, later.entry? at_ = first.entry? at_ := by
    intro at_ member
    exact allowed.source at_ member (Decidable.not_or_of_imp id)
  have same : first.SameAlong later input :=
    ⟨allowed.current, fun at_ member => stays at_ (Path.mem_trail_of_mem_way member),
      stays _ (input.place_mem_trail _)⟩
  exact same.readText

/-! Where no file is in the way of an output, its directory is made, whoever else makes it. -/

/-- The directory of an output is made, and what is at its place is as in other files. -/
structure Prepared (first : FileSystem) (output parent : Files.Path) (files : FileSystem) : Prop where
  current : files.current = first.current
  made : files.Made parent
  place : output.place first.current ∉ parent.trail first.current →
    files.entry? (output.place first.current) = first.entry? (output.place first.current)

theorem ensures_prepared {others : Interference} (above : output.parent? = some parent)
    (spares : others.Spares parent)
    (leaves : ∀ {files later}, others.Allows files later →
      later.entry? (output.place files.current) = files.entry? (output.place files.current))
    (clear : files.Clear parent) (origin : files.entry? (parent.origin files.current) = some .directory) :
    (makeDirectories parent : Program _).Ensures others
      (fun result later => result = .ok () ∧ Prepared files output parent later) files := by
  have made := Program.ensures_makeWithParents (Nat.lt_succ_self _)
    (fun _ higher _ _ member => Path.mem_way_parent above higher member) spares clear origin
  have kept : (makeDirectories parent : Program _).Ensures others (fun _ later =>
      later.current = files.current ∧ (output.place files.current ∉ parent.trail files.current →
        later.entry? (output.place files.current) = files.entry? (output.place files.current))) files := by
    refine (Program.guarantees_makeWithParents _ parent).ensures ?_ ?_ ⟨rfl, fun _ => rfl⟩
    · rintro between later change ⟨current, same⟩
      refine ⟨change.current.trans current, fun outside => ?_⟩
      rcases change.entry (output.place files.current) with stays | ⟨member, -⟩
      · exact stays.trans (same outside)
      · exact absurd (current ▸ member) outside
    · rintro between later allowed ⟨current, same⟩
      refine ⟨(spares.current allowed).trans current, fun outside => ?_⟩
      rw [← current, leaves allowed, current]
      exact same outside
  refine (made.and kept).mono ?_
  rintro result later ⟨⟨ok, made⟩, current, place⟩
  exact ⟨ok, current, made, place⟩

theorem Prepared.stays {base : FileSystem} (prepared : Prepared first output parent files)
    (above : output.parent? = some parent)
    (allowed : LeavesAlone base input output files later) : Prepared first output parent later := by
  have spares : (leavesAlone base input output).Spares parent := spares_leavesAlone above
  have place := allowed.place
  rw [prepared.current] at place
  exact ⟨allowed.current.trans prepared.current, spares.made_later allowed prepared.made,
    fun outside => place.trans (prepared.place outside)⟩

/-- Whether an output is written is the same in all files in which it is prepared. -/
theorem Prepared.sameAlong (above : output.parent? = some parent)
    (prepared : Prepared first output parent files) (prepared' : Prepared first output parent later) :
    files.SameAlong later output := by
  have current := prepared.current
  have directory : ∀ at_ ∈ parent.trail first.current, later.entry? at_ = files.entry? at_ := by
    intro at_ member
    rw [prepared.made at_ (current.symm ▸ member), prepared'.made at_ (prepared'.current.symm ▸ member)]
  have place : later.entry? (output.place first.current) = files.entry? (output.place first.current) := by
    by_cases inside : output.place first.current ∈ parent.trail first.current
    · exact directory _ inside
    · rw [prepared.place inside, prepared'.place inside]
  refine ⟨prepared'.current.trans current.symm, ?_, ?_⟩
  · intro at_ member
    rw [current] at member
    rcases Path.mem_way above member with inside | rfl
    · exact directory at_ inside
    · exact place
  · rw [current]
    exact place

/-- An output without a parent leads nowhere but through the root, or to where it begins. -/
theorem sameAlong_of_root (root : output.parent? = none) (current : later.current = files.current)
    (origin : files.entry? (output.origin files.current) = some .directory)
    (origin' : later.entry? (output.origin files.current) = some .directory)
    (place : later.entry? (output.place files.current) = files.entry? (output.place files.current)) :
    files.SameAlong later output := by
  refine ⟨current, fun at_ member => ?_, place⟩
  cases written : output.text.isEmpty with
  | true =>
      rw [Path.eq_origin_of_mem_trail written (Path.mem_trail_of_mem_way member), origin, origin']
  | false => rw [Path.way_of_parent?_eq_none root written _ at_ member, files.entry?_nil, later.entry?_nil]

/-- What it comes to that a text is written is the same in files that look the same along its path. -/
theorem ensures_writeInto_alone {others : Interference} {text : String}
    (same : ∀ last, others.Allows later last → files.SameAlong last output) :
    (writeInto output text).Ensures others
      (fun result _ => result = ((writeInto output text).run.run files).1) later := by
  intro last allowed _ _
  have answer : (Request.writeText output text).answer last = (Request.writeText output text).answer files := by
    rw [answer_writeText, answer_writeText, (same last allowed).writeText]
  exact congrArg (Except.mapError (Failure.file .write output)) answer

theorem ensures_writeOutput_alone (text : String)
    (here : files.entry? files.current = some .directory)
    (clear : ∀ parent, output.parent? = some parent → files.Clear parent) :
    (writeOutput output text : Program _).Ensures (leavesAlone first input output)
      (fun result _ => result = ((writeOutput output text : Program _).run.run files).1) files := by
  have origin : ∀ path : Files.Path, files.entry? (path.origin files.current) = some .directory := by
    intro path
    rw [Path.origin]
    split
    · rfl
    · exact here
  cases above : output.parent? with
  | none =>
      rw [writeOutput_of_none above]
      apply ensures_writeInto_alone
      intro last allowed
      exact sameAlong_of_root above (LeavesAlone.current allowed) (origin output)
        (LeavesAlone.directory allowed _ (origin output)) (LeavesAlone.place allowed)
  | some parent =>
      have spares : (leavesAlone first input output).Spares parent := spares_leavesAlone above
      have among := ensures_prepared above spares LeavesAlone.place (clear parent above) (origin parent)
      obtain ⟨made, alone⟩ := (ensures_prepared above (spares_nothing parent)
        (fun {files later} same => by rw [same]) (clear parent above) (origin parent)).run
      have whole : ((writeOutput output text : Program _).run.run files).1 =
          ((writeInto output text).run.run ((makeDirectories parent : Program _).run.run files).2).1 := by
        rw [writeOutput_of_some above, Program.fst_run_bind, made]
      rw [whole, writeOutput_of_some above]
      refine among.bind ?_
      rintro made later ⟨rfl, prepared⟩
      apply ensures_writeInto_alone
      intro last allowed
      exact alone.sameAlong above (prepared.stays above allowed)

/-- The outcome of an input on its own. -/
def alone (plan : Plan) (files : FileSystem) (input : Files.Path) : Outcome :=
  ⟨input, ((process plan input : Program _).run.run files).1⟩

theorem ensures_process_alone (here : first.entry? first.current = some .directory)
    (clear : ∀ parent, (plan.output input).parent? = some parent → first.Clear parent) :
    (process plan input : Program _).Ensures (leavesAlone first input (plan.output input))
      (fun result _ => result = (alone plan first input).result) first := by
  rw [alone, process_eq]
  intro later allowed
  have answer : (Request.readText input).answer later = (Request.readText input).answer first :=
    LeavesAlone.readText allowed
  rw [answer]
  refine Program.Ensures.later ?_ allowed
  change (finish plan input _).Ensures _ (fun result _ =>
    result = ((finish plan input ((Request.readText input).answer first)).run.run first).1) first
  generalize (Request.readText input).answer first = source
  rw [finish.eq_def]
  split
  next => exact fun _ _ => rfl
  next source =>
    split
    next => exact fun _ _ => rfl
    next text _ =>
      split
      · -- how the output is written has been looked into, and is not again
        have written : (writeOutput (plan.output input) text : Program _).Ensures
            (leavesAlone first input (plan.output input)) _ first :=
          ensures_writeOutput_alone text here clear
        generalize (writeOutput (plan.output input) text : Program _) = program at written ⊢
        refine written.map ?_
        rintro result last rfl
        rw [Program.fst_run_bind]
        rfl
      · exact fun _ _ => rfl

/-! Inputs that keep apart leave each other alone. -/

/-- The output of another input is not where this one is read or written, and no directory that is
made for it is where this one is read. -/
structure Apart (plan : Plan) (files : FileSystem) (input other : Files.Path) : Prop where
  source : (plan.output other).place files.current ∉ input.trail files.current
  output : (plan.output other).place files.current ∉ (plan.output input).trail files.current
  made : ∀ at_ ∈ (plan.output other).way files.current, files.entry? at_ = none →
    at_ ∉ input.trail files.current

/-- The current directory is there, inputs that do not collide are apart, and no file is in the way of
their outputs. -/
structure Undisturbed (plan : Plan) (inputs : List Files.Path) (files : FileSystem) : Prop where
  here : files.entry? files.current = some .directory
  apart : ∀ input ∈ inputs, ∀ other ∈ inputs, collision? plan inputs input = none →
    collision? plan inputs other = none → input ≠ other → Apart plan files input other
  clear : ∀ input ∈ inputs, collision? plan inputs input = none →
    ∀ parent, (plan.output input).parent? = some parent → files.Clear parent

instance (plan : Plan) (files : FileSystem) (input other : Files.Path) :
    Decidable (Apart plan files input other) :=
  decidable_of_iff (_ ∧ _ ∧ _) ⟨fun h => ⟨h.1, h.2.1, h.2.2⟩, fun h => ⟨h.source, h.output, h.made⟩⟩

theorem Apart.leavesAlone {other : Files.Path} (current : files.current = first.current)
    (apart : Apart plan first input other) (apart' : Apart plan first other input)
    (change : WritesAt (plan.output other) files later) :
    LeavesAlone first input (plan.output input) files later := by
  obtain ⟨current', entry⟩ := change
  rw [current] at entry
  refine ⟨current', ?_, ?_, ?_, ?_⟩
  · intro at_ directory
    rcases entry at_ with same | ⟨-, absent, -⟩ | ⟨-, free, -⟩
    · exact same.trans directory
    · rw [absent] at directory
      cases directory
    · exact absurd directory free
  · rw [current]
    intro at_ source known
    rcases entry at_ with same | ⟨member, absent, -⟩ | ⟨rfl, -⟩
    · exact same
    · rcases known with present | before
      · exact absurd absent present
      · exact absurd source (apart.made at_ member before)
    · exact absurd source apart.source
  · rw [current]
    intro at_ way clear
    rcases entry at_ with same | ⟨-, -, made⟩ | ⟨rfl, -⟩
    · rw [same]
      exact clear
    · intro content file
      rw [made] at file
      cases file
    · exact absurd (Path.mem_trail_of_mem_way way) apart.output
  · rw [current]
    rcases entry ((plan.output input).place first.current) with same | ⟨member, -⟩ | ⟨one, -⟩
    · exact same
    · exact absurd (Path.mem_trail_of_mem_way member) apart'.output
    · exact absurd (Path.mem_trail.mpr (.inr one.symm)) apart.output

/-- What an input that collides comes to, or what one comes to alone. -/
def settled (plan : Plan) (inputs : List Files.Path) (files : FileSystem) (input : Files.Path) : Outcome :=
  match collision? plan inputs input with
  | some failure => ⟨input, .error failure⟩
  | none => alone plan files input

/-- What others may do to an input of a batch: anything, if it collides. -/
def mayDo (plan : Plan) (inputs : List Files.Path) (files : FileSystem) (input : Files.Path) :
    Interference :=
  match collision? plan inputs input with
  | some _ => anything
  | none => leavesAlone files input (plan.output input)

theorem ensures_runOne_settled (undisturbed : Undisturbed plan inputs files) (member : input ∈ inputs) :
    (runOne plan (collisions plan inputs) input : Program _).Ensures (mayDo plan inputs files input)
      (fun outcome _ => settled plan inputs files input = outcome) files := by
  rw [mayDo, settled]
  split
  next failure collides =>
    rw [runOne_eq_pure collides]
    exact fun _ _ => rfl
  next none =>
    rw [runOne_eq_process none]
    have clear := undisturbed.clear input member none
    refine (ensures_process_alone undisturbed.here clear).map ?_
    rintro result later rfl
    rfl

theorem agreement_of_undisturbed (writes : plan.writeFiles = true)
    (undisturbed : Undisturbed plan inputs first) :
    Pool.Agreement inputs (fun files => files.current = first.current) (mayDo plan inputs first)
      fun input files later => collision? plan inputs input = none ∧
        WritesAt (plan.output input) files later := by
  constructor
  · rintro input - files later current ⟨-, change⟩
    exact change.current.trans current
  · rintro index at_ input other apart here there files later current ⟨none, change⟩
    rw [mayDo]
    split
    next => trivial
    next none' =>
      have distinct : input ≠ other := by
        rintro rfl
        obtain ⟨_, _, -, collides⟩ := collision?_of_shares writes here ⟨at_, input, Ne.symm apart, there, rfl⟩
        rw [none] at collides
        cases collides
      have member := List.mem_of_getElem? here
      have member' := List.mem_of_getElem? there
      exact (undisturbed.apart input member other member' none' none distinct).leavesAlone current
        (undisturbed.apart other member' input member none none' distinct.symm) change

theorem outcomes_eq_settled (writes : plan.writeFiles = true)
    (undisturbed : Undisturbed plan inputs files) (ends : Execution plan inputs files outcomes last) :
    outcomes = inputs.map (settled plan inputs files) := by
  have each := (agreement_of_undisturbed writes undisturbed).forall₂ rfl
    (fun input _ => guarantees_runOne plan inputs input)
    (fun input member => ensures_runOne_settled undisturbed member) ends
  have same := List.forall₂_map_left_iff.mpr each
  rw [List.forall₂_eq_eq_eq] at same
  exact same.symm

theorem inTurn_singleton (plan : Plan) (input : Files.Path) (files : FileSystem) :
    (inTurn plan [input] files).1 = [alone plan files input] := by
  have none : collision? plan [input] input = none := by
    apply collision?_of_alone (show [input][0]? = some input from rfl)
    rintro ⟨at_, other, apart, there, -⟩
    cases at_ with
    | zero => exact apart rfl
    | succ at_ => cases there
  have only : inTurn plan [input] files =
      ([((runOne plan (collisions plan [input]) input : Program _).run.run files).1],
        ((runOne plan (collisions plan [input]) input : Program _).run.run files).2) := by
    rw [run_runOne]
    rfl
  rw [only, runOne_eq_process none, Program.bind_eq, Program.fst_run_bind]
  rfl

/-- If inputs are undisturbed, each that does not collide comes to what it comes to in a batch of its
own, and the order of the steps makes no difference. -/
theorem outcomes_independent (writes : plan.writeFiles = true)
    (undisturbed : Undisturbed plan inputs files) (ends : Execution plan inputs files outcomes last) :
    (∀ (index : Nat) (input : Files.Path) (outcome : Outcome), inputs[index]? = some input →
      outcomes[index]? = some outcome → ¬ Collides outcome.result →
        (inTurn plan [input] files).1 = [outcome]) ∧
    ∀ (outcomes' : List Outcome) (last' : FileSystem),
      Execution plan inputs files outcomes' last' → outcomes' = outcomes := by
  have whole := outcomes_eq_settled writes undisturbed ends
  constructor
  · intro index input outcome here found free
    rw [whole, List.getElem?_map, here, Option.map_some, Option.some.injEq] at found
    subst found
    rw [inTurn_singleton, settled]
    split
    next failure collides =>
      obtain ⟨output, list, rfl⟩ := eq_collision_of_collision? collides
      refine absurd ?_ free
      rw [settled, collides]
      exact ⟨output, list, rfl⟩
    next => rfl
  · intro outcomes' last' ends'
    rw [whole, outcomes_eq_settled writes undisturbed ends']

/-- A sample and a document that is no sample, in different directories. -/
def scattered : List Files.Path := [⟨"u.json"⟩, ⟨"a/v.json"⟩]

def scatteredFiles : FileSystem :=
  ⟨[(["u.json"], .file (.text "\x7b\"a\":1\x7d")), (["a"], .directory),
    (["a", "v.json"], .file (.text "["))], []⟩

theorem outcomes_independent_scattered : Undisturbed beside scattered scatteredFiles ∧
    ∀ outcomes last, Execution beside scattered scatteredFiles outcomes last →
      outcomes = (inTurn beside scattered scatteredFiles).1 := by
  have undisturbed : Undisturbed beside scattered scatteredFiles := by
    refine ⟨rfl, ?_, ?_⟩
    · have apart : ∀ input ∈ scattered, ∀ other ∈ scattered, input ≠ other →
          Apart beside scatteredFiles input other := by
        decide +kernel
      exact fun input member other member' _ _ => apart input member other member'
    · have free : ∀ input ∈ scattered, ∀ parent ∈ (beside.output input).parent?,
          ∀ at_ ∈ parent.trail [], scatteredFiles.entry? at_ = some .directory := by
        decide +kernel
      intro input member _ parent above at_ inside content file
      rw [free input member parent above at_ inside] at file
      cases file
  refine ⟨undisturbed, ?_⟩
  exact (outcomes_independent rfl undisturbed (execution_inTurn beside scattered scatteredFiles)).2

/-- Outputs without an extension. -/
def bare : Plan := ⟨.sample, .default, none, none, "", true⟩

/-- Without an extension, the output of the first is the second. -/
def chained : List Files.Path := [⟨"a.txt.json"⟩, ⟨"a.txt"⟩]

def chainedFiles : FileSystem :=
  ⟨[(["a.txt.json"], .file (.text "\x7b\"a\":1\x7d")), (["a.txt"], .file (.text "\x7b\"b\":1\x7d"))],
    []⟩

theorem not_outcomes_independent : ¬ ∀ (plan : Plan) (inputs : List Files.Path) (files : FileSystem)
    (outcomes : List Outcome) (last : FileSystem), plan.writeFiles = true →
      Execution plan inputs files outcomes last →
      ∀ (index : Nat) (input : Files.Path) (outcome : Outcome), inputs[index]? = some input →
        outcomes[index]? = some outcome → ¬ Collides outcome.result →
          (inTurn plan [input] files).1 = [outcome] := by
  intro all
  have ends := execution_inTurn bare chained chainedFiles
  have failed : (inTurn bare chained chainedFiles).1[1]?.map Outcome.failed = some true := by
    decide +kernel
  have own : (inTurn bare [⟨"a.txt"⟩] chainedFiles).1.map Outcome.failed = [false] := by
    decide +kernel
  have none : collision? bare chained ⟨"a.txt"⟩ = none := by decide +kernel
  obtain ⟨outcome, found, fails⟩ := Option.map_eq_some_iff.mp failed
  obtain ⟨-, -, free⟩ := of_forall₂ (forall₂_outcomes ends) (show chained[1]? = some ⟨"a.txt"⟩ from rfl) found
  rw [all bare chained chainedFiles _ _ rfl ends 1 _ outcome rfl found (free none), List.map_singleton,
    fails] at own
  cases own

end SwiftModel.Batch
