/- Which inputs have their output in common, and what becomes of them and of the others. A failure is filed
under the inputs of a group and looked up by input, however that is written: inputs that are one path have
outputs that are one path, so each finds the failure of its own group and no other. -/
import SwiftModel.Proofs.Batch.Execution
import SwiftModel.Proofs.Files.Components
import SwiftModel.Proofs.Files.Table

namespace SwiftModel.Batch
open SwiftModel.Files

variable {plan : Plan} {inputs : List Files.Path} {input : Files.Path} {index : Nat}

/-- The inputs that have their output in common with an input, in order. -/
def rivals (plan : Plan) (inputs : List Files.Path) (input : Files.Path) : List Files.Path :=
  inputs.filter fun other => (plan.output other).components == (plan.output input).components

/-- Another position of the list has the same output. -/
def Shares (plan : Plan) (inputs : List Files.Path) (index : Nat) (input : Files.Path) : Prop :=
  ∃ at_ other, at_ ≠ index ∧ inputs[at_]? = some other ∧
    (plan.output other).components = (plan.output input).components

/-- A list that has something at one position has two of its kind if another position has one. -/
theorem two_le_length_filter {α : Type} {p : α → Bool} {l : List α} {a : α} (here : l[index]? = some a)
    (kind : p a = true) :
    2 ≤ (l.filter p).length ↔ ∃ (at_ : Nat) (b : α), at_ ≠ index ∧ l[at_]? = some b ∧ p b = true := by
  induction l generalizing index with
  | nil => cases here
  | cons head tail ih =>
      cases index with
      | zero =>
          cases here
          rw [List.filter_cons_of_pos kind, List.length_cons]
          constructor
          · intro more
            obtain ⟨b, found⟩ := List.exists_mem_of_length_pos (Nat.le_of_succ_le_succ more)
            obtain ⟨member, same⟩ := List.mem_filter.mp found
            obtain ⟨at_, there⟩ := List.mem_iff_getElem?.mp member
            exact ⟨at_ + 1, b, Nat.succ_ne_zero at_, there, same⟩
          · rintro ⟨at_, b, apart, there, same⟩
            cases at_ with
            | zero => exact absurd rfl apart
            | succ at_ =>
                have member : b ∈ tail.filter p := List.mem_filter.mpr ⟨List.mem_of_getElem? there, same⟩
                exact Nat.succ_le_succ (List.length_pos_of_mem member)
      | succ index =>
          have member : a ∈ tail.filter p := List.mem_filter.mpr ⟨List.mem_of_getElem? here, kind⟩
          cases first : p head with
          | true =>
              rw [List.filter_cons_of_pos first, List.length_cons]
              have two := Nat.succ_le_succ (List.length_pos_of_mem member)
              exact ⟨fun _ => ⟨0, head, (Nat.succ_ne_zero index).symm, rfl, first⟩, fun _ => two⟩
          | false =>
              rw [List.filter_cons_of_neg (Bool.eq_false_iff.mp first), ih here]
              constructor
              · rintro ⟨at_, b, apart, there, same⟩
                exact ⟨at_ + 1, b, fun equal => apart (Nat.succ.inj equal), there, same⟩
              · rintro ⟨at_, b, apart, there, same⟩
                cases at_ with
                | zero =>
                    cases there
                    rw [first] at same
                    cases same
                | succ at_ => exact ⟨at_, b, fun equal => apart (congrArg Nat.succ equal), there, same⟩

theorem shares_iff (here : inputs[index]? = some input) :
    Shares plan inputs index input ↔ 2 ≤ (rivals plan inputs input).length := by
  have two := two_le_length_filter
    (p := fun other => (plan.output other).components == (plan.output input).components) here
    (beq_self_eq_true _)
  rw [rivals, two]
  simp only [Shares, beq_iff_eq]

/-! Failures are filed by groups of one output, and found by input. -/

/-- The failure of an input that shares its output: it names the first output and lists all the inputs. -/
def Reports (plan : Plan) (inputs : List Files.Path) (input : Files.Path) (failure : Failure) : Prop :=
  ∃ first second rest, rivals plan inputs input = first :: second :: rest ∧
    failure = .collision (plan.output first) (first :: second :: rest)

variable {other source : Files.Path} {failure failure' : Failure}

/-- Inputs with the same components have outputs with the same components. -/
theorem components_output (plan : Plan) (same : input.components = other.components) :
    (plan.output input).components = (plan.output other).components := by
  have directory : (plan.directory.getD (input.parent?.getD ⟨""⟩)).components =
      (plan.directory.getD (other.parent?.getD ⟨""⟩)).components := by
    cases plan.directory with
    | some directory => rfl
    | none =>
        have above := (Path.parts_congr same).2
        cases parent : input.parent? with
        | none =>
            rw [parent, Option.map_none] at above
            rw [Option.map_eq_none_iff.mp above.symm]
        | some directory =>
            rw [parent] at above
            obtain ⟨directory', parent', same'⟩ := Option.map_eq_some_iff.mp above.symm
            rw [parent']
            exact same'.symm
  rw [Plan.output, Plan.output, outputPath, outputPath, Path.fileStem?_congr same]
  exact Path.components_join_congr directory _

theorem rivals_congr (same : (plan.output other).components = (plan.output input).components) :
    rivals plan inputs other = rivals plan inputs input := by rw [rivals, rivals, same]

theorem Reports.congr (same : (plan.output other).components = (plan.output input).components)
    (reports : Reports plan inputs other failure) : Reports plan inputs input failure := by
  rwa [Reports, rivals_congr same] at reports

theorem Reports.unique (reports : Reports plan inputs input failure)
    (reports' : Reports plan inputs input failure') : failure = failure' := by
  obtain ⟨first, second, rest, all, rfl⟩ := reports
  obtain ⟨first', second', rest', all', rfl⟩ := reports'
  cases all.symm.trans all'
  rfl

/-- What is filed under an input is the failure of the group of its output. -/
theorem mem_collided : (source, failure) ∈ collided plan inputs ↔
    source ∈ inputs ∧ Reports plan inputs source failure := by
  rw [collided, List.mem_flatMap]
  constructor
  · rintro ⟨group, shared, member⟩
    obtain ⟨filed, several⟩ := List.mem_filter.mp shared
    obtain ⟨_, inside, ⟨⟩⟩ := List.mem_map.mp member
    obtain ⟨all, first, rest, rfl⟩ := Table.itemsAt_of_mem_grouped filed
    rw [← all] at inside
    obtain ⟨listed, same⟩ := List.mem_filter.mp inside
    have own : rivals plan inputs source = first :: rest :=
      (Table.itemsAt_congr (eq_of_beq same)).trans all
    cases rest with
    | nil => cases several
    | cons second rest => exact ⟨listed, first, second, rest, own, rfl⟩
  · rintro ⟨listed, first, second, rest, own, rfl⟩
    obtain ⟨group, filed, same⟩ := Table.exists_mem_grouped plan.output listed
    obtain ⟨all, first', rest', rfl⟩ := Table.itemsAt_of_mem_grouped filed
    have whole : rivals plan inputs source = first' :: rest' := (Table.itemsAt_congr same).symm.trans all
    cases whole.symm.trans own
    have inside : source ∈ rivals plan inputs source :=
      List.mem_filter.mpr ⟨listed, beq_self_eq_true _⟩
    rw [own] at inside
    exact ⟨_, List.mem_filter.mpr ⟨filed, by simp⟩, List.mem_map.mpr ⟨source, inside, rfl⟩⟩

/-- What is found under an input is filed under one with the same components, whose output is the same. -/
theorem reports_of_collision? (collides : collision? plan inputs input = some failure) :
    Reports plan inputs input failure := by
  rw [collision?, collisions] at collides
  split at collides
  next =>
    obtain ⟨source, filed, same⟩ := Table.exists_mem_of_value?_ofEntries collides
    obtain ⟨-, reports⟩ := mem_collided.mp filed
    exact reports.congr (components_output plan same)
  next => cases collides

theorem collision?_eq_some_iff (writes : plan.writeFiles = true) (listed : input ∈ inputs) :
    collision? plan inputs input = some failure ↔ Reports plan inputs input failure := by
  refine ⟨reports_of_collision?, fun reports => ?_⟩
  have filed := mem_collided.mpr ⟨listed, reports⟩
  obtain ⟨found, looked⟩ := Table.exists_value?_ofEntries filed rfl
  have whole : collision? plan inputs input = some found := by
    rw [collision?, collisions, if_pos writes]
    exact looked
  rw [whole, (reports_of_collision? whole).unique reports]

/-- The failure of those who share an output names the first of them and lists them all. -/
theorem collision?_of_shares (writes : plan.writeFiles = true) (here : inputs[index]? = some input)
    (shares : Shares plan inputs index input) : ∃ first rest, rivals plan inputs input = first :: rest ∧
      collision? plan inputs input =
        some (.collision (plan.output first) (rivals plan inputs input)) := by
  rw [shares_iff here] at shares
  cases all : rivals plan inputs input with
  | nil => rw [all] at shares; cases shares
  | cons first rest =>
      cases rest with
      | nil => rw [all] at shares; exact absurd shares (Nat.not_succ_le_self 1)
      | cons second rest =>
          refine ⟨first, second :: rest, rfl, ?_⟩
          rw [collision?_eq_some_iff writes (List.mem_of_getElem? here)]
          exact ⟨first, second, rest, all, rfl⟩

theorem eq_collision_of_collision? (collides : collision? plan inputs input = some failure) :
    ∃ output list, failure = .collision output list := by
  obtain ⟨first, second, rest, -, rfl⟩ := reports_of_collision? collides
  exact ⟨_, _, rfl⟩

theorem collision?_of_alone (here : inputs[index]? = some input)
    (alone : ¬ Shares plan inputs index input) : collision? plan inputs input = none := by
  rw [shares_iff here] at alone
  refine Option.eq_none_iff_forall_ne_some.mpr fun failure collides => alone ?_
  obtain ⟨first, second, rest, all, -⟩ := reports_of_collision? collides
  rw [all]
  simp

theorem collision?_of_not_writes (dry : plan.writeFiles = false) (inputs : List Files.Path)
    (input : Files.Path) : collision? plan inputs input = none := by
  rw [collision?, collisions, dry]
  rfl

/-! What is processed does not collide. -/

def Collides {α : Type} (result : Except Failure α) : Prop :=
  ∃ output list, result = .error (.collision output list)

theorem not_collides_ok {α : Type} (value : α) : ¬ Collides (.ok value) := by
  rintro ⟨_, _, collides⟩
  cases collides

theorem not_collides_file {α : Type} (action : FileAction) (path : Files.Path) (problem : Problem) :
    ¬ Collides (.error (.file action path problem) : Except Failure α) := by
  rintro ⟨_, _, collides⟩
  cases collides

theorem not_collides_generateText (plan : Plan) (source : String) :
    ¬ Collides (generateText plan source) := by
  rintro ⟨output, list, collides⟩
  rcases bind_eq_error.mp collides with malformed | ⟨document, -, collides⟩
  · obtain ⟨_, -, other⟩ := mapError_eq_error malformed
    cases other
  rcases bind_eq_error.mp collides with selected | ⟨value, -, collides⟩
  · rw [select] at selected
    split at selected
    next => cases selected
    next => split at selected <;> cases selected
  rcases bind_eq_error.mp collides with inferred | ⟨record, -, emitted⟩
  · rw [infer] at inferred
    split at inferred
    all_goals
      obtain ⟨_, -, other⟩ := mapError_eq_error inferred
      cases other
  · obtain ⟨_, -, other⟩ := mapError_eq_error emitted
    cases other

/-- Others may do anything. -/
def anything : Interference := ⟨fun _ _ => True, fun _ => trivial, fun _ _ => trivial⟩

theorem ensures_writeInto_not_collides (output : Files.Path) (text : String) (files : FileSystem) :
    (writeInto output text).Ensures anything (fun result _ => ¬ Collides result) files := by
  intro later _ last _
  cases (Request.writeText output text).answer later with
  | ok written => exact not_collides_ok _
  | error problem => exact not_collides_file _ _ _

theorem ensures_writeOutput_not_collides (output : Files.Path) (text : String) (files : FileSystem) :
    (writeOutput output text : Program _).Ensures anything (fun result _ => ¬ Collides result) files := by
  cases above : output.parent? with
  | none =>
      rw [writeOutput_of_none above]
      exact ensures_writeInto_not_collides output text files
  | some parent =>
      rw [writeOutput_of_some above]
      have made : (makeDirectories parent : Program _).Ensures anything (fun _ _ => True) files :=
        (Program.guarantees_makeWithParents _ parent).ensures (fun _ _ _ => id) (fun _ _ _ => id) trivial
      refine made.bind ?_
      rintro (problem | ⟨⟩) later _
      · exact fun _ _ => not_collides_file _ _ _
      · exact ensures_writeInto_not_collides output text later

theorem ensures_process_not_collides (plan : Plan) (input : Files.Path) (files : FileSystem) :
    (process plan input : Program _).Ensures anything (fun result _ => ¬ Collides result) files := by
  rw [process_eq]
  intro later _
  cases (Request.readText input).answer later with
  | error problem => exact fun _ _ => not_collides_file _ _ _
  | ok source =>
      have free := not_collides_generateText plan source
      rw [finish]
      split
      next failure failed =>
        rintro last _ ⟨output, list, collides⟩
        cases collides
        exact free ⟨output, list, failed⟩
      next text _ =>
        split
        · refine (ensures_writeOutput_not_collides _ text _).map ?_
          rintro result later free ⟨output, list, collides⟩
          cases result with
          | ok written => cases collides
          | error failure =>
              cases collides
              exact free ⟨output, list, rfl⟩
        · exact fun _ _ => not_collides_ok _

/-! Nothing is written, nothing collides: each input is read and its text is made. -/

/-- Others change nothing. -/
def nothing : Interference := ⟨fun files later => later = files, fun _ => rfl, fun h h' => h'.trans h⟩

/-- The outcome of an input that is read but not written. -/
def dry (plan : Plan) (files : FileSystem) (input : Files.Path) : Outcome :=
  ⟨input, ((files.readText input).mapError (.file .read input)).bind fun source =>
    (generateText plan source).map fun text => ⟨none, text⟩⟩

theorem finish_of_dry (off : plan.writeFiles = false) (files : FileSystem) (input : Files.Path) :
    finish plan input (files.readText input) = .done (dry plan files input).result := by
  rw [dry]
  cases files.readText input with
  | error problem => rfl
  | ok source =>
      simp only [finish, off, Except.mapError, Except.bind]
      cases generateText plan source <;> rfl

theorem guarantees_runOne_dry (off : plan.writeFiles = false) (inputs : List Files.Path)
    (input : Files.Path) :
    (runOne plan (collisions plan inputs) input : Program _).Guarantees fun files later => files = later := by
  rw [runOne_eq_process (collision?_of_not_writes off inputs input), process_eq]
  refine .bind ⟨fun files => rfl, fun source => ?_⟩ fun _ => trivial
  cases source with
  | error problem => trivial
  | ok source =>
      rw [finish, off]
      split <;> trivial

theorem ensures_runOne_dry (off : plan.writeFiles = false) (inputs : List Files.Path)
    (input : Files.Path) (files : FileSystem) :
    (runOne plan (collisions plan inputs) input : Program _).Ensures nothing
      (fun outcome _ => dry plan files input = outcome) files := by
  rw [runOne_eq_process (collision?_of_not_writes off inputs input), process_eq]
  have read : (Program.ask (.readText input) (finish plan input)).Ensures nothing
      (fun result _ => dry plan files input = ⟨input, result⟩) files := by
    rintro later rfl
    have answer : (Request.readText input).answer later = later.readText input := rfl
    rw [answer, finish_of_dry off]
    exact fun _ _ => rfl
  exact read.map fun _ _ => id

/-- The files when the turn of a position comes. -/
def before (plan : Plan) (inputs : List Files.Path) (files : FileSystem) (index : Nat) : FileSystem :=
  (((inputs.take index).mapM (runOne plan (collisions plan inputs)) :
    StateM FileSystem (List Outcome)).run files).2

theorem getElem?_mapM {σ α β : Type} (f : α → StateM σ β) (l : List α) (s : σ) (index : Nat) :
    ((l.mapM f).run s).1[index]? =
      l[index]?.map fun a => ((f a).run (((l.take index).mapM f).run s).2).1 := by
  induction l generalizing s index with
  | nil => rfl
  | cons head tail ih =>
      rw [List.mapM_cons]
      cases index with
      | zero => rfl
      | succ index =>
          rw [List.take_succ_cons, List.mapM_cons]
          exact ih ((f head).run s).2 index

theorem getElem?_inTurn (plan : Plan) (inputs : List Files.Path) (files : FileSystem) (index : Nat) :
    (inTurn plan inputs files).1[index]? = inputs[index]?.map fun input =>
      ((runOne plan (collisions plan inputs) input : StateM FileSystem Outcome).run
        (before plan inputs files index)).1 :=
  getElem?_mapM (runOne plan (collisions plan inputs)) inputs files index

variable {files last : FileSystem} {outcomes : List Outcome}

theorem outcomes_eq_dry (off : plan.writeFiles = false)
    (ends : Execution plan inputs files outcomes last) :
    last = files ∧ outcomes = inputs.map (dry plan files) := by
  have own : ∀ program ∈ inputs.map fun input =>
      (runOne plan (collisions plan inputs) input : Program Outcome),
        program.Guarantees fun files later => files = later := by
    intro program member
    obtain ⟨input, -, rfl⟩ := List.mem_map.mp member
    exact guarantees_runOne_dry off inputs input
  constructor
  · have reached := Pool.Ends.reaches own ends
    rw [Relation.reflTransGen_eq_self] at reached
    exact reached.symm
  · have agreement : Pool.Agreement inputs (fun _ => True) (fun _ => nothing)
        fun _ files later => files = later :=
      ⟨fun _ _ _ _ _ _ => trivial, fun _ _ _ _ _ _ _ _ _ _ => Eq.symm⟩
    have each := agreement.forall₂ trivial (fun input _ => guarantees_runOne_dry off inputs input)
      (fun input _ => ensures_runOne_dry off inputs input files) ends
    have same := List.forall₂_map_left_iff.mpr each
    rw [List.forall₂_eq_eq_eq] at same
    exact same.symm

/-- Whatever others do, an input comes to its collision, or to a result that is none. -/
theorem ensures_runOne (plan : Plan) (inputs : List Files.Path) (input : Files.Path)
    (files : FileSystem) : (runOne plan (collisions plan inputs) input : Program _).Ensures anything
      (fun outcome _ => outcome.input = input ∧
        (∀ failure, collision? plan inputs input = some failure → outcome.result = .error failure) ∧
        (collision? plan inputs input = none → ¬ Collides outcome.result)) files := by
  cases collides : collision? plan inputs input with
  | some failure =>
      rw [runOne_eq_pure collides]
      refine fun _ _ => ⟨rfl, ?_, fun none => (nomatch none)⟩
      rintro _ ⟨⟩
      rfl
  | none =>
      rw [runOne_eq_process collides]
      refine (ensures_process_not_collides plan input files).bind ?_
      intro result later free last _
      exact ⟨rfl, fun _ some => (nomatch some), fun _ => free⟩

theorem forall₂_outcomes (ends : Execution plan inputs files outcomes last) :
    List.Forall₂ (fun input outcome => outcome.input = input ∧
      (∀ failure, collision? plan inputs input = some failure → outcome.result = .error failure) ∧
      (collision? plan inputs input = none → ¬ Collides outcome.result)) inputs outcomes := by
  have agreement : Pool.Agreement inputs (fun _ => True) (fun _ => anything) fun input files later =>
      collision? plan inputs input = none ∧ WritesAt (plan.output input) files later :=
    ⟨fun _ _ _ _ _ _ => trivial, fun _ _ _ _ _ _ _ _ _ _ _ => trivial⟩
  exact agreement.forall₂ trivial (fun input _ => guarantees_runOne plan inputs input)
    (fun input _ => ensures_runOne plan inputs input files) ends

/-- Reported as collisions are the inputs that share their output, all in the same way, and they are
let alone; every other input is processed. Where nothing is written, each input is read, and no file
changes. -/
theorem collisions_exact (ends : Execution plan inputs files outcomes last) :
    outcomes.map Outcome.input = inputs ∧
    (plan.writeFiles = true → ∀ (index : Nat) (input : Files.Path) (outcome : Outcome),
      inputs[index]? = some input → outcomes[index]? = some outcome →
      (Collides outcome.result ↔ Shares plan inputs index input) ∧
      (Shares plan inputs index input →
        (∃ first rest, outcome.result = .error (.collision (plan.output first) (first :: rest)) ∧
          first :: rest = inputs.filter fun other =>
            (plan.output other).components == (plan.output input).components) ∧
        (∀ (at_ : Nat) (other : Files.Path) (same : Outcome), inputs[at_]? = some other →
          outcomes[at_]? = some same →
          (plan.output other).components = (plan.output input).components →
          same.result = outcome.result) ∧
        ∀ (m : Type → Type) [Monad m] [FileAccess m],
          (runOne plan (collisions plan inputs) input : m Outcome) = pure outcome) ∧
      (¬ Shares plan inputs index input →
        (∀ (m : Type → Type) [Monad m] [FileAccess m],
          (runOne plan (collisions plan inputs) input : m Outcome) = do
            return ⟨input, ← process plan input⟩) ∧
        (inTurn plan inputs files).1[index]? = some ⟨input,
          ((process plan input : StateM FileSystem _).run (before plan inputs files index)).1⟩)) ∧
    (plan.writeFiles = false → last = files ∧ outcomes = inputs.map (dry plan files)) := by
  have each := forall₂_outcomes ends
  refine ⟨?_, ?_, fun off => outcomes_eq_dry off ends⟩
  · have same : List.Forall₂ (fun input outcome => input = Outcome.input outcome) inputs outcomes :=
      each.imp fun _ _ facts => facts.1.symm
    rw [← List.forall₂_map_right_iff, List.forall₂_eq_eq_eq] at same
    exact same.symm
  · intro writes index input outcome here found
    obtain ⟨own, reported, processed⟩ := of_forall₂ each here found
    refine ⟨⟨?_, ?_⟩, ?_, ?_⟩
    · intro collides
      by_contra alone
      exact processed (collision?_of_alone here alone) collides
    · intro shares
      obtain ⟨_, _, -, collides⟩ := collision?_of_shares writes here shares
      exact ⟨_, _, reported _ collides⟩
    · intro shares
      obtain ⟨first, rest, all, collides⟩ := collision?_of_shares writes here shares
      have result := reported _ collides
      refine ⟨⟨first, rest, ?_, all.symm⟩, ?_, ?_⟩
      · rw [result, all]
      · intro at_ other same there found' equal
        obtain ⟨-, reported', -⟩ := of_forall₂ each there found'
        rw [result]
        apply reported'
        rw [collision?_eq_some_iff writes (List.mem_of_getElem? there)]
        exact (reports_of_collision? collides).congr equal.symm
      · intro m _ _
        have whole : (⟨input, .error (.collision (plan.output first) (rivals plan inputs input))⟩ : Outcome) =
            outcome := by
          rw [← result, ← own]
        rw [runOne_eq_pure collides, whole]
    · intro alone
      have none := collision?_of_alone here alone
      refine ⟨fun m _ _ => runOne_eq_process none, ?_⟩
      rw [getElem?_inTurn, here, Option.map_some, runOne_eq_process none]
      rfl

/-- The first and the last of these have the same output, written in two ways. -/
def spelledTwice : List Files.Path := [⟨"a/u.json"⟩, ⟨"v.json"⟩, ⟨"a//u.txt"⟩]

theorem collisions_exact_spelledTwice : ∃ first second third : Outcome,
    (inTurn beside spelledTwice default).1 = [first, second, third] ∧ Collides first.result ∧
      ¬ Collides second.result ∧ third.result = first.result := by
  obtain ⟨inputs, facts, -⟩ := collisions_exact (execution_inTurn beside spelledTwice default)
  obtain ⟨first, rest, whole, -, inputs⟩ := List.map_eq_cons_iff.mp inputs
  obtain ⟨second, rest, rfl, -, inputs⟩ := List.map_eq_cons_iff.mp inputs
  obtain ⟨third, rest, rfl, -, inputs⟩ := List.map_eq_cons_iff.mp inputs
  cases List.map_eq_nil_iff.mp inputs
  rw [whole] at facts
  have shares : Shares beside spelledTwice 0 ⟨"a/u.json"⟩ :=
    (shares_iff rfl).mpr (by decide +kernel)
  have alone : ¬ Shares beside spelledTwice 1 ⟨"v.json"⟩ := fun shares =>
    absurd ((shares_iff rfl).mp shares) (by decide +kernel)
  have one := facts rfl 0 _ first rfl rfl
  have two := facts rfl 1 _ second rfl rfl
  refine ⟨first, second, third, whole, one.1.mpr shares, fun h => alone (two.1.mp h), ?_⟩
  exact (one.2.1 shares).2.1 2 _ third rfl rfl (by decide +kernel)

end SwiftModel.Batch
