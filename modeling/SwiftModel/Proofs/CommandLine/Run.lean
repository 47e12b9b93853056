/- A run ends before its first change of a file, or accounts for all of its inputs. -/
import SwiftModel.CommandLine.Ending
import SwiftModel.Proofs.Batch.Written
import SwiftModel.Proofs.CommandLine.Resolution

namespace SwiftModel.CommandLine
open SwiftModel.Files SwiftModel.Batch

variable {arguments : Arguments} {world : World} {abort : Abort} {files last : FileSystem}
  {settings : Config.Settings} {lists : List (List Files.Path)} {outcomes : List Outcome}

/-- The report on the outcomes of a run. -/
def reportOn (arguments : Arguments) (outcomes : List Outcome) : Report :=
  .ofOutcomes (isGiven .stdout arguments.options) outcomes

/-- What is left of a run once it is prepared. -/
def processAll (arguments : Arguments) :
    Except Abort (Config.Settings × List Files.Path) → Program (Except Abort Report)
  | .error abort => .done (.error abort)
  | .ok (settings, inputs) => (run (plan arguments settings) inputs : Program _).bind fun outcomes =>
      .done (.ok (reportOn arguments outcomes))

theorem execute_eq (arguments : Arguments) :
    execute arguments = (prepare arguments).bind (processAll arguments) := by
  rw [prepare, Program.bind_assoc]
  refine congrArg (Program.bind (configure arguments.options)) (funext fun configured => ?_)
  cases configured with
  | error abort => rfl
  | ok settings =>
      dsimp only
      rw [Program.bind_assoc]
      refine congrArg (Program.bind (resolveAll _)) (funext fun resolved => ?_)
      cases resolved <;> rfl

theorem ending_eq (arguments : Arguments) : arguments.ending =
    (execute arguments : Program _).bind fun
      | .error abort => .done abort.ending
      | .ok report => .done report.ending := rfl

/-! A run that ends early does so while it is prepared, and has only read by then. -/

theorem under_execute_eq_error :
    (execute arguments : Program _).under world = .error abort ↔ Aborts arguments world abort := by
  rw [execute_eq, Program.under_bind, ← under_prepare_eq_error]
  cases (prepare arguments).under world with
  | error other => exact ⟨fun same => congrArg Except.error (Except.error.inj same), fun same => same ▸ rfl⟩
  | ok prepared =>
      simp only [processAll, Program.under_bind]
      exact ⟨fun same => (nomatch same), fun same => (nomatch same)⟩

theorem requests_execute (aborts : Aborts arguments world abort) :
    (execute arguments : Program _).requests world = (prepare arguments).requests world := by
  rw [execute_eq, Program.requests_bind, under_prepare_eq_error.mpr aborts]
  exact List.append_nil _

theorem under_ending (aborts : Aborts arguments world abort) :
    (arguments.ending : Program _).under world = abort.ending := by
  rw [ending_eq, Program.under_bind, under_execute_eq_error.mpr aborts]
  rfl

theorem requests_ending (aborts : Aborts arguments world abort) :
    (arguments.ending : Program _).requests world = (execute arguments : Program _).requests world := by
  rw [ending_eq, Program.requests_bind, under_execute_eq_error.mpr aborts]
  exact List.append_nil _

/-- Nothing else ends a run early: it has its settings, and the paths of its patterns. -/
theorem aborts_or_resolves (arguments : Arguments) (world : World) :
    (∃ abort, Aborts arguments world abort) ∨
      ∃ settings lists, Configures arguments.options world settings ∧
        List.Forall₂ (StandsFor world) (valuesOf .input arguments.options) lists := by
  cases prepared : (prepare arguments).under world with
  | error abort => exact .inl ⟨abort, under_prepare_eq_error.mp prepared⟩
  | ok known =>
      obtain ⟨configures, lists, each, -⟩ := under_prepare_eq_ok.mp prepared
      exact .inr ⟨_, lists, configures, each⟩

/-! On files, no file has changed by then, and what is found out is what is there. -/

theorem run_ending_of_aborts (aborts : Aborts arguments files.world abort) :
    (arguments.ending : Program _).run.run files = (abort.ending, files) := by
  have ran : (execute arguments : Program _).run.run files = (.error abort, files) := by
    rw [execute_eq, (onlyReads_prepare arguments).run_bind, under_prepare_eq_error.mpr aborts]
    rfl
  rw [ending_eq, Program.run_bind_of_eq ran]
  rfl

theorem run_ending_of_resolves (configures : Configures arguments.options files.world settings)
    (each : List.Forall₂ (StandsFor files.world) (valuesOf .input arguments.options) lists) :
    (arguments.ending : Program _).run.run files =
      ((reportOn arguments (inTurn (plan arguments settings) lists.flatten files).1).ending,
        (inTurn (plan arguments settings) lists.flatten files).2) := by
  have prepared := under_prepare_eq_ok.mpr ⟨configures, lists, each, rfl⟩
  have ran : (execute arguments : Program _).run.run files =
      (.ok (reportOn arguments (inTurn (plan arguments settings) lists.flatten files).1),
        (inTurn (plan arguments settings) lists.flatten files).2) := by
    rw [execute_eq, (onlyReads_prepare arguments).run_bind, prepared, processAll,
      Program.run_bind_of_eq (run_run _ _ files)]
    rfl
  rw [ending_eq, Program.run_bind_of_eq ran]
  rfl

/-! What is printed and the code that a run exits with. -/

theorem succeeded_reportOn (arguments : Arguments) (outcomes : List Outcome) :
    (reportOn arguments outcomes).succeeded = true ↔ ∀ outcome ∈ outcomes, outcome.failed = false := by
  have none : failureCount outcomes = 0 ↔ ∀ outcome ∈ outcomes, outcome.failed = false := by
    rw [failureCount, List.countP_eq_zero]
    exact forall₂_congr fun outcome _ => Bool.not_eq_true _ ▸ .rfl
  exact decide_eq_true_iff.trans none

theorem code_ending (arguments : Arguments) (outcomes : List Outcome) :
    (∀ outcome ∈ outcomes, outcome.failed = false) ∧ (reportOn arguments outcomes).ending.code = 0 ∨
      (∃ outcome ∈ outcomes, outcome.failed = true) ∧ (reportOn arguments outcomes).ending.code = 1 := by
  have told := succeeded_reportOn arguments outcomes
  rw [Report.ending]
  cases succeeded : (reportOn arguments outcomes).succeeded with
  | true => exact .inl ⟨told.mp succeeded, rfl⟩
  | false =>
      have some : ¬ ∀ outcome ∈ outcomes, outcome.failed = false := by
        rw [← told, succeeded]
        exact Bool.false_ne_true
      push Not at some
      obtain ⟨outcome, member, failed⟩ := some
      exact .inr ⟨⟨outcome, member, Bool.ne_false_iff.mp failed⟩, rfl⟩

/-- What is printed of an outcome where texts are printed: the text, behind a line with the path of the input
if there are several, and nothing of a failure. -/
inductive Prints (several : Prop) (outcome : Outcome) : String → Prop
  | alone {emitted : Emitted} : outcome.result = .ok emitted → ¬ several → Prints several outcome emitted.text
  | headed {emitted : Emitted} : outcome.result = .ok emitted → several →
    Prints several outcome ("// " ++ outcome.input.text ++ "\n" ++ emitted.text)
  | failed {failure : Failure} : outcome.result = .error failure → Prints several outcome ""

theorem prints_outcomeText (several : Prop) [Decidable several] (outcome : Outcome) :
    Prints several outcome (outcomeText true several outcome) := by
  cases known : outcome.result with
  | error failure =>
      have text : outcomeText true several outcome = "" := by rw [outcomeText, known]
      rw [text]
      exact .failed known
  | ok emitted =>
      have text : outcomeText true several outcome = outputText several outcome.input emitted := by
        rw [outcomeText, known]
        rfl
      rw [text, outputText]
      by_cases more : several
      · rw [if_pos (decide_eq_true more)]
        exact .headed known more
      · rw [if_neg fun same => more (of_decide_eq_true same), String.empty_append]
        exact .alone known more

/-- What is printed where texts are printed, outcome by outcome. -/
theorem exists_prints (toOutput : isGiven .stdout arguments.options = true) (outcomes : List Outcome) :
    ∃ texts, List.Forall₂ (Prints (1 < outcomes.length)) outcomes texts ∧
      (reportOn arguments outcomes).ending.output = String.join texts := by
  refine ⟨outcomes.map (outcomeText true (1 < outcomes.length)), ?_, ?_⟩
  · exact List.forall₂_map_right_iff.mpr
      (List.forall₂_same.mpr fun outcome _ => prints_outcomeText (1 < outcomes.length) outcome)
  · rw [Report.ending, reportOn, toOutput, Report.ofOutcomes]

theorem outcomeText_false (several : Bool) (outcome : Outcome) : outcomeText false several outcome = "" := by
  rw [outcomeText]
  cases outcome.result <;> rfl

theorem output_ending_eq_empty (toFiles : isGiven .stdout arguments.options = false) (outcomes : List Outcome) :
    (reportOn arguments outcomes).ending.output = "" := by
  rw [Report.ending, reportOn, toFiles, Report.ofOutcomes]
  dsimp only
  rw [List.map_congr_left fun outcome _ => outcomeText_false _ outcome, List.map_const']
  induction outcomes.length with
  | zero => rfl
  | succ count ih =>
      rw [List.replicate_succ, String.join_cons, ih]
      rfl

/-- Each input has one outcome, in order, and the exit code tells whether one failed. What succeeds was
written, or it is printed in order and no file has changed, whatever became of the others. -/
structure Accounts (arguments : Arguments) (settings : Config.Settings) (inputs : List Files.Path)
    (files : FileSystem) (outcomes : List Outcome) (ending : Ending) (last : FileSystem) : Prop where
  each : outcomes.map Outcome.input = inputs
  code : (∀ outcome ∈ outcomes, outcome.failed = false) ∧ ending.code = 0 ∨
    (∃ outcome ∈ outcomes, outcome.failed = true) ∧ ending.code = 1
  written : isGiven .stdout arguments.options = false → ending.output = "" ∧
    ∀ (index : Nat) (outcome : Outcome) (emitted : Emitted), outcomes[index]? = some outcome →
      outcome.result = .ok emitted →
        emitted.output = some ((plan arguments settings).output outcome.input) ∧
        (begun (plan arguments settings) inputs files).Passes outcomes last index outcome fun now =>
          now.readText ((plan arguments settings).output outcome.input) = .ok emitted.text
  survives : isGiven .stdout arguments.options = false →
    ToldApart (plan arguments settings) inputs files.current → ∀ outcome ∈ outcomes, outcome.Survives last
  printed : isGiven .stdout arguments.options = true → last = files ∧
    (∀ outcome ∈ outcomes, ∀ emitted, outcome.result = .ok emitted → emitted.output = none) ∧
    ∃ texts, List.Forall₂ (Prints (1 < outcomes.length)) outcomes texts ∧ ending.output = String.join texts

theorem accounts_of_execution {inputs : List Files.Path}
    (ends : Execution (plan arguments settings) inputs files outcomes last) :
    Accounts arguments settings inputs files outcomes (reportOn arguments outcomes).ending last := by
  have chosen : (plan arguments settings).writeFiles = !isGiven .stdout arguments.options := rfl
  have on (toFiles : isGiven .stdout arguments.options = false) :
      (plan arguments settings).writeFiles = true := by
    rw [chosen, toFiles]
    rfl
  refine ⟨inputs_of_execution ends, code_ending arguments outcomes, ?_, ?_, ?_⟩
  · refine fun toFiles => ⟨output_ending_eq_empty toFiles outcomes, ?_⟩
    intro index outcome emitted found ok
    obtain ⟨moment, steps, done, holds, rest⟩ := passes_of_ok ends found ok
    rw [Emitted.Holds, if_pos (on toFiles)] at holds
    exact ⟨holds.1, moment, steps, done, holds.2, rest⟩
  · exact fun toFiles told => survives_of_toldApart (on toFiles) told ends
  · intro toOutput
    have off : (plan arguments settings).writeFiles = false := by
      rw [chosen, toOutput]
      rfl
    refine ⟨(outcomes_eq_dry off ends).1, fun outcome member emitted ok => ?_, exists_prints toOutput outcomes⟩
    obtain ⟨index, found⟩ := List.mem_iff_getElem?.mp member
    obtain ⟨moment, -, -, holds, -⟩ := passes_of_ok ends found ok
    rwa [Emitted.Holds, if_neg (Bool.eq_false_iff.mp off)] at holds

/-- A run ends early exactly if its configuration fails or one of its patterns does, wherever it stands;
then it has only read, all that it says is what went wrong, and the files are as they were. Any other
run accounts for the paths of all its patterns, in whatever order they are processed. -/
theorem run_aborts_or_accounts (arguments : Arguments) :
    (∀ world abort, (execute arguments : Program _).under world = .error abort ↔
      Aborts arguments world abort) ∧
    (∀ world abort, Aborts arguments world abort →
      (arguments.ending : Program _).under world = ⟨"", "error: " ++ abort.message ++ "\n", 2⟩ ∧
      ∀ request ∈ (arguments.ending : Program _).requests world, request.Reads) ∧
    ∀ files : FileSystem,
      (∀ abort, Aborts arguments files.world abort → (arguments.ending : Program _).run.run files =
        (⟨"", "error: " ++ abort.message ++ "\n", 2⟩, files)) ∧
      ((¬ ∃ abort, Aborts arguments files.world abort) → ∃ settings lists,
        Configures arguments.options files.world settings ∧
        List.Forall₂ (StandsFor files.world) (valuesOf .input arguments.options) lists ∧
        (∃ outcomes last, Execution (plan arguments settings) lists.flatten files outcomes last ∧
          (arguments.ending : Program _).run.run files = ((reportOn arguments outcomes).ending, last)) ∧
        ∀ outcomes last, Execution (plan arguments settings) lists.flatten files outcomes last →
          Accounts arguments settings lists.flatten files outcomes
            (reportOn arguments outcomes).ending last) := by
  refine ⟨fun _ _ => under_execute_eq_error, ?_, fun files => ⟨?_, ?_⟩⟩
  · intro world abort aborts
    rw [under_ending aborts, requests_ending aborts, requests_execute aborts]
    exact ⟨rfl, (onlyReads_prepare arguments).requests world⟩
  · exact fun abort => run_ending_of_aborts
  · intro goesOn
    obtain ⟨settings, lists, configures, each⟩ :=
      (aborts_or_resolves arguments files.world).resolve_left goesOn
    exact ⟨settings, lists, configures, each,
      ⟨_, _, execution_inTurn _ _ files, run_ending_of_resolves configures each⟩,
      fun outcomes last => accounts_of_execution⟩

/-- A document, and a text that is none. -/
def mixedFiles : FileSystem :=
  ⟨[(["good.json"], .file (.text "\x7b\"a\":1\x7d")), (["bad.json"], .file (.text "\x7b"))], []⟩

def twoInputs : Arguments := ⟨.json, [], [⟨.input, ["good.json", "bad.json"]⟩]⟩

def twoPrinted : Arguments := ⟨.json, [], [⟨.input, ["good.json", "bad.json"]⟩, ⟨.stdout, []⟩]⟩

/-- The last of the patterns matches nothing. -/
def lastUnmatched : Arguments := ⟨.json, [], [⟨.input, ["good.json", "docs/*.json"]⟩]⟩

theorem run_aborts_or_accounts_mixed :
    (Aborts lastUnmatched mixedFiles.world (.nothingMatched "docs/*.json") ∧
      (lastUnmatched.ending : Program _).run.run mixedFiles =
        ((Abort.nothingMatched "docs/*.json").ending, mixedFiles)) ∧
    ((¬ ∃ abort, Aborts twoInputs mixedFiles.world abort) ∧
      ∃ settings inputs outcomes last,
        (twoInputs.ending : Program _).run.run mixedFiles = ((reportOn twoInputs outcomes).ending, last) ∧
        Accounts twoInputs settings inputs mixedFiles outcomes (reportOn twoInputs outcomes).ending last) ∧
    (¬ ∃ abort, Aborts twoPrinted mixedFiles.world abort) ∧
      ∃ settings inputs outcomes last,
        (twoPrinted.ending : Program _).run.run mixedFiles = ((reportOn twoPrinted outcomes).ending, last) ∧
        Accounts twoPrinted settings inputs mixedFiles outcomes (reportOn twoPrinted outcomes).ending last := by
  have accounts (arguments : Arguments)
      (reports : ((execute arguments : Program _).under mixedFiles.world).isOk = true) :
      (¬ ∃ abort, Aborts arguments mixedFiles.world abort) ∧ ∃ settings inputs outcomes last,
        (arguments.ending : Program _).run.run mixedFiles = ((reportOn arguments outcomes).ending, last) ∧
        Accounts arguments settings inputs mixedFiles outcomes (reportOn arguments outcomes).ending last := by
    obtain ⟨exactly, -, onFiles⟩ := run_aborts_or_accounts arguments
    have goesOn : ¬ ∃ abort, Aborts arguments mixedFiles.world abort := by
      rintro ⟨abort, aborts⟩
      rw [(exactly mixedFiles.world abort).mpr aborts] at reports
      cases reports
    obtain ⟨settings, lists, -, -, ⟨outcomes, last, ends, ran⟩, all⟩ := (onFiles mixedFiles).2 goesOn
    exact ⟨goesOn, settings, lists.flatten, outcomes, last, ran, all outcomes last ends⟩
  refine ⟨?_, accounts twoInputs (by decide +kernel), accounts twoPrinted (by decide +kernel)⟩
  obtain ⟨exactly, -, onFiles⟩ := run_aborts_or_accounts lastUnmatched
  have aborts := (exactly mixedFiles.world (.nothingMatched "docs/*.json")).mp (by decide +kernel)
  exact ⟨aborts, (onFiles mixedFiles).1 _ aborts⟩

end SwiftModel.CommandLine
