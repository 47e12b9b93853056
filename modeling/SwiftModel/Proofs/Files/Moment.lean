/- The moment at which one of many programs is done. What it leaves then may be changed by the others
later; that it was there, no other can undo. -/
import SwiftModel.Proofs.Files.Interference

namespace SwiftModel.Files

namespace Program

variable {α β : Type} {program : Program α} {files : FileSystem}

/-- Whatever the files are at each of its steps, they have a property when the program is done. -/
def Leaves (post : α → FileSystem → Prop) : Program α → FileSystem → Prop
  | .done result, files => post result files
  | .ask request next, _ => ∀ now, (next (request.answer now)).Leaves post (request.after now)

theorem Leaves.map {post : α → FileSystem → Prop} {last : β → FileSystem → Prop} {f : α → β}
    (h : program.Leaves post files)
    (implies : ∀ result later, post result later → last (f result) later) :
    (program.bind fun result => .done (f result)).Leaves last files := by
  induction program generalizing files with
  | done result => exact implies result files h
  | ask request next ih => exact fun now => ih _ (h now)

/-- Only what comes last decides what is left. -/
theorem leaves_bind {last : β → FileSystem → Prop} {next : α → Program β}
    (rest : ∀ result later, (next result).Leaves last later) (program : Program α) (files : FileSystem) :
    (program.bind next).Leaves last files := by
  induction program generalizing files with
  | done result => exact rest result files
  | ask request more ih => exact fun now => ih _ _

end Program

namespace Pool

variable {α : Type} {pool next : Pool α} {results : List α} {last : FileSystem} {index : Nat} {result : α}

/-- A program that is done stays as it is. -/
theorem Step.done (step : Step pool next) (h : pool.programs[index]? = some (.done result)) :
    next.programs[index]? = some (.done result) := by
  cases step with
  | @ask files programs at_ request rest asks =>
      rw [List.getElem?_set_ne, h]
      rintro rfl
      cases asks.symm.trans h

/-- A program that is done has come to the result that it has at the end. -/
theorem Ends.done (ends : pool.Ends results last) (h : pool.programs[index]? = some (.done result)) :
    results[index]? = some result := by
  induction ends using Relation.ReflTransGen.head_induction_on with
  | refl =>
      rw [List.getElem?_map] at h
      obtain ⟨_, found, ⟨⟩⟩ := Option.map_eq_some_iff.mp h
      exact found
  | head step _ ih => exact ih (step.done h)

/-- A program that is not done goes on in its own step, and waits in another's. -/
theorem Step.leaves {post : α → FileSystem → Prop} {request : Request} {rest : request.Answer → Program α}
    (step : Step pool next) (h : pool.programs[index]? = some (.ask request rest))
    (leaves : (Program.ask request rest).Leaves post pool.files) :
    ∃ program, next.programs[index]? = some program ∧ program.Leaves post next.files := by
  cases step with
  | @ask files programs at_ other more asks =>
      by_cases same : at_ = index
      · subst same
        cases h.symm.trans asks
        have bound := (List.getElem?_eq_some_iff.mp asks).1
        exact ⟨_, List.getElem?_set_self bound, leaves files⟩
      · exact ⟨_, (List.getElem?_set_ne same).trans h, leaves⟩

/-- On the way from a pool to its end, a program is done, and the files have a property. -/
def Passes (pool : Pool α) (results : List α) (last : FileSystem) (index : Nat) (result : α)
    (holds : FileSystem → Prop) : Prop :=
  ∃ moment : Pool α, Relation.ReflTransGen Step pool moment ∧
    moment.programs[index]? = some (.done result) ∧ holds moment.files ∧ moment.Ends results last

/-- What a program leaves behind when it is done is there at some moment. -/
theorem Ends.passes {post : α → FileSystem → Prop} {program : Program α} (ends : pool.Ends results last)
    (here : pool.programs[index]? = some program) (leaves : program.Leaves post pool.files)
    (found : results[index]? = some result) : pool.Passes results last index result (post result) := by
  induction ends using Relation.ReflTransGen.head_induction_on generalizing program with
  | refl =>
      have done : (results.map Program.done)[index]? = some (.done result) := by
        rw [List.getElem?_map, found]
        rfl
      cases here.symm.trans done
      exact ⟨_, .refl, done, leaves, .refl⟩
  | @head before _ step rest ih =>
      cases program with
      | done other =>
          cases found.symm.trans (Ends.done (.head step rest) here)
          exact ⟨before, .refl, here, leaves, .head step rest⟩
      | ask request next =>
          obtain ⟨more, there, leaves⟩ := step.leaves here leaves
          obtain ⟨moment, steps, done, holds, ends⟩ := ih there leaves
          exact ⟨moment, .head step steps, done, holds, ends⟩

end Pool

end SwiftModel.Files
