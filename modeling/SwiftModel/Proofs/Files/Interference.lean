/- What a program comes to while others change the files between its steps, and what it lets others
rely on. -/
import Mathlib.Data.List.Forall2
import SwiftModel.Proofs.Files.Program

namespace SwiftModel.Files

/-- What may happen to the files between two steps of a program. -/
structure Interference where
  Allows : FileSystem → FileSystem → Prop
  refl : ∀ files, Allows files files
  trans : ∀ {first second third}, Allows first second → Allows second third → Allows first third

namespace Program

variable {α β : Type} {others : Interference} {program : Program α}
  {files : FileSystem}

/-- Whatever others do between its steps, the result of a program has a property, and keeps it. -/
def Ensures (others : Interference) (post : α → FileSystem → Prop) :
    Program α → FileSystem → Prop
  | .done result, files => ∀ later, others.Allows files later → post result later
  | .ask request next, files => ∀ later, others.Allows files later →
      (next (request.answer later)).Ensures others post (request.after later)

section Ensures

variable {post : α → FileSystem → Prop}

theorem Ensures.later {later : FileSystem} (h : program.Ensures others post files)
    (change : others.Allows files later) : program.Ensures others post later := by
  cases program with
  | done result => exact fun last more => h last (others.trans change more)
  | ask request next => exact fun last more => h last (others.trans change more)

theorem Ensures.bind {last : β → FileSystem → Prop} {next : α → Program β}
    (h : program.Ensures others post files)
    (rest : ∀ result later, post result later → (next result).Ensures others last later) :
    (program.bind next).Ensures others last files := by
  induction program generalizing files with
  | done result => exact rest result files (h files (others.refl files))
  | ask request more ih => exact fun later change => ih _ (h later change)

theorem Ensures.map {f : α → β} {last : β → FileSystem → Prop}
    (h : program.Ensures others post files)
    (implies : ∀ result later, post result later → last (f result) later) :
    (program.bind fun result => .done (f result)).Ensures others last files := by
  induction program generalizing files with
  | done result => exact fun later change => implies result later (h later change)
  | ask request more ih => exact fun later change => ih _ (h later change)

theorem Ensures.mono {wider : α → FileSystem → Prop} (h : program.Ensures others post files)
    (implies : ∀ result later, post result later → wider result later) :
    program.Ensures others wider files := by
  induction program generalizing files with
  | done result => exact fun later change => implies result later (h later change)
  | ask request next ih => exact fun later change => ih _ (h later change)

theorem Ensures.and {also : α → FileSystem → Prop} (h : program.Ensures others post files)
    (h' : program.Ensures others also files) :
    program.Ensures others (fun result later => post result later ∧ also result later) files := by
  induction program generalizing files with
  | done result => exact fun later change => ⟨h later change, h' later change⟩
  | ask request next ih => exact fun later change => ih _ (h later change) (h' later change)

/-- What holds among others holds of a program on its own. -/
theorem Ensures.run (h : program.Ensures others post files) :
    post (program.run.run files).1 (program.run.run files).2 := by
  induction program generalizing files with
  | done result => exact h files (others.refl files)
  | ask request next ih => exact ih _ (h files (others.refl files))

end Ensures

/-- Whatever it is answered, each step of a program is a change of this kind. -/
def Guarantees (change : FileSystem → FileSystem → Prop) : Program α → Prop
  | .done _ => True
  | .ask request next =>
    (∀ files, change files (request.after files)) ∧ ∀ answer, (next answer).Guarantees change

section Guarantees

variable {change : FileSystem → FileSystem → Prop}

theorem Guarantees.bind {next : α → Program β} (h : program.Guarantees change)
    (rest : ∀ result, (next result).Guarantees change) : (program.bind next).Guarantees change := by
  induction program with
  | done result => exact rest result
  | ask request more ih => exact ⟨h.1, fun answer => ih answer (h.2 answer)⟩

theorem Guarantees.mono {wider : FileSystem → FileSystem → Prop} (h : program.Guarantees change)
    (implies : ∀ files later, change files later → wider files later) : program.Guarantees wider := by
  induction program with
  | done result => trivial
  | ask request next ih =>
      exact ⟨fun files => implies _ _ (h.1 files), fun answer => ih answer (h.2 answer)⟩

/-- What neither the program nor the others change is kept to the end. -/
theorem Guarantees.ensures {kept : FileSystem → Prop} (h : program.Guarantees change)
    (own : ∀ files later, change files later → kept files → kept later)
    (among : ∀ files later, others.Allows files later → kept files → kept later)
    (holds : kept files) : program.Ensures others (fun _ => kept) files := by
  induction program generalizing files with
  | done result => exact fun later allowed => among files later allowed holds
  | ask request next ih =>
      intro later allowed
      exact ih _ (h.2 _) (own later _ (h.1 later) (among files later allowed holds))

end Guarantees

end Program

namespace Pool

/-- What every step of every program keeps is kept by the whole. -/
theorem Ends.reaches {α : Type} {change : FileSystem → FileSystem → Prop} {pool : Pool α}
    {results : List α} {last : FileSystem}
    (guarantees : ∀ program ∈ pool.programs, program.Guarantees change)
    (ends : pool.Ends results last) : Relation.ReflTransGen change pool.files last := by
  induction ends using Relation.ReflTransGen.head_induction_on with
  | refl => exact .refl
  | head step _ ih =>
      cases step with
      | @ask files programs at_ request rest asks =>
          have own := guarantees _ (List.mem_of_getElem? asks)
          refine .head (own.1 files) (ih ?_)
          intro program member
          rcases List.mem_or_eq_of_mem_set member with old | rfl
          · exact guarantees program old
          · exact own.2 _

/-- What programs may rely on when they work side by side: what holds of the files at all times, and
that each puts up with what the others do. -/
structure Agreement {β : Type} (inputs : List β) (always : FileSystem → Prop)
    (others : β → Interference) (change : β → FileSystem → FileSystem → Prop) : Prop where
  kept : ∀ input ∈ inputs, ∀ files later, always files → change input files later → always later
  tolerated : ∀ (index at_ : Nat) input other, index ≠ at_ → inputs[index]? = some input →
    inputs[at_]? = some other → ∀ files later, always files → change other files later →
      (others input).Allows files later

variable {α β : Type} {inputs : List β} {always : FileSystem → Prop} {others : β → Interference}
  {change : β → FileSystem → FileSystem → Prop} {post : β → α → FileSystem → Prop}
  {pool next : Pool α}

/-- The program of each input guarantees its kind of change and ensures what is expected of it. -/
structure Keeps (inputs : List β) (always : FileSystem → Prop) (others : β → Interference)
    (change : β → FileSystem → FileSystem → Prop) (post : β → α → FileSystem → Prop)
    (pool : Pool α) : Prop where
  always : always pool.files
  length : pool.programs.length = inputs.length
  guarantees : ∀ (index : Nat) input (program : Program α), inputs[index]? = some input →
    pool.programs[index]? = some program → program.Guarantees (change input)
  ensures : ∀ (index : Nat) input (program : Program α), inputs[index]? = some input →
    pool.programs[index]? = some program → program.Ensures (others input) (post input) pool.files

/-- A step is the program's own, or it is one of the changes that the program puts up with. -/
theorem Keeps.step (keeps : pool.Keeps inputs always others change post)
    (agreement : Agreement inputs always others change) (step : Step pool next) :
    next.Keeps inputs always others change post := by
  cases step with
  | @ask files programs at_ request rest asks =>
      have bound : at_ < programs.length := (List.getElem?_eq_some_iff.mp asks).1
      obtain ⟨actor, acting⟩ : ∃ actor, inputs[at_]? = some actor :=
        ⟨_, List.getElem?_eq_getElem (keeps.length ▸ bound)⟩
      have own := keeps.guarantees at_ actor _ acting asks
      refine ⟨?_, ?_, ?_, ?_⟩
      · exact agreement.kept actor (List.mem_of_getElem? acting) files _ keeps.always (own.1 files)
      · rw [List.length_set]
        exact keeps.length
      · intro index input program known found
        by_cases same : at_ = index
        · subst same
          rw [List.getElem?_set_self bound] at found
          cases found
          exact (keeps.guarantees at_ input _ known asks).2 _
        · rw [List.getElem?_set_ne same] at found
          exact keeps.guarantees index input program known found
      · intro index input program known found
        by_cases same : at_ = index
        · subst same
          rw [List.getElem?_set_self bound] at found
          cases found
          exact keeps.ensures at_ input _ known asks files ((others input).refl files)
        · rw [List.getElem?_set_ne same] at found
          have allowed := agreement.tolerated index at_ input actor (Ne.symm same) known acting files _
            keeps.always (own.1 files)
          exact (keeps.ensures index input program known found).later allowed

/-- However the steps of the programs are ordered, each comes to what is expected of it. -/
theorem Agreement.forall₂ {program : β → Program α} {files last : FileSystem} {results : List α}
    (agreement : Agreement inputs always others change) (holds : always files)
    (guarantees : ∀ input ∈ inputs, (program input).Guarantees (change input))
    (ensures : ∀ input ∈ inputs, (program input).Ensures (others input) (post input) files)
    (ends : Ends ⟨files, inputs.map program⟩ results last) :
    List.Forall₂ (fun input result => post input result last) inputs results := by
  have first : Keeps inputs always others change post ⟨files, inputs.map program⟩ := by
    refine ⟨holds, List.length_map .., ?_, ?_⟩
    all_goals
      intro index input _ known found
      rw [List.getElem?_map, known, Option.map_some, Option.some.injEq] at found
      subst found
    · exact guarantees input (List.mem_of_getElem? known)
    · exact ensures input (List.mem_of_getElem? known)
  have final : Keeps inputs always others change post ⟨last, results.map .done⟩ := by
    unfold Ends at ends
    generalize Pool.mk files (inputs.map program) = pool at ends first
    induction ends using Relation.ReflTransGen.head_induction_on with
    | refl => exact first
    | head step _ ih => exact ih (first.step agreement step)
  rw [List.forall₂_iff_get]
  have length := final.length
  rw [List.length_map] at length
  refine ⟨length.symm, ?_⟩
  intro index known found
  have done := final.ensures index (inputs.get ⟨index, known⟩) (.done (results.get ⟨index, found⟩))
    (by simp) (by simp)
  exact done last ((others _).refl last)

end Pool

end SwiftModel.Files
