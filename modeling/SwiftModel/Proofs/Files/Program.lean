/- Programs as the operations that they ask for, and programs that run side by side on the same
files. The steps of different programs may come in any order. -/
import Mathlib.Logic.Relation
import SwiftModel.Files.Access

namespace SwiftModel.Files

/-- One operation on files. -/
inductive Request
  | readText (path : Path)
  | writeText (path : Path) (text : String)
  | makeDirectory (path : Path)
  | kind? (path : Path)
  | names (path : Path)

/-- What an operation tells. -/
abbrev Request.Answer : Request → Type
  | .readText _ => Except Problem String
  | .writeText .. | .makeDirectory _ => Except Problem Unit
  | .kind? _ => Option EntryKind
  | .names _ => Except Problem (List String)

def Request.perform : (request : Request) → StateM FileSystem request.Answer
  | .readText path => FileAccess.readText path
  | .writeText path text => FileAccess.writeText path text
  | .makeDirectory path => FileAccess.makeDirectory path
  | .kind? path => FileAccess.kind? path
  | .names path => FileAccess.names path

/-- The answer to a request, and the files after it. -/
def Request.answer (request : Request) (files : FileSystem) : request.Answer :=
  (request.perform.run files).1

def Request.after (request : Request) (files : FileSystem) : FileSystem :=
  (request.perform.run files).2

/-- A program asks for an operation and goes on with the answer, until it has its result. -/
inductive Program (α : Type)
  | done (result : α)
  | ask (request : Request) (next : request.Answer → Program α)

namespace Program

variable {α β : Type}

def bind (program : Program α) (next : α → Program β) : Program β :=
  match program with
  | .done result => next result
  | .ask request rest => .ask request fun answer => (rest answer).bind next

instance : Monad Program where
  pure := .done
  bind := bind

instance : FileAccess Program where
  readText path := .ask (.readText path) .done
  writeText path text := .ask (.writeText path text) .done
  makeDirectory path := .ask (.makeDirectory path) .done
  kind? path := .ask (.kind? path) .done
  names path := .ask (.names path) .done

/-- A program on its own: its requests are answered one after the other. -/
def run : Program α → StateM FileSystem α
  | .done result => pure result
  | .ask request next => fun files => (next (request.answer files)).run (request.after files)

@[simp] theorem bind_eq (program : Program α) (next : α → Program β) :
    program >>= next = program.bind next := rfl

@[simp] theorem pure_eq (result : α) : (pure result : Program α) = .done result := rfl

theorem bind_assoc {γ : Type} (program : Program α) (first : α → Program β) (second : β → Program γ) :
    (program.bind first).bind second = program.bind fun result => (first result).bind second := by
  induction program with
  | done result => rfl
  | ask request rest ih => exact congrArg (Program.ask request) (funext fun answer => ih answer)

theorem run_bind (program : Program α) (next : α → Program β) :
    (program.bind next).run = program.run >>= fun result => (next result).run := by
  induction program with
  | done result => rfl
  | ask request rest ih =>
      funext files
      exact congrFun (ih (request.answer files)) (request.after files)

theorem fst_run_bind (program : Program α) (next : α → Program β) (files : FileSystem) :
    ((program.bind next).run.run files).1 =
      ((next (program.run.run files).1).run.run (program.run.run files).2).1 := by
  rw [run_bind]
  rfl

theorem run_mapM (program : β → Program α) (l : List β) :
    (l.mapM program).run = l.mapM fun b => (program b).run := by
  suffices behind : ∀ done : List α, (List.mapM.loop program l done).run =
      List.mapM.loop (fun b => (program b).run) l done from behind []
  induction l with
  | nil => exact fun _ => rfl
  | cons head tail ih =>
      intro done
      simp only [List.mapM.loop, bind_eq, run_bind]
      congr 1
      funext result
      exact ih (result :: done)

/-! The operations that every world offers are the same, asked for or done. -/

@[simp] theorem run_done (result : α) : (Program.done result).run = pure result := rfl

theorem run_isDirectory (path : Path) : (isDirectory path : Program Bool).run = isDirectory path := by
  simp only [isDirectory, bind_eq, run_bind]
  rfl

theorem run_makeIfAbsent (path : Path) :
    (makeIfAbsent path : Program _).run = makeIfAbsent path := by
  simp only [makeIfAbsent, bind_eq, run_bind]
  congr 1
  funext made
  split
  next => rfl
  next =>
    rw [run_bind, run_isDirectory]
    rfl

theorem run_makeWithParents (levels : Nat) (path : Path) :
    (makeWithParents levels path : Program _).run = makeWithParents levels path := by
  induction levels generalizing path with
  | zero => rfl
  | succ levels ih =>
      simp only [makeWithParents, bind_eq]
      split
      · rfl
      · rw [run_bind]
        congr 1
        funext made
        split
        next => rfl
        next =>
          split
          next => rfl
          next parent _ =>
            rw [run_bind, ih]
            congr 1
            funext above
            split
            · rfl
            · exact run_makeIfAbsent path
        next =>
          rw [run_bind, run_isDirectory]
          rfl

theorem run_makeDirectories (path : Path) :
    (makeDirectories path : Program _).run = makeDirectories path := run_makeWithParents _ path

end Program

/-- Files, and programs at work on them. -/
structure Pool (α : Type) where
  files : FileSystem
  programs : List (Program α)

namespace Pool

variable {α : Type}

/-- One of the programs has its next request answered. -/
inductive Step : Pool α → Pool α → Prop
  | ask {files : FileSystem} {programs : List (Program α)} {index : Nat} {request : Request}
      {next : request.Answer → Program α} : programs[index]? = some (.ask request next) →
      Step ⟨files, programs⟩
        ⟨request.after files, programs.set index (next (request.answer files))⟩

/-- The programs come to these results, and leave these files, with their steps in some order. -/
def Ends (pool : Pool α) (results : List α) (files : FileSystem) : Prop :=
  Relation.ReflTransGen Step pool ⟨files, results.map .done⟩

/-- A program may run to its end while the others wait. -/
theorem steps_run (files : FileSystem) (before after : List (Program α)) (program : Program α) :
    Relation.ReflTransGen Step ⟨files, before ++ program :: after⟩
      ⟨(program.run.run files).2, before ++ .done (program.run.run files).1 :: after⟩ := by
  induction program generalizing files with
  | done result => exact .refl
  | ask request next ih =>
      have here : (before ++ .ask request next :: after)[before.length]? = some (.ask request next) := by
        simp
      have step : Step ⟨files, before ++ .ask request next :: after⟩ _ := Step.ask here
      rw [List.set_append_right _ _ (Nat.le_refl _), Nat.sub_self, List.set_cons_zero] at step
      exact .head step (ih (request.answer files) (request.after files))

/-- To run programs one after the other is one of the orders. -/
theorem ends_mapM {β : Type} (program : β → Program α) (inputs : List β) (files : FileSystem) :
    Ends ⟨files, inputs.map program⟩ ((inputs.mapM fun input => (program input).run).run files).1
      ((inputs.mapM fun input => (program input).run).run files).2 := by
  suffices behind : ∀ (done : List α) (files : FileSystem),
      Relation.ReflTransGen Step ⟨files, done.map .done ++ inputs.map program⟩
        ⟨((inputs.mapM fun input => (program input).run).run files).2,
          (done ++ ((inputs.mapM fun input => (program input).run).run files).1).map .done⟩ by
    exact behind [] files
  induction inputs with
  | nil =>
      intro done files
      simp only [List.map_nil, List.append_nil, List.mapM_nil]
      exact List.append_nil _ ▸ .refl
  | cons input inputs ih =>
      intro done files
      rw [List.map_cons, List.mapM_cons]
      refine .trans (steps_run files (done.map .done) (inputs.map program) (program input)) ?_
      have rest := ih (done ++ [((program input).run.run files).1]) ((program input).run.run files).2
      rw [List.map_append, List.append_assoc, List.append_assoc] at rest
      exact rest

end Pool

end SwiftModel.Files
