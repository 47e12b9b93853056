/- Programs that only read: what they ask for, and what they come to, in a world that stays as it is.
A world may answer as no files would, as when an operating system keeps a directory to itself. -/
import SwiftModel.Proofs.Files.Program

namespace SwiftModel.Files

/-- What tells of files and changes none. -/
def Request.Reads : Request → Prop
  | .readText _ | .kind? _ | .names _ => True
  | .writeText .. | .makeDirectory _ => False

theorem Request.after_of_reads {request : Request} (reads : request.Reads) (files : FileSystem) :
    request.after files = files := by
  cases request with
  | readText | kind? | names => rfl
  | writeText | makeDirectory => cases reads

/-- One answer to each request. -/
def World := (request : Request) → request.Answer

def FileSystem.world (files : FileSystem) : World := fun request => request.answer files

namespace Program

variable {α β ε : Type} {program : Program α} {next : α → Program β}

/-- What a program comes to in a world. -/
def under (world : World) : Program α → α
  | .done result => result
  | .ask request next => (next (world request)).under world

/-- What a program asks for in a world. -/
def requests (world : World) : Program α → List Request
  | .done _ => []
  | .ask request next => request :: (next (world request)).requests world

theorem under_bind (world : World) (program : Program α) (next : α → Program β) :
    (program.bind next).under world = (next (program.under world)).under world := by
  induction program with
  | done result => rfl
  | ask request rest ih => exact ih (world request)

theorem requests_bind (world : World) (program : Program α) (next : α → Program β) :
    (program.bind next).requests world =
      program.requests world ++ (next (program.under world)).requests world := by
  induction program with
  | done result => rfl
  | ask request rest ih => exact congrArg (List.cons request) (ih (world request))

/-- Whatever it is answered, a program asks for nothing that changes files. -/
def OnlyReads : Program α → Prop
  | .done _ => True
  | .ask request next => request.Reads ∧ ∀ answer, (next answer).OnlyReads

theorem OnlyReads.bind (h : program.OnlyReads) (rest : ∀ result, (next result).OnlyReads) :
    (program.bind next).OnlyReads := by
  induction program with
  | done result => exact rest result
  | ask request more ih => exact ⟨h.1, fun answer => ih answer (h.2 answer)⟩

theorem OnlyReads.requests (h : program.OnlyReads) (world : World) :
    ∀ request ∈ program.requests world, request.Reads := by
  induction program with
  | done result => exact fun _ member => nomatch member
  | ask request next ih => exact List.forall_mem_cons.mpr ⟨h.1, ih (world request) (h.2 _)⟩

theorem OnlyReads.run_eq (h : program.OnlyReads) (files : FileSystem) :
    program.run.run files = (program.under files.world, files) := by
  induction program with
  | done result => rfl
  | ask request next ih =>
      change (next (request.answer files)).run.run (request.after files) = _
      rw [Request.after_of_reads h.1]
      exact ih (files.world request) (h.2 _)

theorem run_bind_of_eq {files last : FileSystem} {result : α} (h : program.run.run files = (result, last))
    (next : α → Program β) : (program.bind next).run.run files = (next result).run.run last := by
  rw [run_bind]
  change (next (program.run.run files).1).run.run (program.run.run files).2 = _
  rw [h]

/-- A program that only read leaves its files to the next. -/
theorem OnlyReads.run_bind (h : program.OnlyReads) (next : α → Program β) (files : FileSystem) :
    (program.bind next).run.run files = (next (program.under files.world)).run.run files :=
  run_bind_of_eq (h.run_eq files) next

/-! The same for a search, which may end early. -/

/-- A search asks for nothing that changes files. -/
def Searches (search : ExceptT ε Program α) : Prop := search.run.OnlyReads

section Searches

variable {search : ExceptT ε Program α} {continue_ : α → ExceptT ε Program β}

theorem searches_pure (value : α) : Searches (pure value : ExceptT ε Program α) := trivial

theorem searches_throw (problem : ε) : Searches (throw problem : ExceptT ε Program α) := trivial

theorem Searches.bind (h : Searches search) (rest : ∀ value, Searches (continue_ value)) :
    Searches (search >>= continue_) := by
  refine OnlyReads.bind h fun result => ?_
  cases result with
  | ok value => exact rest value
  | error problem => trivial

theorem searches_kind? (path : Path) :
    Searches (FileAccess.kind? path : ExceptT ε Program (Option EntryKind)) :=
  ⟨trivial, fun _ => trivial⟩

theorem searches_names (path : Path) :
    Searches (FileAccess.names path : ExceptT ε Program (Except Problem (List String))) :=
  ⟨trivial, fun _ => trivial⟩

theorem searches_mapM {f : α → ExceptT ε Program β} (each : ∀ a, Searches (f a)) (l : List α) :
    Searches (l.mapM f) := by
  suffices behind : ∀ done, Searches (List.mapM.loop f l done) from behind []
  induction l with
  | nil => exact fun done => searches_pure done.reverse
  | cons head tail ih => exact fun done => (each head).bind fun result => ih (result :: done)

theorem searches_flatMapM {f : α → ExceptT ε Program (List β)} (each : ∀ a, Searches (f a))
    (l : List α) : Searches (l.flatMapM f) := by
  suffices behind : ∀ done, Searches (List.flatMapM.loop f l done) from behind []
  induction l with
  | nil => exact fun done => searches_pure done.reverse.flatten
  | cons head tail ih => exact fun done => (each head).bind fun result => ih (result :: done)

end Searches

end Program

end SwiftModel.Files
