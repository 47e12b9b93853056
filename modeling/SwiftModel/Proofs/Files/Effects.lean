/- What an operation changes, and what it comes to that a directory is made while others are at work.
-/
import SwiftModel.Proofs.Files.Interference
import SwiftModel.Proofs.Files.Path

namespace SwiftModel.Files

section Requests

variable {files changed : FileSystem} {path : Path} {problem : Problem}

theorem attempt_of_ok (change : FileSystem → Except Problem FileSystem) (h : change files = .ok changed) :
    attempt change files = (.ok (), changed) := by
  simp only [attempt, h]

theorem attempt_of_error (change : FileSystem → Except Problem FileSystem)
    (h : change files = .error problem) : attempt change files = (.error problem, files) := by
  simp only [attempt, h]

theorem makeDirectory_of_ok (h : files.makeDirectory path = .ok changed) :
    (Request.makeDirectory path).answer files = .ok () ∧
      (Request.makeDirectory path).after files = changed :=
  Prod.mk.inj (attempt_of_ok (·.makeDirectory path) h)

theorem makeDirectory_of_error (h : files.makeDirectory path = .error problem) :
    (Request.makeDirectory path).answer files = .error problem ∧
      (Request.makeDirectory path).after files = files :=
  Prod.mk.inj (attempt_of_error (·.makeDirectory path) h)

theorem writeText_of_ok {text : String} (h : files.writeText path text = .ok changed) :
    (Request.writeText path text).answer files = .ok () ∧
      (Request.writeText path text).after files = changed :=
  Prod.mk.inj (attempt_of_ok (·.writeText path text) h)

theorem writeText_of_error {text : String} (h : files.writeText path text = .error problem) :
    (Request.writeText path text).answer files = .error problem ∧
      (Request.writeText path text).after files = files :=
  Prod.mk.inj (attempt_of_error (·.writeText path text) h)

theorem answer_writeText (files : FileSystem) (path : Path) (text : String) :
    (Request.writeText path text).answer files = (files.writeText path text).map fun _ => () := by
  cases written : files.writeText path text with
  | ok changed => exact (writeText_of_ok written).1
  | error problem => exact (writeText_of_error written).1

end Requests

/-- A directory may be made along a path, where nothing is. -/
structure MakesAlong (path : Path) (files later : FileSystem) : Prop where
  current : later.current = files.current
  entry : ∀ at_, later.entry? at_ = files.entry? at_ ∨
    (at_ ∈ path.trail files.current ∧ files.entry? at_ = none ∧
      later.entry? at_ = some .directory)

/-- A directory may be made on the way of a path, and a text written at its place. -/
structure WritesAt (path : Path) (files later : FileSystem) : Prop where
  current : later.current = files.current
  entry : ∀ at_, later.entry? at_ = files.entry? at_ ∨
    (at_ ∈ path.way files.current ∧ files.entry? at_ = none ∧ later.entry? at_ = some .directory) ∨
    (at_ = path.place files.current ∧ files.entry? at_ ≠ some .directory ∧
      ∃ text, later.entry? at_ = some (.file (.text text)))

section Changes

variable {files later changed : FileSystem} {path inner : Path}

theorem MakesAlong.refl (path : Path) (files : FileSystem) : MakesAlong path files files :=
  ⟨rfl, fun _ => .inl rfl⟩

theorem WritesAt.refl (path : Path) (files : FileSystem) : WritesAt path files files :=
  ⟨rfl, fun _ => .inl rfl⟩

theorem MakesAlong.mono (h : MakesAlong inner files later) (along : inner.Along path) :
    MakesAlong path files later :=
  ⟨h.current, fun at_ => (h.entry at_).imp_right fun ⟨member, made⟩ => ⟨along _ at_ member, made⟩⟩

/-- What is made along the parent of a path is made on the way of the path. -/
theorem MakesAlong.writesAt {parent : Path} (h : MakesAlong parent files later)
    (above : path.parent? = some parent) : WritesAt path files later := by
  refine ⟨h.current, fun at_ => (h.entry at_).imp_right ?_⟩
  rintro ⟨member, made⟩
  exact .inl ⟨Path.mem_way_of_parent above member, made⟩

/-- Where something can be put there is no root. -/
theorem ne_nil_of_free {at_ : Location} (h : files.entry? at_ ≠ some .directory) : at_ ≠ [] := by
  rintro rfl
  exact h (FileSystem.entry?_nil files)

theorem makesAlong_put (absent : files.entry? (path.place files.current) = none) :
    MakesAlong path files (files.put (path.place files.current) .directory) := by
  have free : files.entry? (path.place files.current) ≠ some .directory := by
    rw [absent]
    exact Option.some_ne_none _ ∘ Eq.symm
  have below := ne_nil_of_free free
  refine ⟨files.current_put _ _, fun at_ => ?_⟩
  rw [files.entry?_put below]
  by_cases here : at_ = path.place files.current
  · subst here
    exact .inr ⟨path.place_mem_trail _, absent, if_pos rfl⟩
  · exact .inl (if_neg here)

theorem writesAt_put (text : String)
    (other : files.entry? (path.place files.current) ≠ some .directory) :
    WritesAt path files (files.put (path.place files.current) (.file (.text text))) := by
  refine ⟨files.current_put _ _, fun at_ => ?_⟩
  rw [files.entry?_put (ne_nil_of_free other)]
  by_cases here : at_ = path.place files.current
  · subst here
    exact .inr (.inr ⟨rfl, other, text, if_pos rfl⟩)
  · exact .inl (if_neg here)

theorem makesAlong_makeDirectory (path : Path) (files : FileSystem) :
    MakesAlong path files ((Request.makeDirectory path).after files) := by
  cases made : files.makeDirectory path with
  | error problem =>
      rw [(makeDirectory_of_error made).2]
      exact .refl path files
  | ok changed =>
      obtain ⟨-, -, absent, rfl⟩ := FileSystem.makeDirectory_eq_ok.mp made
      rw [(makeDirectory_of_ok made).2]
      exact makesAlong_put absent

theorem writesAt_writeText (path : Path) (text : String) (files : FileSystem) :
    WritesAt path files ((Request.writeText path text).after files) := by
  cases written : files.writeText path text with
  | error problem =>
      rw [(writeText_of_error written).2]
      exact .refl path files
  | ok changed =>
      obtain ⟨-, -, other, rfl⟩ := FileSystem.writeText_eq_ok written
      rw [(writeText_of_ok written).2]
      exact writesAt_put text other

end Changes

/-! To make a directory, with its parents, is to make directories along its path. -/

namespace Program

theorem guarantees_isDirectory (path inner : Path) :
    (isDirectory inner : Program Bool).Guarantees (MakesAlong path) :=
  ⟨fun files => .refl path files, fun _ => trivial⟩

theorem guarantees_makeIfAbsent (path : Path) :
    (makeIfAbsent path : Program _).Guarantees (MakesAlong path) := by
  refine ⟨makesAlong_makeDirectory path, fun answer => ?_⟩
  cases answer with
  | ok made => trivial
  | error problem => exact (guarantees_isDirectory path path).bind fun _ => trivial

theorem guarantees_makeWithParents (levels : Nat) (path : Path) :
    (makeWithParents levels path : Program _).Guarantees (MakesAlong path) := by
  induction levels generalizing path with
  | zero => trivial
  | succ levels ih =>
      rw [makeWithParents]
      split
      · trivial
      · refine ⟨makesAlong_makeDirectory path, fun answer => ?_⟩
        dsimp only [Program.bind]
        split
        next => trivial
        next =>
          split
          next => trivial
          next parent above =>
            refine .bind ((ih parent).mono fun files later made => made.mono (Path.along_of_parent above)) ?_
            intro made
            cases made with
            | ok made => exact guarantees_makeIfAbsent path
            | error problem => trivial
        next => exact (guarantees_isDirectory path path).bind fun _ => trivial

end Program

/-- All along a path, its own place included, is a directory. -/
def FileSystem.Made (files : FileSystem) (path : Path) : Prop :=
  ∀ at_ ∈ path.trail files.current, files.entry? at_ = some .directory

/-- Others leave the current directory and every directory as it is, and put no file along a path. -/
structure Interference.Spares (others : Interference) (path : Path) : Prop where
  current : ∀ {files later}, others.Allows files later → later.current = files.current
  directory : ∀ {files later}, others.Allows files later → ∀ at_,
    files.entry? at_ = some .directory → later.entry? at_ = some .directory
  clear : ∀ {files later}, others.Allows files later →
    ∀ at_ ∈ path.trail files.current,
      (∀ content, files.entry? at_ ≠ some (.file content)) →
        ∀ content, later.entry? at_ ≠ some (.file content)

section Spares

variable {others : Interference} {files later : FileSystem} {path inner : Path}

theorem Interference.Spares.of_along (spares : others.Spares path) (along : inner.Along path) :
    others.Spares inner :=
  ⟨spares.current, spares.directory, fun allowed at_ member =>
    spares.clear allowed at_ (along _ at_ member)⟩

theorem Interference.Spares.clear_later (spares : others.Spares path) (allowed : others.Allows files later)
    (clear : files.Clear path) : later.Clear path := by
  intro at_ member
  rw [spares.current allowed] at member
  exact spares.clear allowed at_ member (clear at_ member)

theorem Interference.Spares.made_later (spares : others.Spares path) (allowed : others.Allows files later)
    (made : files.Made path) : later.Made path := by
  intro at_ member
  rw [spares.current allowed] at member
  exact spares.directory allowed at_ (made at_ member)

theorem Interference.Spares.ready_later (spares : others.Spares path) (allowed : others.Allows files later)
    (ready : files.Ready path) : later.Ready path := by
  intro at_ member
  rw [spares.current allowed] at member
  exact spares.directory allowed at_ (ready at_ member)

theorem MakesAlong.clear_later (change : MakesAlong inner files later) (clear : files.Clear path) :
    later.Clear path := by
  intro at_ member content file
  rw [change.current] at member
  rcases change.entry at_ with same | ⟨-, -, made⟩
  · exact clear at_ member content (same ▸ file)
  · rw [made] at file
    cases file

/-! With no file in the way, a directory is made if those it is in are there. -/

theorem makeDirectory_of_ready (written : path.text.isEmpty = false) (ready : files.Ready path)
    (clear : files.Clear path) :
    ((Request.makeDirectory path).answer files = .ok () ∨
      (Request.makeDirectory path).answer files = .error .exists) ∧
      ((Request.makeDirectory path).after files).Made path := by
  cases present : files.entry? (path.place files.current) with
  | none =>
      have made := makeDirectory_of_ok (FileSystem.makeDirectory_eq_ok.mpr ⟨written, ready, present, rfl⟩)
      refine ⟨.inl made.1, ?_⟩
      have change := makesAlong_makeDirectory path files
      intro at_ member
      rw [change.current] at member
      rcases change.entry at_ with same | ⟨-, -, here⟩
      · rw [Path.mem_trail] at member
        rcases member with inside | rfl
        · rw [same, ready at_ inside]
        · rw [made.2, files.entry?_put, if_pos rfl]
          rintro root
          rw [root, FileSystem.entry?_nil] at present
          cases present
      · exact here
  | some entry =>
      have error := makeDirectory_of_error (FileSystem.makeDirectory_eq_exists written ready present)
      refine ⟨.inr error.1, ?_⟩
      rw [error.2]
      intro at_ member
      rw [Path.mem_trail] at member
      rcases member with inside | rfl
      · exact ready at_ inside
      · cases entry with
        | directory => exact present
        | file content => exact absurd present (clear _ (path.place_mem_trail _) content)

theorem find_of_made (written : path.text.isEmpty = false) (made : files.Made path) :
    files.find path = .ok .directory :=
  FileSystem.find_eq_ok.mpr
    ⟨written, fun at_ member => made at_ (Path.mem_trail_of_mem_way member),
      made _ (path.place_mem_trail _)⟩

namespace Program

theorem ensures_isDirectory (spares : others.Spares path) (written : path.text.isEmpty = false)
    (made : files.Made path) : (isDirectory path : Program Bool).Ensures others
      (fun is later => is = true ∧ later.Made path) files := by
  intro later allowed last more
  have still := spares.made_later allowed made
  refine ⟨?_, spares.made_later more still⟩
  change (((later.find path).toOption.map Entry.kind) == some .directory) = true
  rw [find_of_made written still]
  rfl

theorem ensures_makeIfAbsent (spares : others.Spares path) (written : path.text.isEmpty = false)
    (ready : files.Ready path) (clear : files.Clear path) : (makeIfAbsent path : Program _).Ensures others
      (fun result later => result = .ok () ∧ later.Made path) files := by
  intro later allowed
  obtain ⟨answer, made⟩ := makeDirectory_of_ready written (spares.ready_later allowed ready)
    (spares.clear_later allowed clear)
  rcases answer with answer | answer
  · rw [answer]
    exact fun last more => ⟨rfl, spares.made_later more made⟩
  · rw [answer]
    refine (ensures_isDirectory spares written made).bind ?_
    rintro is later ⟨rfl, made⟩
    exact fun last more => ⟨rfl, spares.made_later more made⟩

/-- Where no file is in the way, a directory is there when it is made with its parents. -/
theorem ensures_makeWithParents {levels : Nat} (enough : path.text.length < levels)
    (trimmed : ∀ above, path.parent? = some above → ∀ current, ∀ at_ ∈ path.way current,
      at_ ∈ above.trail current)
    (spares : others.Spares path) (clear : files.Clear path)
    (origin : files.entry? (path.origin files.current) = some .directory) :
    (makeWithParents levels path : Program _).Ensures others
      (fun result later => result = .ok () ∧ later.Made path) files := by
  induction levels generalizing path files with
  | zero => omega
  | succ levels ih =>
      rw [makeWithParents]
      split
      next empty =>
        intro later allowed
        refine ⟨rfl, spares.made_later allowed ?_⟩
        intro at_ member
        rw [Path.eq_origin_of_mem_trail empty member, origin]
      next written =>
        rw [Bool.not_eq_true] at written
        intro later allowed
        have clear := spares.clear_later allowed clear
        by_cases ready : later.Ready path
        · obtain ⟨answer, made⟩ := makeDirectory_of_ready written ready clear
          rcases answer with answer | answer
          · rw [answer]
            exact fun last more => ⟨rfl, spares.made_later more made⟩
          · rw [answer]
            refine (ensures_isDirectory spares written made).bind ?_
            rintro is later ⟨rfl, made⟩
            exact fun last more => ⟨rfl, spares.made_later more made⟩
        · have error := makeDirectory_of_error (FileSystem.makeDirectory_eq_notFound clear ready)
          rw [error.1, error.2]
          cases above : path.parent? with
          | none =>
              refine absurd ?_ ready
              intro at_ member
              rw [Path.way_of_parent?_eq_none above written _ at_ member]
              rfl
          | some parent =>
              have along := Path.along_of_parent above
              have shorter := Path.length_parent above
              have same : parent.origin later.current = path.origin files.current := by
                rw [Path.origin, Path.origin, Path.isAbsolute_parent above, spares.current allowed]
              have parents : (makeWithParents levels parent : Program _).Ensures others
                  (fun result later => result = .ok () ∧ later.Made parent) later := by
                apply ih (by omega)
                · intro highest higher current at_ member
                  exact Path.mem_way_parent above higher member
                · exact spares.of_along along
                · exact fun at_ member => clear at_ (along _ at_ member)
                · exact same ▸ spares.directory allowed _ origin
              have free : (makeWithParents levels parent : Program _).Ensures others
                  (fun _ later => later.Clear path) later :=
                (guarantees_makeWithParents levels parent).ensures
                  (fun _ _ change => change.clear_later) (fun _ _ => spares.clear_later) clear
              refine (parents.and free).bind ?_
              rintro result last ⟨⟨rfl, made⟩, clear⟩
              apply ensures_makeIfAbsent spares written _ clear
              intro at_ member
              exact made at_ (trimmed parent above _ at_ member)

end Program

end Spares

end SwiftModel.Files
