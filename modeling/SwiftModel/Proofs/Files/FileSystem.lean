/- Where a path leads in a file system, and what each operation looks up and changes there. -/
import SwiftModel.Files.FileSystem
import SwiftModel.Proofs.Failure.Sequence

namespace SwiftModel.Files

/-- The locations in which segments are looked up, one after the other. -/
def lookups (location : Location) : List String → List Location
  | [] => []
  | segment :: rest => location :: lookups (FileSystem.next location segment) rest

/-- Where a path begins. -/
def Path.origin (current : Location) (path : Path) : Location := if path.isAbsolute then [] else current

/-- Where a path leads, whatever is there. -/
def Path.place (current : Location) (path : Path) : Location :=
  path.segments.foldl FileSystem.next (path.origin current)

/-- The locations that must be directories for a path to lead anywhere. -/
def Path.way (current : Location) (path : Path) : List Location :=
  lookups (path.origin current) path.segments

/-- All that a path leads through and to. -/
def Path.trail (current : Location) (path : Path) : List Location :=
  path.way current ++ [path.place current]

theorem Path.mem_trail {current at_ : Location} {path : Path} :
    at_ ∈ path.trail current ↔ at_ ∈ path.way current ∨ at_ = path.place current := by
  rw [trail, List.mem_append, List.mem_singleton]

theorem Path.mem_trail_of_mem_way {current at_ : Location} {path : Path} (h : at_ ∈ path.way current) :
    at_ ∈ path.trail current := mem_trail.mpr (.inl h)

theorem Path.place_mem_trail (path : Path) (current : Location) :
    path.place current ∈ path.trail current := mem_trail.mpr (.inr rfl)

namespace FileSystem

@[simp] theorem entry?_nil (files : FileSystem) : files.entry? [] = some .directory := rfl

@[simp] theorem current_put (files : FileSystem) (location : Location) (entry : Entry) :
    (files.put location entry).current = files.current := by
  rw [put]
  split <;> rfl

/-- An entry that takes the place of another is found where that one was. -/
theorem lookup_replace (entries : List (Location × Entry)) (location key : Location) (entry : Entry) :
    (entries.map fun e => if e.1 = location then (location, entry) else e).lookup key =
      (entries.lookup key).map fun old => if key = location then entry else old := by
  induction entries with
  | nil => rfl
  | cons head entries ih =>
      obtain ⟨at_, old⟩ := head
      rw [List.map_cons, List.lookup_cons, List.lookup_cons, ih]
      by_cases here : at_ = location
      · rw [if_pos here, ← here]
        cases same : key == at_ with
        | true => rw [eq_of_beq same]; simp
        | false => rfl
      · rw [if_neg here]
        cases same : key == at_ with
        | true => rw [eq_of_beq same]; simp [here]
        | false => rfl

theorem entry?_put (files : FileSystem) {location : Location} (below : location ≠ [])
    (entry : Entry) (key : Location) :
    FileSystem.entry? (files.put location entry) key =
      if key = location then some entry else files.entry? key := by
  by_cases root : key = []
  · subst root
    rw [if_neg (Ne.symm below), entry?_nil, entry?_nil]
  · have inner : ∀ fs : FileSystem, fs.entry? key = fs.entries.lookup key := by
      intro fs
      exact if_neg (by simpa using root)
    rw [inner, inner, put]
    split
    next present =>
      rw [lookup_replace]
      by_cases same : key = location
      · subst same
        obtain ⟨old, found⟩ : ∃ old, files.entries.lookup key = some old := by
          rw [← Option.isSome_iff_exists, List.lookup_isSome_iff]
          obtain ⟨e, member, same⟩ := List.any_eq_true.mp present
          exact ⟨e, member, beq_iff_eq.mpr (beq_iff_eq.mp same).symm⟩
        rw [found]
        simp
      · simp [same]
    next absent =>
      rw [List.lookup_append, List.lookup_cons, List.lookup_nil]
      by_cases same : key = location
      · subst same
        have none : files.entries.lookup key = none := by
          rw [List.lookup_eq_none_iff]
          intro e member
          rw [Bool.not_eq_true, List.any_eq_false] at absent
          rw [bne_iff_ne]
          intro found
          exact absent e member (beq_iff_eq.mpr found.symm)
        rw [none, beq_self_eq_true, if_pos rfl]
        rfl
      · rw [if_neg same, beq_eq_false_iff_ne.mpr same]
        exact Option.or_none

/-! Following segments asks for directories, each in its turn. -/

section Follow

variable {files other : FileSystem} {location : Location} {segments : List String}

theorem follow_eq_ok {reached : Location} : files.follow location segments = .ok reached ↔
    (∀ at_ ∈ lookups location segments, files.entry? at_ = some .directory) ∧
      segments.foldl next location = reached := by
  induction segments generalizing location with
  | nil => simp [follow, lookups]
  | cons segment rest ih =>
      rw [follow, lookups, List.forall_mem_cons, List.foldl_cons]
      split
      next none => simp [none]
      next content file => simp [file]
      next directory => rw [ih, and_iff_right directory]

theorem follow_congr
    (same : ∀ at_ ∈ lookups location segments, files.entry? at_ = other.entry? at_) :
    files.follow location segments = other.follow location segments := by
  induction segments generalizing location with
  | nil => rfl
  | cons segment rest ih =>
      rw [lookups, List.forall_mem_cons] at same
      rw [follow, follow, same.1, ih same.2]

/-- Where no file is in the way, nothing is wrong but that something is missing. -/
theorem follow_eq_error {problem : Problem} (error : files.follow location segments = .error problem)
    (clear : ∀ at_ ∈ lookups location segments, ∀ content, files.entry? at_ ≠ some (.file content)) :
    problem = .notFound := by
  induction segments generalizing location with
  | nil => cases error
  | cons segment rest ih =>
      rw [lookups, List.forall_mem_cons] at clear
      rw [follow] at error
      split at error
      next => exact (Except.error.inj error).symm
      next content file => exact absurd file (clear.1 content)
      next => exact ih error clear.2

end Follow

/-! What each operation finds, by the entries on the way of its path and at its place. -/

/-- All that a path leads through is a directory. -/
def Ready (files : FileSystem) (path : Path) : Prop :=
  ∀ at_ ∈ path.way files.current, files.entry? at_ = some .directory

/-- No file stands on the way of a path or at its place. -/
def Clear (files : FileSystem) (path : Path) : Prop :=
  ∀ at_ ∈ path.trail files.current, ∀ content,
    files.entry? at_ ≠ some (.file content)

section Operations

variable {files changed : FileSystem} {path : Path} {entry : Entry}

theorem locate_eq_ok {location : Location} : files.locate path = .ok location ↔
    path.text.isEmpty = false ∧ files.Ready path ∧ path.place files.current = location := by
  rw [locate]
  cases path.text.isEmpty with
  | true => simp
  | false =>
      rw [if_neg Bool.false_ne_true, follow_eq_ok, and_iff_right rfl]
      rfl

theorem locate_eq_notFound (clear : files.Clear path) (missing : ¬ files.Ready path) :
    files.locate path = .error .notFound := by
  rw [locate]
  split
  next => rfl
  next =>
    cases known : files.follow (files.start path.isAbsolute) path.segments with
    | ok location => exact absurd (follow_eq_ok.mp known).1 missing
    | error problem =>
        rw [follow_eq_error known fun at_ member => clear at_ (Path.mem_trail_of_mem_way member)]

theorem find_eq_bind (files : FileSystem) (path : Path) :
    files.find path = (files.locate path).bind fun location =>
      match files.entry? location with
      | some entry => .ok entry
      | none => .error .notFound := rfl

theorem find_eq_ok : files.find path = .ok entry ↔ path.text.isEmpty = false ∧ files.Ready path ∧
    files.entry? (path.place files.current) = some entry := by
  rw [find_eq_bind, bind_eq_ok]
  constructor
  · rintro ⟨location, known, found⟩
    obtain ⟨written, ready, rfl⟩ := locate_eq_ok.mp known
    split at found
    next entry' some =>
      cases found
      exact ⟨written, ready, some⟩
    next => cases found
  · rintro ⟨written, ready, found⟩
    refine ⟨_, locate_eq_ok.mpr ⟨written, ready, rfl⟩, ?_⟩
    rw [found]

theorem readText_eq_bind (files : FileSystem) (path : Path) :
    files.readText path = (files.find path).bind fun entry =>
      match entry with
      | .directory => .error .isDirectory
      | .file (.binary _) => .error .notText
      | .file (.text text) => .ok text := rfl

theorem readText_eq_ok {text : String} : files.readText path = .ok text ↔
    path.text.isEmpty = false ∧ files.Ready path ∧
      files.entry? (path.place files.current) = some (.file (.text text)) := by
  rw [readText_eq_bind, bind_eq_ok, ← find_eq_ok]
  constructor
  · rintro ⟨entry, known, read⟩
    split at read
    next => cases read
    next => cases read
    next => cases read; exact known
  · intro known
    exact ⟨_, known, rfl⟩

theorem makeDirectory_eq_bind (files : FileSystem) (path : Path) :
    files.makeDirectory path = (files.locate path).bind fun location =>
      match files.entry? location with
      | some _ => .error .exists
      | none => .ok (files.put location .directory) := rfl

theorem makeDirectory_eq_ok : files.makeDirectory path = .ok changed ↔
    path.text.isEmpty = false ∧ files.Ready path ∧
      files.entry? (path.place files.current) = none ∧
        changed = files.put (path.place files.current) .directory := by
  rw [makeDirectory_eq_bind, bind_eq_ok]
  constructor
  · rintro ⟨location, known, found⟩
    obtain ⟨written, ready, rfl⟩ := locate_eq_ok.mp known
    split at found
    next => cases found
    next absent =>
      cases found
      exact ⟨written, ready, absent, rfl⟩
  · rintro ⟨written, ready, absent, rfl⟩
    refine ⟨_, locate_eq_ok.mpr ⟨written, ready, rfl⟩, ?_⟩
    rw [absent]

theorem makeDirectory_eq_exists (written : path.text.isEmpty = false) (ready : files.Ready path)
    (present : files.entry? (path.place files.current) = some entry) :
    files.makeDirectory path = .error .exists := by
  rw [makeDirectory_eq_bind, locate_eq_ok.mpr ⟨written, ready, rfl⟩]
  simp only [Except.bind, present]

theorem makeDirectory_eq_notFound (clear : files.Clear path) (missing : ¬ files.Ready path) :
    files.makeDirectory path = .error .notFound := by
  rw [makeDirectory_eq_bind, locate_eq_notFound clear missing]
  rfl

theorem target_eq_ok {location : Location} (h : files.target path = .ok location) :
    path.text.isEmpty = false ∧ files.Ready path ∧ path.place files.current = location := by
  rw [target] at h
  split at h
  next => cases h
  next written =>
    obtain ⟨reached, known, h⟩ := bind_eq_ok.mp h
    split at h
    next whole =>
      cases h
      rw [whole] at known
      obtain ⟨ready, place⟩ := follow_eq_ok.mp known
      exact ⟨Bool.eq_false_iff.mpr written, ready, place⟩
    next => cases h

theorem writeText_eq_bind (files : FileSystem) (path : Path) (text : String) :
    files.writeText path text = (files.target path).bind fun location =>
      match files.entry? location with
      | some .directory => .error .isDirectory
      | _ => .ok (files.put location (.file (.text text))) := rfl

theorem writeText_eq_ok {text : String} (h : files.writeText path text = .ok changed) :
    path.text.isEmpty = false ∧ files.Ready path ∧
      files.entry? (path.place files.current) ≠ some .directory ∧
        changed = files.put (path.place files.current) (.file (.text text)) := by
  rw [writeText_eq_bind] at h
  obtain ⟨location, known, h⟩ := bind_eq_ok.mp h
  obtain ⟨written, ready, rfl⟩ := target_eq_ok known
  split at h
  next => cases h
  next other =>
    cases h
    exact ⟨written, ready, other, rfl⟩

end Operations

/-! What is found depends on nothing but the entries along the path. -/

/-- Two file systems that look the same to whoever follows a path. -/
structure SameAlong (files other : FileSystem) (path : Path) : Prop where
  current : other.current = files.current
  way : ∀ at_ ∈ path.way files.current, other.entry? at_ = files.entry? at_
  place : other.entry? (path.place files.current) = files.entry? (path.place files.current)

section Same

variable {files other : FileSystem} {path : Path}

theorem start_eq (files : FileSystem) (path : Path) :
    files.start path.isAbsolute = path.origin files.current := rfl

theorem SameAlong.locate (same : files.SameAlong other path) :
    other.locate path = files.locate path := by
  rw [FileSystem.locate, FileSystem.locate, start_eq, start_eq, same.current, follow_congr same.way]

theorem SameAlong.find (same : files.SameAlong other path) : other.find path = files.find path := by
  rw [FileSystem.find, FileSystem.find, same.locate]
  cases known : files.locate path with
  | error problem => rfl
  | ok location =>
      obtain ⟨-, -, rfl⟩ := locate_eq_ok.mp known
      change (match other.entry? _ with | some entry => _ | none => _) = _
      rw [same.place]
      rfl

theorem SameAlong.readText (same : files.SameAlong other path) :
    other.readText path = files.readText path := by
  rw [FileSystem.readText, FileSystem.readText, same.find]

theorem lookups_append (location : Location) (segments rest : List String) :
    lookups location (segments ++ rest) =
      lookups location segments ++ lookups (segments.foldl next location) rest := by
  induction segments generalizing location with
  | nil => rfl
  | cons segment segments ih => exact congrArg (List.cons location) (ih (next location segment))

theorem SameAlong.target (same : files.SameAlong other path) :
    other.target path = files.target path := by
  -- the segments that name something come first, so what they look up lies on the way
  have cut : ∃ rest, path.segments =
      (path.segments.reverse.dropWhile String.isEmpty).reverse ++ rest := by
    refine ⟨(path.segments.reverse.takeWhile String.isEmpty).reverse, ?_⟩
    rw [← List.reverse_append, List.takeWhile_append_dropWhile, List.reverse_reverse]
  have inner : ∀ at_ ∈ lookups (path.origin files.current)
      (path.segments.reverse.dropWhile String.isEmpty).reverse,
      other.entry? at_ = files.entry? at_ := by
    intro at_ member
    obtain ⟨rest, whole⟩ := cut
    apply same.way
    rw [Path.way, whole, lookups_append]
    exact List.mem_append_left _ member
  simp only [FileSystem.target, start_eq, same.current, follow_congr inner]

/-- Whether a text is written does not depend on the text, nor on what lies elsewhere. -/
theorem SameAlong.writeText (same : files.SameAlong other path) (text : String) :
    (other.writeText path text).map (fun _ => ()) = (files.writeText path text).map fun _ => () := by
  rw [writeText_eq_bind, writeText_eq_bind, same.target]
  cases known : files.target path with
  | error problem => rfl
  | ok location =>
      obtain ⟨-, -, rfl⟩ := target_eq_ok known
      simp only [Except.bind, same.place]
      split <;> rfl

end Same

end FileSystem
end SwiftModel.Files
