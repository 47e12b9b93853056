/- What options are like that were read from a command line: one that takes a single value has it, in its
shape, and is there once. -/
import SwiftModel.CommandLine.Run
import SwiftModel.Proofs.Failure.Sequence

namespace SwiftModel.CommandLine

structure WellGiven (given : List Given) : Prop where
  shaped : ∀ g ∈ given, ∀ shape, g.option.arity = .one shape →
    ∃ value, g.values = [value] ∧ shapeProblem? g.option shape value = none
  once : ∀ g ∈ given, ∀ shape, g.option.arity = .one shape →
    given.filter (·.option = g.option) = [g]

/-- What is given so far is as it should be, and what still waits for values has not too many. -/
structure Reading.Well (reading : Reading) : Prop where
  given : WellGiven reading.given
  pending : ∀ g, reading.pending = some g → ∀ shape, g.option.arity = .one shape → g.values.length ≤ 1

variable {given next : List Given} {option : OptionName} {shape : ValueShape} {values : List String}
  {reading read : Reading} {options : List OptionName}

theorem filter_eq_nil_of_not_isGiven (absent : isGiven option given = false) :
    given.filter (·.option = option) = [] := by
  rw [List.filter_eq_nil_iff]
  exact List.any_eq_false.mp absent

theorem wellGiven_nil : WellGiven [] := ⟨fun _ member => (nomatch member), fun _ member => (nomatch member)⟩

theorem WellGiven.append (well : WellGiven given) {g : Given}
    (fits : ∀ shape, g.option.arity = .one shape → isGiven g.option given = false ∧
      ∃ value, g.values = [value] ∧ shapeProblem? g.option shape value = none) :
    WellGiven (given ++ [g]) := by
  constructor
  · intro other member shape one
    rcases List.mem_append.mp member with old | new
    · exact well.shaped other old shape one
    · cases List.mem_singleton.mp new
      exact (fits shape one).2
  · intro other member shape one
    rw [List.filter_append]
    rcases List.mem_append.mp member with old | new
    · -- an option like the new one was not there before
      have apart : g.option ≠ other.option := by
        intro same
        have absent := (fits shape (same ▸ one)).1
        rw [same] at absent
        exact List.any_eq_false.mp absent other old (decide_eq_true rfl)
      rw [well.once other old shape one, List.filter_cons_of_neg (by simpa using apart)]
      rfl
    · cases List.mem_singleton.mp new
      rw [filter_eq_nil_of_not_isGiven (fits shape one).1, List.filter_cons_of_pos (by simp)]
      rfl

/-! Each step of the reading keeps to this. -/

theorem accept_eq_ok (accepted : accept given option values = .ok next) :
    ∃ kept, next = given ++ [⟨option, kept⟩] ∧ ∀ shape, option.arity = .one shape →
      kept = values ∧ values ≠ [] ∧ isGiven option given = false ∧
        ∀ value ∈ values, shapeProblem? option shape value = none := by
  rw [accept] at accepted
  split at accepted
  next => cases accepted
  next counter =>
    cases accepted
    exact ⟨[], rfl, fun shape one => by rw [one] at counter; cases counter⟩
  next switch =>
    split at accepted
    · cases accepted
    · cases accepted
      exact ⟨[], rfl, fun shape one => by rw [one] at switch; cases switch⟩
  next asked single =>
    split at accepted
    · cases accepted
    next some =>
      split at accepted
      · cases accepted
      next absent =>
        split at accepted
        next => cases accepted
        next shaped =>
          cases accepted
          refine ⟨values, rfl, fun shape one => ?_⟩
          cases single.symm.trans one
          have nonempty : values ≠ [] := fun empty => some (by rw [empty]; rfl)
          exact ⟨rfl, nonempty, Bool.eq_false_iff.mpr absent, List.findSome?_eq_none_iff.mp shaped⟩
  next atCommas many =>
    split at accepted
    · cases accepted
    · cases accepted
      exact ⟨_, rfl, fun shape one => by rw [one] at many; cases many⟩

theorem WellGiven.accept (well : WellGiven given)
    (few : ∀ shape, option.arity = .one shape → values.length ≤ 1)
    (accepted : accept given option values = .ok next) : WellGiven next := by
  obtain ⟨kept, rfl, fits⟩ := accept_eq_ok accepted
  refine well.append fun shape one => ?_
  obtain ⟨rfl, nonempty, absent, shaped⟩ := fits shape one
  obtain ⟨value, rfl⟩ : ∃ value, kept = [value] :=
    List.length_eq_one_iff.mp (Nat.le_antisymm (few shape one) (List.length_pos_iff.mpr nonempty))
  exact ⟨absent, value, rfl, shaped value (List.mem_singleton_self value)⟩

theorem Reading.well_none : Reading.none.Well := ⟨wellGiven_nil, fun _ pending => (nomatch pending)⟩

theorem Reading.Well.settle (well : reading.Well) (settled : settle reading = .ok next) : WellGiven next := by
  rw [CommandLine.settle] at settled
  split at settled
  next =>
    cases settled
    exact well.given
  next option values pending => exact well.given.accept (well.pending _ pending) settled

theorem Reading.Well.addComplete (well : reading.Well)
    (added : addComplete reading option values = .ok read) (few : values.length ≤ 1) : read.Well := by
  obtain ⟨before, settled, accepts⟩ := bind_eq_ok.mp added
  obtain ⟨given, accepted, same⟩ := bind_eq_ok.mp accepts
  cases same
  exact ⟨(well.settle settled).accept (fun _ _ => few) accepted, fun _ pending => (nomatch pending)⟩

theorem Reading.Well.addPending (well : reading.Well) (added : addPending reading option = .ok read) :
    read.Well := by
  obtain ⟨before, settled, same⟩ := bind_eq_ok.mp added
  cases same
  refine ⟨well.settle settled, fun g pending _ _ => ?_⟩
  cases pending
  exact Nat.zero_le 1

theorem Reading.Well.readLong (well : reading.Well) {word : List Char}
    (long : readLong options reading word = .ok read) : read.Well := by
  rw [CommandLine.readLong] at long
  split at long
  next => cases long
  next option _ =>
    split at long
    · exact well.addPending long
    · exact well.addComplete long (Nat.le_refl 1)
    · exact well.addComplete long (Nat.zero_le 1)
    · cases long

theorem Reading.Well.readShort (well : reading.Well) {letters : List Char}
    (short : readShort options reading letters = .ok read) : read.Well := by
  induction letters generalizing reading with
  | nil =>
      cases short
      exact well
  | cons c cs ih =>
      rw [CommandLine.readShort] at short
      split at short
      next => cases short
      next option _ =>
        split at short
        · split at short
          · exact well.addPending short
          · exact well.addComplete short (Nat.le_refl 1)
          · exact well.addComplete short (Nat.le_refl 1)
        · obtain ⟨between, added, rest⟩ := bind_eq_ok.mp short
          exact ih (well.addComplete added (Nat.zero_le 1)) rest

/-- An option that takes one value gets another word only while it has none. -/
theorem Reading.Well.takeValue (well : reading.Well) (wants : wantsValue reading = true) (value : String) :
    (takeValue reading value).Well := by
  refine ⟨well.given, fun g pending shape one => ?_⟩
  obtain ⟨before, waiting, rfl⟩ := Option.map_eq_some_iff.mp pending
  rw [wantsValue, waiting] at wants
  dsimp only at wants one
  rw [one] at wants
  rw [List.isEmpty_iff.mp wants]
  exact Nat.le_refl 1

theorem Reading.Well.readOptions (well : reading.Well) {arguments : List String}
    (all : readOptions options reading arguments = .ok next) : WellGiven next := by
  induction arguments generalizing reading with
  | nil => exact well.settle all
  | cons argument rest ih =>
      unfold CommandLine.readOptions at all
      split at all
      next =>
        split at all
        · exact well.settle all
        · cases all
      next =>
        obtain ⟨between, long, all⟩ := bind_eq_ok.mp all
        exact ih (well.readLong long) all
      next =>
        obtain ⟨between, short, all⟩ := bind_eq_ok.mp all
        exact ih (well.readShort short) all
      next =>
        split at all
        next wants => exact ih (well.takeValue wants argument) all
        next => cases all

/-- The options of a command line are read behind its command, from nothing, and are checked together. -/
theorem readArguments_eq_ok {before : Reading} {arguments : List String} {result : Arguments}
    (all : readArguments before arguments = .ok result) :
    (∃ rest, readOptions result.command.options .none rest = .ok result.options) ∧
      checkTogether result.options = .ok () := by
  fun_induction readArguments before arguments with
  | case1 before =>
      obtain ⟨_, _, thrown⟩ := bind_eq_ok.mp all
      cases thrown
  | case2 before argument rest command _ =>
      obtain ⟨options, read, all⟩ := bind_eq_ok.mp all
      obtain ⟨⟨⟩, together, same⟩ := bind_eq_ok.mp all
      cases same
      exact ⟨⟨rest, read⟩, together⟩
  | case6 before _ rest _ _ word _ _ ih =>
      obtain ⟨between, long, all⟩ := bind_eq_ok.mp all
      exact ih between all
  | case7 before _ rest _ _ c cs _ _ _ ih =>
      obtain ⟨between, short, all⟩ := bind_eq_ok.mp all
      exact ih between all
  | _ => cases all

variable {arguments : List String} {result : Arguments}

theorem wellGiven_of_ofList (parsed : Arguments.ofList arguments = .ok result) :
    WellGiven result.options := by
  obtain ⟨⟨rest, read⟩, -⟩ := readArguments_eq_ok parsed
  exact Reading.well_none.readOptions read

theorem conform_apart_of_ofList (parsed : Arguments.ofList arguments = .ok result)
    (none : isGiven .noConformance result.options = true) : isGiven .conform result.options = false := by
  obtain ⟨-, together⟩ := readArguments_eq_ok parsed
  rw [checkTogether, none, Bool.true_and] at together
  split at together
  · cases together
  next absent => exact Bool.eq_false_iff.mpr absent

/-! What was given with an option that takes one value. -/

theorem exists_mem_of_isGiven (well : WellGiven given) (one : option.arity = .one shape)
    (present : isGiven option given = true) : ∃ text, ⟨option, [text]⟩ ∈ given := by
  obtain ⟨⟨_, values⟩, member, same⟩ := List.any_eq_true.mp present
  cases of_decide_eq_true same
  obtain ⟨text, rfl, -⟩ := well.shaped _ member shape one
  exact ⟨text, member⟩

theorem value?_of_mem (well : WellGiven given) (one : option.arity = .one shape) {text : String}
    (member : ⟨option, [text]⟩ ∈ given) : value? option given = some text := by
  rw [value?, valuesOf, well.once _ member shape one]
  rfl

theorem value?_of_not_isGiven (absent : isGiven option given = false) : value? option given = none := by
  rw [value?, valuesOf, filter_eq_nil_of_not_isGiven absent]
  rfl

end SwiftModel.CommandLine
