/- What a run finds out before it writes: its settings, and the paths that its patterns stand for. All
of it is reading. -/
import Mathlib.Data.List.Forall2
import SwiftModel.CommandLine.Run
import SwiftModel.Proofs.Failure.Sequence
import SwiftModel.Proofs.Files.Reading

namespace SwiftModel.Files
namespace Program

variable {ε : Type}

theorem searches_placeOf (path : Path) : Searches (placeOf path : Search Program Place) :=
  (Searches.bind (searches_kind? path) fun kind => searches_pure (kind == some .directory)).bind fun is =>
    searches_pure (⟨path, is⟩ : Place)

theorem searches_placesIn (place : Place) : Searches (placesIn place : Search Program (List Place)) := by
  refine (searches_names place.path).bind fun names => ?_
  cases names with
  | error problem => exact searches_throw (⟨place.path, problem⟩ : Unreadable)
  | ok names => exact searches_mapM (fun name => searches_placeOf (place.inside name)) _

theorem searches_candidates (components : List (List Wildcard)) (place : Place) :
    Searches (candidates components place : Search Program (List Candidate)) := by
  induction components generalizing place with
  | nil => exact searches_pure []
  | cons component rest ih =>
      have proceed : ∀ place : Place, Searches
          (if rest.isEmpty then return [⟨place, none⟩] else candidates rest place :
            Search Program (List Candidate)) := by
        intro place
        split
        · exact searches_pure _
        · exact ih place
      rw [candidates]
      split
      next name _ =>
        refine (searches_placeOf _).bind fun next => ?_
        split
        · split
          · exact proceed next
          · exact searches_pure []
        · refine (searches_kind? _).bind fun kind => ?_
          split
          · exact proceed next
          · exact searches_pure []
      next =>
        split
        · exact searches_pure []
        · refine (searches_placesIn place).bind fun children => ?_
          split
          · refine Searches.bind (searches_flatMapM (fun name => ?_) _) fun special => searches_pure _
            split
            · exact (searches_placeOf _).bind proceed
            · exact searches_pure []
          · exact (searches_pure []).bind fun special => searches_pure _

theorem searches_named {components : List (List Wildcard)} {name? : Option String}
    {search : List Wildcard → List (List Wildcard) → String → Search Program (List Path)}
    (each : ∀ component rest name, Searches (search component rest name)) :
    Searches (match components, name? with
      | component :: rest, some name => search component rest name
      | _, _ => return [] : Search Program (List Path)) := by
  split
  · exact each _ _ _
  · exact searches_pure []

theorem searches_matchesOf (directoriesOnly : Bool) (levels : Nat) (candidate : Candidate) :
    Searches (matchesOf directoriesOnly levels candidate : Search Program (List Path)) := by
  induction levels generalizing candidate with
  | zero => exact searches_pure []
  | succ levels ih =>
      obtain ⟨place, _ | components⟩ := candidate
      · exact searches_pure _
      have below : ∀ components, Searches
          (candidates components place >>= fun found => found.flatMapM (matchesOf directoriesOnly levels)) :=
        fun components => (searches_candidates components place).bind fun found => searches_flatMapM ih found
      have byName : ∀ (component : List Wildcard) (rest : List (List Wildcard)) (name : String), Searches
          (if !matchesName component name.toList then return []
            else if !rest.isEmpty then
              candidates rest place >>= fun found => found.flatMapM (matchesOf directoriesOnly levels)
            else return if directoriesOnly && !place.isDirectory then [] else [place.path] :
              Search Program (List Path)) := by
        intro component rest name
        split
        · exact searches_pure []
        · split
          · exact below rest
          · exact searches_pure _
      have deeper : ∀ (rest : List (List Wildcard)) (names : List Path), Searches
          (if place.isDirectory then
            (candidates ([.anyDirectories] :: rest) place >>= fun found =>
              found.flatMapM (matchesOf directoriesOnly levels)) >>= fun more => pure (names ++ more)
          else pure [] >>= fun more => pure (names ++ more) : Search Program (List Path)) := by
        intro rest names
        split
        · exact (below _).bind fun more => searches_pure (names ++ more)
        · exact (searches_pure []).bind fun more => searches_pure (names ++ more)
      rw [matchesOf]
      split
      · exact searches_named byName
      · dsimp only
        split
        · exact (searches_named byName).bind (deeper _)
        · exact Searches.bind (searches_pure _) (deeper _)

theorem searches_expand (pattern : PathPattern) : Searches (expand pattern : Search Program (List Path)) :=
  (searches_placeOf _).bind fun top => (searches_candidates _ top).bind fun found =>
    searches_flatMapM (searches_matchesOf pattern.directoriesOnly maximalLevels) found

end Program
end SwiftModel.Files

namespace SwiftModel.CommandLine
open SwiftModel.Files SwiftModel.Emission

/-- The settings that a run begins with, in a world. -/
inductive Loads (given : List Given) (world : World) : Config.Settings → Prop
  | default : value? .config given = none → Loads given world .default
  | file {path text : String} {settings : Config.Settings} : value? .config given = some path →
    world (.readText ⟨path⟩) = .ok text → Config.load text = .ok settings → Loads given world settings

/-- What is wrong with the configuration, in a world. -/
inductive FailsToLoad (given : List Given) (world : World) : Abort → Prop
  | unreadable {path : String} {problem : Problem} : value? .config given = some path →
    world (.readText ⟨path⟩) = .error problem → FailsToLoad given world (.unreadableConfig ⟨path⟩ problem)
  | bad {path text : String} {failure : Config.Failure} : value? .config given = some path →
    world (.readText ⟨path⟩) = .ok text → Config.load text = .error failure →
    FailsToLoad given world (.badConfig ⟨path⟩ failure)
  | refused {loaded : Config.Settings} {refusal : Refusal} : Loads given world loaded →
    (override given loaded).emission.refusal? = some refusal → FailsToLoad given world (.refused refusal)

/-- The settings of a run, in a world: options come over the configuration, and are accepted. -/
def Configures (given : List Given) (world : World) (settings : Config.Settings) : Prop :=
  ∃ loaded, Loads given world loaded ∧ settings = override given loaded ∧
    settings.emission.refusal? = none

/-- What a search for the paths of a pattern comes to, in a world. -/
def expansion (world : World) (pattern : PathPattern) : Except Unreadable (List Files.Path) :=
  Program.under world (expand pattern).run

/-- The paths that a pattern stands for, in a world: itself, or what matches it, if anything does. -/
inductive StandsFor (world : World) (input : String) : List Files.Path → Prop
  | itself : hasWildcards input = false → StandsFor world input [⟨input⟩]
  | matches {pattern : PathPattern} {paths : List Files.Path} : hasWildcards input = true →
    PathPattern.ofText? input = .ok pattern → expansion world pattern = .ok paths →
    paths ≠ [] → StandsFor world input paths

/-- Why a pattern stands for nothing, in a world. -/
inductive FailsToResolve (world : World) (input : String) : Abort → Prop
  | bad {fault : PatternFault} : hasWildcards input = true → PathPattern.ofText? input = .error fault →
    FailsToResolve world input (.badPattern input fault)
  | unreadable {pattern : PathPattern} {unreadable : Unreadable} : hasWildcards input = true →
    PathPattern.ofText? input = .ok pattern → expansion world pattern = .error unreadable →
    FailsToResolve world input (.unreadableDirectory unreadable)
  | nothing {pattern : PathPattern} : hasWildcards input = true →
    PathPattern.ofText? input = .ok pattern → expansion world pattern = .ok [] →
    FailsToResolve world input (.nothingMatched input)

/-- Why the first pattern that stands for nothing does, wherever it stands. -/
def FailsAmong (world : World) (inputs : List String) (abort : Abort) : Prop :=
  ∃ before input after, inputs = before ++ input :: after ∧
    (∀ other ∈ before, ∃ paths, StandsFor world other paths) ∧ FailsToResolve world input abort

/-- Why a run ends before it processes an input: its configuration, or one of its patterns. -/
inductive Aborts (arguments : Arguments) (world : World) (abort : Abort) : Prop
  | configuration : FailsToLoad arguments.options world abort → Aborts arguments world abort
  | pattern {settings : Config.Settings} : Configures arguments.options world settings →
    FailsAmong world (valuesOf .input arguments.options) abort → Aborts arguments world abort

variable {world : World} {given : List Given} {input : String} {inputs : List String} {abort : Abort}

section Configuration

theorem onlyReads_loadSettings (given : List Given) : (loadSettings given : Program _).OnlyReads := by
  rw [loadSettings]
  split
  next => trivial
  next path _ =>
    refine ⟨trivial, fun source => ?_⟩
    cases source <;> trivial

theorem under_loadSettings_of_none (h : value? .config given = none) :
    (loadSettings given : Program _).under world = .ok .default := by
  rw [loadSettings, h]
  rfl

theorem under_loadSettings_of_some {path : String} (h : value? .config given = some path) :
    (loadSettings given : Program _).under world =
      ((world (.readText ⟨path⟩)).mapError (.unreadableConfig ⟨path⟩)).bind fun text =>
        (Config.load text).mapError (.badConfig ⟨path⟩) := by
  have read : (FileAccess.readText ⟨path⟩ : Program _).under world = world (.readText ⟨path⟩) := rfl
  simp only [loadSettings, h, Program.bind_eq, Program.under_bind, read]
  cases world (.readText ⟨path⟩) <;> rfl

theorem under_loadSettings_eq_ok {settings : Config.Settings} :
    (loadSettings given : Program _).under world = .ok settings ↔ Loads given world settings := by
  cases named : value? .config given with
  | none =>
      rw [under_loadSettings_of_none named]
      constructor
      · rintro ⟨⟩
        exact .default named
      · rintro (_ | ⟨other, -, -⟩)
        · rfl
        · rw [named] at other
          cases other
  | some path =>
      rw [under_loadSettings_of_some named, bind_eq_ok]
      constructor
      · rintro ⟨text, read, loaded⟩
        exact .file named (mapError_eq_ok read) (mapError_eq_ok loaded)
      · rintro (other | ⟨same, read, loaded⟩)
        · rw [named] at other
          cases other
        · cases named.symm.trans same
          exact ⟨_, by rw [read]; rfl, by rw [loaded]; rfl⟩

theorem under_configure (given : List Given) (world : World) :
    (configure given : Program _).under world =
      ((loadSettings given : Program _).under world).bind fun loaded =>
        match (override given loaded).emission.refusal? with
        | some refusal => .error (.refused refusal)
        | none => .ok (override given loaded) := by
  rw [configure, Program.bind_eq, Program.under_bind]
  cases (loadSettings given : Program _).under world with
  | error abort => rfl
  | ok loaded =>
      simp only [Except.bind]
      cases (override given loaded).emission.refusal? <;> rfl

theorem under_configure_eq_ok {settings : Config.Settings} :
    (configure given : Program _).under world = .ok settings ↔ Configures given world settings := by
  rw [under_configure, bind_eq_ok]
  constructor
  · rintro ⟨loaded, loads, accepted⟩
    split at accepted
    next => cases accepted
    next none =>
      cases accepted
      exact ⟨loaded, under_loadSettings_eq_ok.mp loads, rfl, none⟩
  · rintro ⟨loaded, loads, rfl, none⟩
    refine ⟨loaded, under_loadSettings_eq_ok.mpr loads, ?_⟩
    rw [none]

theorem under_loadSettings_eq_error :
    (loadSettings given : Program _).under world = .error abort ↔
      ∃ path, value? .config given = some path ∧
        ((∃ problem, world (.readText ⟨path⟩) = .error problem ∧
            .unreadableConfig ⟨path⟩ problem = abort) ∨
          ∃ text failure, world (.readText ⟨path⟩) = .ok text ∧ Config.load text = .error failure ∧
            .badConfig ⟨path⟩ failure = abort) := by
  cases named : value? .config given with
  | none => simp [under_loadSettings_of_none named]
  | some path =>
      rw [under_loadSettings_of_some named, bind_eq_error]
      constructor
      · rintro (unread | ⟨text, read, bad⟩)
        · exact ⟨path, rfl, .inl (mapError_eq_error unread)⟩
        · obtain ⟨failure, loads, same⟩ := mapError_eq_error bad
          exact ⟨path, rfl, .inr ⟨text, failure, mapError_eq_ok read, loads, same⟩⟩
      · rintro ⟨_, ⟨⟩, ⟨problem, unread, rfl⟩ | ⟨text, failure, read, loads, rfl⟩⟩
        · rw [unread]
          exact .inl rfl
        · rw [read]
          exact .inr ⟨text, rfl, by rw [loads]; rfl⟩

theorem under_configure_eq_error :
    (configure given : Program _).under world = .error abort ↔ FailsToLoad given world abort := by
  rw [under_configure, bind_eq_error, under_loadSettings_eq_error]
  constructor
  · rintro (⟨path, named, unloaded⟩ | ⟨loaded, loads, refused⟩)
    · rcases unloaded with ⟨problem, unread, rfl⟩ | ⟨text, failure, read, loads, rfl⟩
      · exact .unreadable named unread
      · exact .bad named read loads
    · split at refused
      next refusal some =>
        cases refused
        exact .refused (under_loadSettings_eq_ok.mp loads) some
      next => cases refused
  · rintro (⟨named, unread⟩ | ⟨named, read, loads⟩ | ⟨loads, refused⟩)
    · exact .inl ⟨_, named, .inl ⟨_, unread, rfl⟩⟩
    · exact .inl ⟨_, named, .inr ⟨_, _, read, loads, rfl⟩⟩
    · exact .inr ⟨_, under_loadSettings_eq_ok.mpr loads, by rw [refused]⟩

theorem onlyReads_configure (given : List Given) : (configure given : Program _).OnlyReads := by
  refine Program.OnlyReads.bind (onlyReads_loadSettings given) fun result => ?_
  split
  next => trivial
  next loaded =>
    dsimp only
    split <;> trivial

end Configuration

section Patterns

theorem onlyReads_resolve (input : String) : (resolve input : Program _).OnlyReads := by
  rw [resolve]
  split
  · trivial
  · split
    next => trivial
    next pattern _ =>
      refine Program.OnlyReads.bind (Program.searches_expand pattern) fun result => ?_
      split <;> trivial

theorem under_resolve_of_literal (literal : hasWildcards input = false) (world : World) :
    (resolve input : Program _).under world = .ok [⟨input⟩] := by
  rw [resolve, literal]
  rfl

theorem under_resolve_of_wild (wild : hasWildcards input = true) (world : World) :
    (resolve input : Program _).under world =
      ((PathPattern.ofText? input).mapError (.badPattern input)).bind fun pattern =>
        ((expansion world pattern).mapError .unreadableDirectory).bind fun paths =>
          if paths = [] then .error (.nothingMatched input) else .ok paths := by
  rw [resolve, wild]
  cases PathPattern.ofText? input with
  | error fault => rfl
  | ok pattern =>
      simp only [Bool.not_true, Bool.false_eq_true, if_false, Program.bind_eq, Program.under_bind,
        Except.mapError, Except.bind]
      rw [← expansion]
      cases expansion world pattern with
      | error unreadable => rfl
      | ok paths => cases paths <;> rfl

theorem under_resolve_eq_ok {paths : List Files.Path} :
    (resolve input : Program _).under world = .ok paths ↔ StandsFor world input paths := by
  cases wild : hasWildcards input with
  | false =>
      rw [under_resolve_of_literal wild]
      constructor
      · rintro ⟨⟩
        exact .itself wild
      · rintro (_ | ⟨other, -, -, -⟩)
        · rfl
        · rw [wild] at other
          cases other
  | true =>
      rw [under_resolve_of_wild wild, bind_eq_ok]
      simp only [bind_eq_ok]
      constructor
      · rintro ⟨pattern, read, found, expanded, some⟩
        split at some
        next => cases some
        next nonempty =>
          cases some
          exact .matches wild (mapError_eq_ok read) (mapError_eq_ok expanded) nonempty
      · rintro (literal | ⟨-, read, expanded, nonempty⟩)
        · rw [wild] at literal
          cases literal
        · exact ⟨_, by rw [read]; rfl, paths, by rw [expanded]; rfl, if_neg nonempty⟩

theorem under_resolve_eq_error :
    (resolve input : Program _).under world = .error abort ↔ FailsToResolve world input abort := by
  cases wild : hasWildcards input with
  | false =>
      rw [under_resolve_of_literal wild]
      constructor
      · rintro ⟨⟩
      · rintro (⟨other, -⟩ | ⟨other, -, -⟩ | ⟨other, -, -⟩) <;>
        · rw [wild] at other
          cases other
  | true =>
      rw [under_resolve_of_wild wild, bind_eq_error]
      simp only [bind_eq_error]
      constructor
      · rintro (bad | ⟨pattern, read, closed | ⟨found, expanded, none⟩⟩)
        · obtain ⟨fault, read, rfl⟩ := mapError_eq_error bad
          exact .bad wild read
        · obtain ⟨unreadable, expanded, rfl⟩ := mapError_eq_error closed
          exact .unreadable wild (mapError_eq_ok read) expanded
        · split at none
          next empty =>
            cases none
            subst empty
            exact .nothing wild (mapError_eq_ok read) (mapError_eq_ok expanded)
          next => cases none
      · rintro (⟨-, read⟩ | ⟨-, read, expanded⟩ | ⟨-, read, expanded⟩)
        · rw [read]
          exact .inl rfl
        · rw [read]
          exact .inr ⟨_, rfl, .inl (by rw [expanded]; rfl)⟩
        · rw [read]
          exact .inr ⟨_, rfl, .inr ⟨[], by rw [expanded]; rfl, if_pos rfl⟩⟩

theorem onlyReads_resolveAll (inputs : List String) : (resolveAll inputs : Program _).OnlyReads := by
  induction inputs with
  | nil => trivial
  | cons input inputs ih =>
      refine Program.OnlyReads.bind (onlyReads_resolve input) fun result => ?_
      split
      next => trivial
      next => exact ih.bind fun _ => trivial

theorem under_resolveAll_cons (input : String) (inputs : List String) (world : World) :
    (resolveAll (input :: inputs) : Program _).under world =
      ((resolve input : Program _).under world).bind fun paths =>
        ((resolveAll inputs : Program _).under world).map (paths ++ ·) := by
  rw [resolveAll, Program.bind_eq, Program.under_bind]
  cases (resolve input : Program _).under world with
  | error abort => rfl
  | ok paths =>
      simp only [Program.bind_eq, Program.under_bind, Except.bind]
      rfl

/-- The paths of all patterns, those of each where it stands. -/
theorem under_resolveAll_eq_ok {paths : List Files.Path} :
    (resolveAll inputs : Program _).under world = .ok paths ↔
      ∃ lists, List.Forall₂ (StandsFor world) inputs lists ∧ paths = lists.flatten := by
  induction inputs generalizing paths with
  | nil =>
      constructor
      · rintro ⟨⟩
        exact ⟨[], .nil, rfl⟩
      · rintro ⟨_, ⟨⟩, rfl⟩
        rfl
  | cons input inputs ih =>
      rw [under_resolveAll_cons, bind_eq_ok]
      constructor
      · rintro ⟨first, resolved, rest⟩
        obtain ⟨more, others, rfl⟩ := map_eq_ok rest
        obtain ⟨lists, each, rfl⟩ := ih.mp others
        exact ⟨first :: lists, .cons (under_resolve_eq_ok.mp resolved) each, rfl⟩
      · rintro ⟨lists, each, rfl⟩
        obtain ⟨first, rest, stands, others, rfl⟩ := List.forall₂_cons_left_iff.mp each
        refine ⟨first, under_resolve_eq_ok.mpr stands, ?_⟩
        rw [ih.mpr ⟨rest, others, rfl⟩]
        rfl

theorem under_resolveAll_eq_error :
    (resolveAll inputs : Program _).under world = .error abort ↔ FailsAmong world inputs abort := by
  induction inputs with
  | nil =>
      constructor
      · rintro ⟨⟩
      · rintro ⟨before, input, after, same, -⟩
        cases before <;> cases same
  | cons input inputs ih =>
      rw [under_resolveAll_cons, bind_eq_error]
      constructor
      · rintro (failed | ⟨first, resolved, rest⟩)
        · exact ⟨[], input, inputs, rfl, fun _ member => (nomatch member), under_resolve_eq_error.mp failed⟩
        · cases others : (resolveAll inputs : Program _).under world with
          | ok more =>
              rw [others] at rest
              cases rest
          | error other =>
              rw [others] at rest
              cases rest
              obtain ⟨before, failing, after, rfl, resolve, fails⟩ := ih.mp others
              refine ⟨input :: before, failing, after, rfl, ?_, fails⟩
              exact List.forall_mem_cons.mpr ⟨⟨first, under_resolve_eq_ok.mp resolved⟩, resolve⟩
      · rintro ⟨_ | ⟨_, before⟩, failing, after, same, resolve, fails⟩
        · cases same
          exact .inl (under_resolve_eq_error.mpr fails)
        · cases same
          obtain ⟨⟨first, stands⟩, resolve⟩ := List.forall_mem_cons.mp resolve
          refine .inr ⟨first, under_resolve_eq_ok.mpr stands, ?_⟩
          rw [ih.mpr ⟨before, failing, after, rfl, resolve, fails⟩]
          rfl

end Patterns

section Preparation

variable {arguments : Arguments} {settings : Config.Settings}

/-- A run up to its first input: its settings, and the paths of all its inputs. -/
def prepare (arguments : Arguments) : Program (Except Abort (Config.Settings × List Files.Path)) :=
  (configure arguments.options : Program _).bind fun
    | .error abort => .done (.error abort)
    | .ok settings => (resolveAll (valuesOf .input arguments.options) : Program _).bind fun resolved =>
        .done (resolved.map fun inputs => (settings, inputs))

theorem onlyReads_prepare (arguments : Arguments) : (prepare arguments).OnlyReads := by
  refine (onlyReads_configure _).bind fun configured => ?_
  split
  next => trivial
  next => exact (onlyReads_resolveAll _).bind fun _ => trivial

theorem under_prepare (arguments : Arguments) (world : World) :
    (prepare arguments).under world =
      ((configure arguments.options : Program _).under world).bind fun settings =>
        ((resolveAll (valuesOf .input arguments.options) : Program _).under world).map fun inputs =>
          (settings, inputs) := by
  rw [prepare, Program.under_bind]
  cases (configure arguments.options : Program _).under world with
  | error abort => rfl
  | ok settings => exact Program.under_bind world _ _

theorem under_prepare_eq_ok {paths : List Files.Path} :
    (prepare arguments).under world = .ok (settings, paths) ↔
      Configures arguments.options world settings ∧ ∃ lists,
        List.Forall₂ (StandsFor world) (valuesOf .input arguments.options) lists ∧
          paths = lists.flatten := by
  rw [under_prepare, bind_eq_ok]
  constructor
  · rintro ⟨_, configured, prepared⟩
    obtain ⟨_, resolved, ⟨⟩⟩ := map_eq_ok prepared
    exact ⟨under_configure_eq_ok.mp configured, under_resolveAll_eq_ok.mp resolved⟩
  · rintro ⟨configures, resolves⟩
    refine ⟨settings, under_configure_eq_ok.mpr configures, ?_⟩
    rw [under_resolveAll_eq_ok.mpr resolves]
    rfl

theorem under_prepare_eq_error :
    (prepare arguments).under world = .error abort ↔ Aborts arguments world abort := by
  rw [under_prepare, bind_eq_error]
  constructor
  · rintro (failed | ⟨settings, configured, failed⟩)
    · exact .configuration (under_configure_eq_error.mp failed)
    · have fails := under_resolveAll_eq_error.mp (map_eq_error.mp failed)
      exact .pattern (under_configure_eq_ok.mp configured) fails
  · rintro (failed | ⟨configures, fails⟩)
    · exact .inl (under_configure_eq_error.mpr failed)
    · have failed := under_resolveAll_eq_error.mpr fails
      exact .inr ⟨_, under_configure_eq_ok.mpr configures, map_eq_error.mpr failed⟩

end Preparation

end SwiftModel.CommandLine
