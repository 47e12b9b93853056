/- Patterns for file names. -/

namespace SwiftModel.Files

inductive CharacterRange
  | single (c : Char)
  | span (first last : Char)
deriving DecidableEq

inductive Wildcard
  | literal (c : Char)
  | anyCharacter
  | anyRun
  /-- Any number of directories. -/
  | anyDirectories
  | oneOf (set : List CharacterRange)
  | noneOf (set : List CharacterRange)
deriving DecidableEq

inductive PatternCause
  | invalidRange
  | misplacedDirectories
  | tooManyStars
deriving DecidableEq

structure PatternFault where
  position : Nat
  cause : PatternCause
deriving DecidableEq

def PatternCause.message : PatternCause → String
  | .invalidRange => "invalid range pattern"
  | .misplacedDirectories => "recursive wildcards must form a single path component"
  | .tooManyStars => "wildcards are either regular \x60*\x60 or recursive \x60**\x60"

def PatternFault.message (fault : PatternFault) : String :=
  "Pattern syntax error near position " ++ toString fault.position ++ ": " ++ fault.cause.message

/-- The members of a set; a hyphen between two characters makes a span of them. -/
def characterRanges : List Char → List CharacterRange
  | first :: '-' :: last :: rest => .span first last :: characterRanges rest
  | c :: rest => .single c :: characterRanges rest
  | [] => []

def CharacterRange.holds (c : Char) : CharacterRange → Bool
  | .single d => c == d
  | .span first last => first ≤ c && c ≤ last

/-- A set whose opening bracket is read, and how many characters it takes with its closing one.
The first character of a set never closes it. -/
def readSet? (text : List Char) : Option (Wildcard × Nat) :=
  match text with
  | '!' :: first :: rest =>
    (rest.findIdx? (· == ']')).map fun n =>
      (.noneOf (characterRanges (first :: rest.take n)), n + 3)
  | '!' :: [] => none
  | first :: rest =>
    (rest.findIdx? (· == ']')).map fun n =>
      (.oneOf (characterRanges (first :: rest.take n)), n + 2)
  | [] => none

/-- Reads a pattern from a position on, behind a character or at the front. -/
def readPattern (position : Nat) (previous : Option Char) (text : List Char) :
    Except PatternFault (List Wildcard) :=
  match text with
  | [] => .ok []
  | '?' :: rest => (readPattern (position + 1) (some '?') rest).map (.anyCharacter :: ·)
  | '*' :: '*' :: '*' :: _ => .error ⟨position + 2, .tooManyStars⟩
  | '*' :: '*' :: rest =>
    if previous = none ∨ previous = some '/' then
      match rest with
      | [] => .ok [.anyDirectories]
      | '/' :: rest => (readPattern (position + 3) (some '/') rest).map (.anyDirectories :: ·)
      | _ => .error ⟨position + 2, .misplacedDirectories⟩
    else .error ⟨position - 1, .misplacedDirectories⟩
  | '*' :: rest => (readPattern (position + 1) (some '*') rest).map (.anyRun :: ·)
  | '[' :: rest =>
    match readSet? rest with
    | none => .error ⟨position, .invalidRange⟩
    | some (set, width) =>
      (readPattern (position + 1 + width) (some ']') (rest.drop width)).map (set :: ·)
  | c :: rest => (readPattern (position + 1) (some c) rest).map (.literal c :: ·)
termination_by text.length
decreasing_by all_goals simp only [List.length_cons, List.length_drop]; omega

def Wildcard.holds (c : Char) : Wildcard → Bool
  | .literal d => c == d
  | .anyCharacter => true
  | .oneOf set => set.any (·.holds c)
  | .noneOf set => !set.any (·.holds c)
  | .anyRun | .anyDirectories => false

/-- What is left of a name behind each of its fronts. -/
def suffixes : List Char → List (List Char)
  | [] => [[]]
  | c :: cs => (c :: cs) :: suffixes cs

def matchesName : List Wildcard → List Char → Bool
  | [], name => name.isEmpty
  | .anyRun :: pattern, name => (suffixes name).any (matchesName pattern)
  | .anyDirectories :: pattern, name => matchesName pattern name
  | _ :: _, [] => false
  | wildcard :: pattern, c :: name => wildcard.holds c && matchesName pattern name

/-- The character that a wildcard stands for, if it is no more than that. -/
def Wildcard.literal? : Wildcard → Option Char
  | .literal c => some c
  | _ => none

def literalText? (pattern : List Wildcard) : Option String :=
  (pattern.mapM Wildcard.literal?).map String.ofList

end SwiftModel.Files
