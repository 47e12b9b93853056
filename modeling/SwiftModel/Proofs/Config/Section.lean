/- What the readers of a configuration make of the texts of the grammar. A section is changed by the members
that are written and by no others, in whatever order they stand. -/
import Mathlib.Data.List.Pairwise
import SwiftModel.Config.Reader
import SwiftModel.Proofs.Json.Growth

namespace SwiftModel.Config
open SwiftModel.Json

section Values

variable {α : Type} {value : α} {read : Reader α} {choices : List (String × Choice α)} {name : String}

/-- Every text of a language is read as this value. -/
def ReadAs (read : Reader α) (text : Language) (value : α) : Prop :=
  ∀ body, text body → Grows (fun tree => read tree = .ok value) body

theorem readAs_string (content : String) : ReadAs readString (StringText content) content := by
  intro body spelled
  exact grows_token (lexesAs_string spelled) trivial fun _ _ => rfl

theorem readAs_boolean (value : Bool) : ReadAs readBoolean (BooleanText value) value := by
  intro body spelled
  exact grows_token (lexesAs_boolean spelled) trivial fun _ _ => rfl

theorem readAs_width {width : Nat} (small : width < 2 ^ 64) : ReadAs readWidth (NaturalText width) width := by
  intro body spelled
  apply grows_token (lexesAs_natural small spelled) trivial
  intro here after
  rw [readWidth, if_pos (Int.natCast_nonneg width), Int.toNat_natCast]

def StringsText (words : List String) : Language := ArrayText (words.map StringText)

theorem readItems_of_strings {words : List String} {items : List Tree}
    (each : List.Forall₂ (fun word item => readString item = .ok word) words items) (index : Nat) :
    readItems readString index items = .ok words := by
  induction each generalizing index with
  | nil => rfl
  | @cons word item words items head _ ih =>
      cases item with
      | missing => cases head
      | _ =>
          rw [readItems, head, ih]
          · rfl
          · simp

theorem readAs_strings (words : List String) : ReadAs (readList readString) (StringsText words) words := by
  intro body spelled
  refine (grows_array (fun word _ => readAs_string word) spelled).mono ?_
  rintro _ ⟨here, items, after, rfl, each⟩
  rw [readList, readItems_of_strings each]
  rfl

theorem readAs_bare (found : choices.lookup name = some (.bare value)) :
    ReadAs (readChoice choices) (StringText name) value := by
  intro body spelled
  apply grows_token (lexesAs_string spelled) trivial
  intro here after
  rw [readChoice, findChoice, found]
  rfl

theorem readAs_carrying {text : Language} (found : choices.lookup name = some (.carrying read))
    (reads : ReadAs read text value) : ReadAs (readChoice choices) (ObjectText [(name, text)]) value := by
  intro body spelled
  have grow : ∀ member ∈ [(name, text)], ∀ body, member.2 body →
      Grows (fun tree => read tree = .ok value) body := by
    intro member only
    rw [List.mem_singleton.mp only]
    exact reads
  refine (grows_object grow spelled).mono ?_
  rintro _ ⟨here, written, after, rfl, each, closes⟩
  cases each with
  | @cons _ w _ _ head rest =>
      cases rest
      obtain ⟨key, tree⟩ := w
      obtain ⟨named, taken⟩ := head
      dsimp only at named taken
      have closing := closes _ rfl
      dsimp only at closing
      simp only [readChoice, named, Except.mapError, findChoice, found, Choice.read, taken, within,
        closeChoice, closing, bind, Except.bind]

end Values

section Sections

variable {σ : Type}

/-- What a section may be told: the name of a member, the texts of its value if it is written at all, and what
it then makes of the section. -/
structure Change (σ : Type) where
  name : String
  text : Option Language
  apply : σ → σ

def Change.of {α : Type} (name : String) (text : α → Language) (value : Option α) (apply : Option α → σ → σ) :
    Change σ := ⟨name, value.map text, apply value⟩

/-- The members that are written, with the texts of their values. -/
def writtenMembers (changes : List (Change σ)) : List (String × Language) :=
  changes.filterMap fun change => change.text.map fun text => (change.name, text)

/-- The members that are written, each once, mixed with any values of other names in any order. -/
structure Mixes (changes : List (Change σ)) (others : List String) (listed : List (String × Language)) : Prop where
  unknown : ∀ name ∈ others, name ∉ changes.map Change.name
  perm : List.Perm listed (writtenMembers changes ++ others.map fun name => (name, ValueText))

def SectionText (changes : List (Change σ)) : Language := fun text =>
  ∃ others listed, Mixes changes others listed ∧ ObjectText listed text

/-- A member of a section is read as the change that bears its name. -/
structure Member.Makes (member : Member σ) (change : Change σ) : Prop where
  name : member.name = change.name
  keeps : change.text = none → ∀ values, change.apply values = values
  reads : ∀ text, change.text = some text → ∀ body, text body →
    Grows (fun tree => ∀ values, member.read values tree = .ok (change.apply values)) body

structure Describes (members : List (Member σ)) (changes : List (Change σ)) : Prop where
  makes : List.Forall₂ Member.Makes members changes
  distinct : (changes.map Change.name).Nodup
  commute : changes.Pairwise fun first second => ∀ values,
    first.apply (second.apply values) = second.apply (first.apply values)

def changeNamed (changes : List (Change σ)) (name : String) (values : σ) : σ :=
  match changes.find? (·.name == name) with
  | some change => change.apply values
  | none => values

variable {members : List (Member σ)} {changes : List (Change σ)} {name : String} {others : List String}
  {listed : List (String × Language)}

theorem find?_of_makes (makes : List.Forall₂ Member.Makes members changes) (name : String) :
    match members.find? (·.name == name) with
    | some member => ∃ change, changes.find? (·.name == name) = some change ∧ member.Makes change
    | none => changes.find? (·.name == name) = none := by
  induction makes with
  | nil => rfl
  | @cons member change members changes first _ ih =>
      rw [List.find?_cons, List.find?_cons, first.name]
      cases change.name == name with
      | true => exact ⟨change, rfl, first⟩
      | false => exact ih

theorem find?_of_mem (distinct : (changes.map Change.name).Nodup) {change : Change σ}
    (member : change ∈ changes) : changes.find? (·.name == change.name) = some change := by
  induction changes with
  | nil => cases member
  | cons first changes ih =>
      obtain ⟨other, rest⟩ := List.nodup_cons.mp distinct
      rcases List.mem_cons.mp member with rfl | later
      · rw [List.find?_cons, beq_self_eq_true]
      · have apart : first.name ≠ change.name := fun same =>
          other (same ▸ List.mem_map_of_mem later)
        rw [List.find?_cons, beq_eq_false_iff_ne.mpr apart]
        exact ih rest later

theorem find?_eq_none_iff : changes.find? (·.name == name) = none ↔ name ∉ changes.map Change.name := by
  rw [List.find?_eq_none, List.mem_map]
  constructor
  · rintro none ⟨change, member, rfl⟩
    exact none change member (beq_self_eq_true _)
  · intro unknown change member same
    exact unknown ⟨change, member, eq_of_beq same⟩

theorem changeNamed_of_mem (distinct : (changes.map Change.name).Nodup) {change : Change σ}
    (member : change ∈ changes) (values : σ) :
    changeNamed changes change.name values = change.apply values := by
  rw [changeNamed, find?_of_mem distinct member]

theorem changeNamed_of_not_mem (unknown : name ∉ changes.map Change.name) (values : σ) :
    changeNamed changes name values = values := by
  rw [changeNamed, find?_eq_none_iff.mpr unknown]

theorem Describes.commutes (describes : Describes members changes) {first second : Change σ}
    (mem : first ∈ changes) (mem' : second ∈ changes) (values : σ) :
    first.apply (second.apply values) = second.apply (first.apply values) := by
  have symmetric : Std.Symm fun first second : Change σ => ∀ values,
      first.apply (second.apply values) = second.apply (first.apply values) :=
    ⟨fun _ _ same values => (same values).symm⟩
  exact describes.commute.forall_of_forall (fun _ _ _ => rfl) mem mem' values

theorem changeNamed_comm (describes : Describes members changes) (first second : String) (values : σ) :
    changeNamed changes first (changeNamed changes second values) =
      changeNamed changes second (changeNamed changes first values) := by
  unfold changeNamed
  cases found : changes.find? (·.name == first) with
  | none => rfl
  | some one =>
      cases found' : changes.find? (·.name == second) with
      | none => rfl
      | some other =>
          exact describes.commutes (List.mem_of_find?_eq_some found) (List.mem_of_find?_eq_some found') values

/-- How a member that is written is taken: as its section says, or it is passed over. -/
def TakenBy (members : List (Member σ)) (changes : List (Change σ)) (name : String) (tree : Tree) : Prop :=
  match members.find? (·.name == name) with
  | some member => ∀ values, member.read values tree = .ok (changeNamed changes name values)
  | none => tree.passingFault? = none

theorem grows_written (describes : Describes members changes) {text : Language}
    (written : (name, text) ∈ writtenMembers changes) {body : List Char} (spelled : text body) :
    Grows (TakenBy members changes name) body := by
  obtain ⟨change, listed, same⟩ := List.mem_filterMap.mp written
  obtain ⟨_, is, ⟨⟩⟩ := Option.map_eq_some_iff.mp same
  have known := find?_of_makes describes.makes change.name
  have found := find?_of_mem describes.distinct listed
  unfold TakenBy
  cases looked : members.find? (·.name == change.name) with
  | none =>
      rw [looked] at known
      exact absurd (found.symm.trans known) (by simp)
  | some member =>
      rw [looked] at known
      obtain ⟨_, found', makes⟩ := known
      cases found.symm.trans found'
      refine (makes.reads text is body spelled).mono fun tree reads values => ?_
      rw [changeNamed_of_mem describes.distinct listed, reads]

theorem find?_eq_none_of_not_mem (describes : Describes members changes)
    (unknown : name ∉ changes.map Change.name) : members.find? (·.name == name) = none := by
  have known := find?_of_makes describes.makes name
  cases looked : members.find? (·.name == name) with
  | none => rfl
  | some member =>
      rw [looked] at known
      obtain ⟨change, found, -⟩ := known
      exact absurd (found.symm.trans (find?_eq_none_iff.mpr unknown)) (by simp)

theorem grows_unknown (describes : Describes members changes) (unknown : name ∉ changes.map Change.name)
    {body : List Char} (value : ValueText body) : Grows (TakenBy members changes name) body := by
  unfold TakenBy
  rw [find?_eq_none_of_not_mem describes unknown]
  exact grows_value value

def Known (members : List (Member σ)) (name : String) : Bool := (members.find? (·.name == name)).isSome

/-- By induction on the members of the object. No known member is there twice, here or among those that are
read already. -/
theorem readMembers_of_taken (describes : Describes members changes) {written : List (Key × Tree)}
    (each : List.Forall₂ (fun member w => w.1.content = .ok member.1 ∧ TakenBy members changes member.1 w.2)
      listed written) {seen : List String}
    (once : ((listed.map Prod.fst).filter (Known members) ++ seen).Nodup) (after : List Char) (values : σ) :
    readMembers members (.closed after) seen values written =
      .ok (listed.foldl (fun values member => changeNamed changes member.1 values) values) := by
  induction each generalizing seen values with
  | nil => rfl
  | @cons member w listed written head _ ih =>
      obtain ⟨key, tree⟩ := w
      obtain ⟨named, taken⟩ := head
      dsimp only at named taken
      rw [readMembers, named, List.foldl_cons]
      unfold TakenBy at taken
      rw [List.map_cons, List.filter_cons, Known] at once
      cases looked : members.find? (·.name == member.1) with
      | none =>
          rw [looked] at taken once
          have same : changeNamed changes member.1 values = values := by
            have known := find?_of_makes describes.makes member.1
            rw [looked] at known
            rw [changeNamed, known]
          rw [same, ← ih once values]
          simp only [Except.mapError, within, checkDuplicate, looked, taken, faultless, bind, Except.bind]
      | some known =>
          rw [looked] at taken once
          simp only [Option.isSome_some, if_true, List.cons_append] at once
          have unseen : seen.contains member.1 = false := by
            rw [← Bool.not_eq_true, List.contains_iff_mem]
            exact fun earlier => (List.nodup_cons.mp once).1 (List.mem_append_right _ earlier)
          have once' := List.perm_middle.nodup_iff.mpr once
          rw [← ih once' (changeNamed changes member.1 values)]
          simp only [Except.mapError, within, checkDuplicate, looked, unseen, taken, settled, bind,
            Except.bind, Bool.false_eq_true, if_false]

theorem names_writtenMembers (changes : List (Change σ)) :
    ((writtenMembers changes).map Prod.fst).Sublist (changes.map Change.name) := by
  induction changes with
  | nil => exact .slnil
  | cons change changes ih =>
      rw [writtenMembers, List.filterMap_cons]
      cases change.text with
      | none => exact ih.cons change.name
      | some text => exact ih.cons_cons change.name

/-- No member of the section is written twice. -/
theorem nodup_known (describes : Describes members changes) (mixes : Mixes changes others listed) :
    ((listed.map Prod.fst).filter (Known members)).Nodup := by
  rw [((mixes.perm.map Prod.fst).filter _).nodup_iff, List.map_append, List.filter_append]
  have none : ((others.map fun name => (name, ValueText)).map Prod.fst).filter (Known members) = [] := by
    rw [List.map_map, List.filter_eq_nil_iff]
    intro name member
    obtain ⟨other, listed, rfl⟩ := List.mem_map.mp member
    simp [Known, find?_eq_none_of_not_mem describes (mixes.unknown other listed)]
  rw [none, List.append_nil]
  exact ((names_writtenMembers changes).nodup describes.distinct).filter _

theorem foldl_writtenMembers (distinct : (changes.map Change.name).Nodup) {listed : List (Change σ)}
    (known : ∀ change ∈ listed, change ∈ changes) (kept : ∀ change ∈ listed, change.text = none →
      ∀ values, change.apply values = values) (values : σ) :
    (writtenMembers listed).foldl (fun values member => changeNamed changes member.1 values) values =
      listed.foldl (fun values change => change.apply values) values := by
  induction listed generalizing values with
  | nil => rfl
  | cons change listed ih =>
      obtain ⟨own, others⟩ := List.forall_mem_cons.mp known
      obtain ⟨keeps, keep⟩ := List.forall_mem_cons.mp kept
      rw [writtenMembers, List.filterMap_cons, List.foldl_cons, ← ih others keep]
      cases written : change.text with
      | none => rw [keeps written, Option.map_none, writtenMembers]
      | some text =>
          rw [Option.map_some, List.foldl_cons, changeNamed_of_mem distinct own, writtenMembers]

theorem foldl_others (unknown : ∀ name ∈ others, name ∉ changes.map Change.name)
    (values : σ) :
    (others.map fun name => (name, ValueText)).foldl
      (fun values member => changeNamed changes member.1 values) values = values := by
  induction others with
  | nil => rfl
  | cons name others ih =>
      obtain ⟨own, unknown⟩ := List.forall_mem_cons.mp unknown
      rw [List.map_cons, List.foldl_cons, changeNamed_of_not_mem own]
      exact ih unknown

/-- In any order, the members make of a section what its changes make of it. -/
theorem foldl_of_mixes (describes : Describes members changes) (mixes : Mixes changes others listed)
    (values : σ) :
    listed.foldl (fun values member => changeNamed changes member.1 values) values =
      changes.foldl (fun values change => change.apply values) values := by
  have kept : ∀ change ∈ changes, change.text = none → ∀ values, change.apply values = values :=
    forall_right_of_forall₂ describes.makes fun _ _ makes => makes.keeps
  rw [mixes.perm.foldl_eq' (fun first _ second _ values => changeNamed_comm describes second.1 first.1 values),
    List.foldl_append, foldl_writtenMembers describes.distinct (fun _ member => member) kept,
    foldl_others mixes.unknown]

theorem grows_sectionText (describes : Describes members changes) (name : String) {body : List Char}
    (spelled : SectionText changes body) :
    Grows (fun tree => ∀ values, readSection name members values tree =
      .ok (changes.foldl (fun values change => change.apply values) values)) body := by
  obtain ⟨others, listed, mixes, object⟩ := spelled
  have grow : ∀ member ∈ listed, ∀ body, member.2 body → Grows (TakenBy members changes member.1) body := by
    intro member written body spelled
    rcases List.mem_append.mp (mixes.perm.mem_iff.mp written) with own | other
    · exact grows_written describes own spelled
    · obtain ⟨name, member, rfl⟩ := List.mem_map.mp other
      exact grows_unknown describes (mixes.unknown name member) spelled
  refine (grows_object grow object).mono ?_
  rintro _ ⟨here, written, after, rfl, each, -⟩ values
  have once := nodup_known describes mixes
  rw [← List.append_nil (List.filter _ _)] at once
  rw [readSection, readMembers_of_taken describes each once, foldl_of_mixes describes mixes]

end Sections

end SwiftModel.Config
