/- The trees of the texts of the grammar. What is read of a text is the same inside all containers and in
front of all that may follow, so that the tree of a container is made of the trees of its parts. -/
import Mathlib.Data.List.Forall2
import SwiftModel.Proofs.Json.Lexing

namespace SwiftModel.Json

/-- The tree that comes of going on with the rest of the text. -/
def Progress.resume (rest : List Char) : Progress → Tree
  | .done tree => tree
  | .going place enclosing => run place enclosing (lexemes rest)

/-- Where a value may begin, and the containers that it then stands in. -/
inductive Begins : Place → List Enclosing → List Enclosing → Prop
  | value {enclosing : List Enclosing} : Begins .value enclosing enclosing
  | item {here : List Char} {items : List Tree} {due : Due} {enclosing : List Enclosing} :
    due ≠ .separator → Begins (.inArray here items due) enclosing (.array here items :: enclosing)

/-- The texts that are read to their end as a tree of this kind. -/
def Grows (holds : Tree → Prop) : Language := fun text =>
  ∀ rest, Halts rest → ∃ tree, holds tree ∧ tree.after = rest ∧
    ∀ place enclosing inner, Begins place enclosing inner →
      run place enclosing (lexemes (text ++ rest)) = (deliver tree inner).resume rest

section Steps

variable {place : Place} {enclosing inner : List Enclosing} {lexeme : Lexeme} {text rest here : List Char}
  {holds : Tree → Prop}

theorem run_cons (lexeme : Lexeme) (rest : List Char) :
    run place enclosing (lexeme :: lexemes rest) = (step place enclosing lexeme).resume rest := by
  rw [run]
  cases step place enclosing lexeme <;> rfl

theorem step_of_begins (begins : Begins place enclosing inner) (opens : lexeme.token ≠ .closeArray) :
    step place enclosing lexeme = begin lexeme inner := by
  cases begins with
  | value => rfl
  | @item here items due _ inside =>
      rw [step]
      unfold stepArray
      dsimp only
      split
      next closes => exact absurd closes opens
      next closes => exact absurd closes opens
      next => exact absurd rfl inside
      next => exact absurd rfl inside
      next => rfl

theorem Grows.mono {others : Tree → Prop} (grows : Grows holds text)
    (weaker : ∀ tree, holds tree → others tree) : Grows others text := by
  intro rest halts
  obtain ⟨tree, held, after, runs⟩ := grows rest halts
  exact ⟨tree, weaker tree held, after, runs⟩

/-- A scalar is a leaf. -/
def Token.IsScalar : Token → Prop
  | .null | .boolean _ | .number _ | .string _ => True
  | _ => False

theorem grows_leaf {tokens : Token → Prop} (lexes : LexesAs tokens text)
    (scalars : ∀ token, tokens token → token.IsScalar)
    (leaf : ∀ token here after, tokens token → holds (.leaf ⟨token, here, after⟩)) : Grows holds text := by
  intro rest halts
  obtain ⟨token, held, lexeme⟩ := lexes rest halts
  refine ⟨.leaf ⟨token, text ++ rest, rest⟩, leaf token _ _ held, rfl, fun place enclosing inner begins => ?_⟩
  have scalar := scalars token held
  rw [lexeme, run_cons, step_of_begins begins, begin]
  · cases token with
    | null | boolean | number | string => rfl
    | _ => cases scalar
  · rintro ⟨⟩
    cases scalar

theorem grows_token {token : Token} (lexes : LexesAs (· = token) text) (scalar : token.IsScalar)
    (leaf : ∀ here after, holds (.leaf ⟨token, here, after⟩)) : Grows holds text := by
  apply grows_leaf lexes
  · rintro _ rfl
    exact scalar
  · rintro _ here after rfl
    exact leaf here after

end Steps

section Containers

variable {ι τ : Type} {index : List ι} {enclosing inner : List Enclosing} {place : Place}
  {here text rest : List Char}

theorem Listed.first {item : Language} {items : List Language} (listed : Listed (item :: items) text) :
    ∃ first, Padded item first ∧
      (items = [] ∧ text = first ∨ ∃ others, Listed items others ∧ text = first ++ ',' :: others) := by
  cases listed with
  | last padded => exact ⟨text, padded, .inl ⟨rfl, rfl⟩⟩
  | more padded listed => exact ⟨_, padded, .inr ⟨_, listed, rfl⟩⟩

/-- Reading goes on from one state of a container to another, whatever the container stands in. -/
def Leads (first : Place) (text : List Char) (last : Place) (rest : List Char) : Prop :=
  ∀ enclosing, run first enclosing (lexemes text) = run last enclosing (lexemes rest)

/-- By induction on the parts of a container, from what reading one of them does. -/
theorem leads_listed {item : ι → Language} {holds : ι → τ → Prop} {after : τ → List Char}
    (inside : List τ → Due → Place)
    (comma : ∀ done rest, Leads (inside done .separator) (',' :: rest) (inside done .behindComma) rest)
    (part : ∀ i ∈ index, ∀ body, Padded (item i) body → ∀ done due rest, due ≠ .separator → Halts rest →
      ∃ t, holds i t ∧ skipBlank (after t) = skipBlank rest ∧
        Leads (inside done due) (body ++ rest) (inside (t :: done) .separator) rest)
    (listed : Listed (index.map item) text) (done : List τ) {due : Due} (begins : due ≠ .separator)
    (halts : Halts rest) :
    ∃ ts, List.Forall₂ holds index ts ∧ (∀ t, ts = [t] → skipBlank (after t) = skipBlank rest) ∧
      Leads (inside done due) (text ++ rest) (inside (ts.reverse ++ done) .separator) rest := by
  induction index generalizing text done due with
  | nil => cases listed
  | cons i index ih =>
      obtain ⟨own, others⟩ := List.forall_mem_cons.mp part
      obtain ⟨first, padded, ⟨none, rfl⟩ | ⟨more, further, rfl⟩⟩ := listed.first
      · obtain ⟨t, held, behind, leads⟩ := own text padded done due rest begins halts
        obtain rfl : index = [] := List.map_eq_nil_iff.mp none
        refine ⟨[t], .cons held .nil, ?_, leads⟩
        rintro _ ⟨⟩
        exact behind
      · obtain ⟨t, held, -, leads⟩ :=
          own first padded done due (',' :: (more ++ rest)) begins (.cons _ (by decide))
        have goesOn : Due.behindComma ≠ .separator := by decide
        obtain ⟨ts, each, -, leads'⟩ := ih others further (t :: done) goesOn
        refine ⟨t :: ts, .cons held each, ?_, fun enclosing => ?_⟩
        · rintro _ ⟨⟩
          cases each
          cases further
        · rw [List.append_assoc, List.cons_append, leads, comma, leads', List.reverse_cons, List.append_assoc]
          rfl

theorem leads_delimited {item : ι → Language} {holds : ι → τ → Prop} {after : τ → List Char}
    {opening closing : Char} (inside : List τ → Due → Place)
    (comma : ∀ done rest, Leads (inside done .separator) (',' :: rest) (inside done .behindComma) rest)
    (part : ∀ i ∈ index, ∀ body, Padded (item i) body → ∀ done due rest, due ≠ .separator → Halts rest →
      ∃ t, holds i t ∧ skipBlank (after t) = skipBlank rest ∧
        Leads (inside done due) (body ++ rest) (inside (t :: done) .separator) rest)
    (delimited : Delimited opening closing (index.map item) (opening :: text))
    (halts : Halts (closing :: rest)) :
    ∃ ts due, List.Forall₂ holds index ts ∧
      (∀ t, ts = [t] → skipBlank (after t) = skipBlank (closing :: rest)) ∧ due ≠ .behindComma ∧
      Leads (inside [] .first) (text ++ rest) (inside ts.reverse due) (closing :: rest) := by
  generalize same : index.map item = languages at delimited
  cases delimited with
  | none blank =>
      obtain rfl : index = [] := List.map_eq_nil_iff.mp same
      refine ⟨[], .first, .nil, fun _ none => (nomatch none), by decide, fun enclosing => ?_⟩
      rw [List.append_assoc, lexemes_append blank]
      rfl
  | some listed =>
      subst same
      have begins : Due.first ≠ .separator := by decide
      obtain ⟨ts, each, single, leads⟩ := leads_listed inside comma part listed [] begins halts
      refine ⟨ts, .separator, each, single, by decide, fun enclosing => ?_⟩
      rw [List.append_nil] at leads
      rw [List.append_assoc]
      exact leads enclosing

theorem Delimited.opens {opening closing : Char} {items : List Language}
    (delimited : Delimited opening closing items text) : ∃ more, text = opening :: more := by
  cases delimited with
  | none _ => exact ⟨_, rfl⟩
  | some _ => exact ⟨_, rfl⟩

theorem lexemes_closeArray (rest : List Char) :
    lexemes (']' :: rest) = ⟨.closeArray, ']' :: rest, rest⟩ :: lexemes rest := lexemes_cons rfl rest

theorem lexemes_closeObject (rest : List Char) :
    lexemes ('}' :: rest) = ⟨.closeObject, '}' :: rest, rest⟩ :: lexemes rest := lexemes_cons rfl rest

theorem lexemes_comma (rest : List Char) :
    lexemes (',' :: rest) = ⟨.comma, ',' :: rest, rest⟩ :: lexemes rest := lexemes_cons rfl rest

theorem lexemes_colon (rest : List Char) :
    lexemes (':' :: rest) = ⟨.colon, ':' :: rest, rest⟩ :: lexemes rest := lexemes_cons rfl rest

theorem run_openArray (begins : Begins place enclosing inner) (text : List Char) :
    run place enclosing (lexemes ('[' :: text)) =
      run (.inArray ('[' :: text) [] .first) inner (lexemes text) := by
  have opened : lexemes ('[' :: text) = ⟨.openArray, '[' :: text, text⟩ :: lexemes text :=
    lexemes_cons rfl text
  rw [opened, run_cons, step_of_begins begins (by simp)]
  rfl

theorem run_openObject (begins : Begins place enclosing inner) (text : List Char) :
    run place enclosing (lexemes ('{' :: text)) =
      run (.inObject ('{' :: text) [] .first) inner (lexemes text) := by
  have opened : lexemes ('{' :: text) = ⟨.openObject, '{' :: text, text⟩ :: lexemes text :=
    lexemes_cons rfl text
  rw [opened, run_cons, step_of_begins begins (by simp)]
  rfl

theorem run_closeArray (items : List Tree) {due : Due} (solid : due ≠ .behindComma) (rest : List Char) :
    run (.inArray here items due) enclosing (lexemes (']' :: rest)) =
      (deliver (.array here items.reverse (.closed rest)) enclosing).resume rest := by
  rw [lexemes_closeArray, run_cons]
  cases due with
  | behindComma => exact absurd rfl solid
  | first | separator => rfl

theorem run_closeObject (members : List (Key × Tree)) {due : Due} (solid : due ≠ .behindComma)
    (rest : List Char) :
    run (.inObject here members due) enclosing (lexemes ('}' :: rest)) =
      (deliver (.object here members.reverse (.closed rest)) enclosing).resume rest := by
  rw [lexemes_closeObject, run_cons]
  cases due with
  | behindComma => exact absurd rfl solid
  | first | separator => rfl

theorem leads_commaArray (here : List Char) (items : List Tree) (rest : List Char) :
    Leads (.inArray here items .separator) (',' :: rest) (.inArray here items .behindComma) rest := by
  intro enclosing
  rw [lexemes_comma, run_cons]
  rfl

theorem leads_commaObject (here : List Char) (members : List (Key × Tree)) (rest : List Char) :
    Leads (.inObject here members .separator) (',' :: rest) (.inObject here members .behindComma) rest := by
  intro enclosing
  rw [lexemes_comma, run_cons]
  rfl

theorem leads_item {item : Language} {holds : Tree → Prop} (grows : ∀ body, item body → Grows holds body)
    {body : List Char} (padded : Padded item body) (items : List Tree) {due : Due} (begins : due ≠ .separator)
    (halts : Halts rest) :
    ∃ tree, holds tree ∧ skipBlank tree.after = skipBlank rest ∧
      Leads (.inArray here items due) (body ++ rest) (.inArray here (tree :: items) .separator) rest := by
  obtain ⟨before, value, behind, blank, is, blank', rfl⟩ := padded
  obtain ⟨tree, held, after, runs⟩ := grows value is (behind ++ rest) (halts.append blank')
  refine ⟨tree, held, by rw [after, skipBlank_append blank'], fun enclosing => ?_⟩
  rw [List.append_assoc, List.append_assoc, lexemes_append blank, runs _ _ _ (.item begins)]
  exact congrArg (run _ _) (lexemes_append blank' rest)

theorem leads_member {key value : Language} {keys : Except Fault String → Prop} {holds : Tree → Prop}
    (lexes : ∀ body, key body → LexesAs (fun token => ∃ content, token = .string content ∧ keys content) body)
    (grows : ∀ body, value body → Grows holds body) {body : List Char}
    (padded : Padded (MemberText key value) body) (members : List (Key × Tree)) {due : Due}
    (begins : due ≠ .separator) (halts : Halts rest) :
    ∃ member : Key × Tree, (keys member.1.content ∧ holds member.2) ∧
      skipBlank member.2.after = skipBlank rest ∧
      Leads (.inObject here members due) (body ++ rest)
        (.inObject here (member :: members) .separator) rest := by
  obtain ⟨before, _, behind, blank, paired, blank', rfl⟩ := padded
  obtain ⟨name, gap, gap', content, is, blankGap, blankGap', isValue, rfl⟩ := paired
  obtain ⟨tree, held, after, runs⟩ := grows content isValue (behind ++ rest) (halts.append blank')
  generalize behindKey : gap ++ ':' :: (gap' ++ (content ++ (behind ++ rest))) = more
  have halts' : Halts more := behindKey ▸ .append blankGap (.cons _ (by decide))
  obtain ⟨_, ⟨text, rfl, known⟩, lexeme⟩ := lexes name is more halts'
  refine ⟨(⟨text, more⟩, tree), ⟨known, held⟩, by rw [after, skipBlank_append blank'], fun enclosing => ?_⟩
  have keyed : step (.inObject here members due) enclosing ⟨.string text, name ++ more, more⟩ =
      .going (.behindKey here members ⟨text, more⟩) enclosing := by
    cases due with
    | separator => exact absurd rfl begins
    | first | behindComma => rfl
  simp only [List.append_assoc, List.cons_append]
  rw [behindKey, lexemes_append blank, lexeme, run_cons, keyed, Progress.resume, ← behindKey,
    lexemes_append blankGap, lexemes_colon, run_cons, step, Progress.resume, lexemes_append blankGap',
    runs _ _ _ .value]
  exact congrArg (run _ _) (lexemes_append blank' rest)

theorem grows_array {item : ι → Language} {holds : ι → Tree → Prop}
    (grow : ∀ i ∈ index, ∀ body, item i body → Grows (holds i) body)
    (spelled : ArrayText (index.map item) text) :
    Grows (fun tree => ∃ here items after,
      tree = .array here items (.closed after) ∧ List.Forall₂ holds index items) text := by
  intro rest halts
  obtain ⟨text, rfl⟩ := spelled.opens
  have closing : Halts (']' :: rest) := .cons rest (by decide)
  obtain ⟨items, due, each, -, solid, leads⟩ :=
    leads_delimited (.inArray ('[' :: (text ++ rest))) (leads_commaArray _)
      (fun i member _ padded items _ _ begins halts => leads_item (grow i member) padded items begins halts)
      spelled closing
  refine ⟨_, ⟨'[' :: (text ++ rest), items, rest, rfl, each⟩, rfl, fun place enclosing inner begins => ?_⟩
  rw [List.cons_append, run_openArray begins, leads inner, run_closeArray _ solid, List.reverse_reverse]

/-- If the object has one member only, then the brace is what is read next behind it. -/
theorem grows_members {key value : ι → Language} {keys : ι → Except Fault String → Prop}
    {holds : ι → Tree → Prop}
    (lex : ∀ i ∈ index, ∀ body, key i body →
      LexesAs (fun token => ∃ content, token = .string content ∧ keys i content) body)
    (grow : ∀ i ∈ index, ∀ body, value i body → Grows (holds i) body)
    (spelled : Delimited '{' '}' (index.map fun i => MemberText (key i) (value i)) text) :
    Grows (fun tree => ∃ here members after, tree = .object here members (.closed after) ∧
      List.Forall₂ (fun i member => keys i member.1.content ∧ holds i member.2) index members ∧
      ∀ member, members = [member] → skipBlank member.2.after = '}' :: after) text := by
  intro rest halts
  obtain ⟨text, rfl⟩ := spelled.opens
  have closing : Halts ('}' :: rest) := .cons rest (by decide)
  obtain ⟨members, due, each, single, solid, leads⟩ :=
    leads_delimited (.inObject ('{' :: (text ++ rest))) (leads_commaObject _)
      (fun i member _ padded members _ _ begins halts =>
        leads_member (lex i member) (grow i member) padded members begins halts)
      spelled closing
  refine ⟨_, ⟨'{' :: (text ++ rest), members, rest, rfl, each, single⟩, rfl,
    fun place enclosing inner begins => ?_⟩
  rw [List.cons_append, run_openObject begins, leads inner, run_closeObject _ solid, List.reverse_reverse]

theorem grows_object {members : List (String × Language)} {holds : String × Language → Tree → Prop}
    (grow : ∀ member ∈ members, ∀ body, member.2 body → Grows (holds member) body)
    (spelled : ObjectText members text) :
    Grows (fun tree => ∃ here written after, tree = .object here written (.closed after) ∧
      List.Forall₂ (fun member w => w.1.content = .ok member.1 ∧ holds member w.2) members written ∧
      ∀ w, written = [w] → skipBlank w.2.after = '}' :: after) text := by
  have lex : ∀ member ∈ members, ∀ body, StringText member.1 body →
      LexesAs (fun token => ∃ content, token = .string content ∧ content = .ok member.1) body := by
    intro member _ body is rest halts
    obtain ⟨_, rfl, lexeme⟩ := lexesAs_string is rest halts
    exact ⟨_, ⟨_, rfl, rfl⟩, lexeme⟩
  exact grows_members lex grow spelled

end Containers

section Values

variable {text : List Char}

theorem forall_right_of_forall₂ {α β : Type} {related : α → β → Prop} {holds : β → Prop} {first : List α}
    {second : List β} (each : List.Forall₂ related first second)
    (implies : ∀ a b, related a b → holds b) : ∀ b ∈ second, holds b := by
  induction each with
  | nil => exact fun _ member => (nomatch member)
  | cons head _ ih => exact List.forall_mem_cons.mpr ⟨implies _ _ head, ih⟩

/-- One can pass over every value, whatever it is. -/
theorem grows_value (value : ValueText text) : Grows (fun tree => tree.passingFault? = none) text := by
  induction value with
  | word member =>
      have booleans (value : Bool) : Grows (fun tree => tree.passingFault? = none) (wordBoolean value) :=
        grows_token (lexesAs_boolean rfl) trivial fun _ _ => rfl
      simp only [List.mem_cons, List.not_mem_nil, or_false] at member
      rcases member with rfl | rfl | rfl
      · exact grows_token lexesAs_null trivial fun _ _ => rfl
      · exact booleans true
      · exact booleans false
  | number number =>
      apply grows_leaf (lexesAs_number number)
      · rintro _ ⟨value, rfl⟩
        trivial
      · rintro _ _ _ ⟨value, rfl⟩
        rfl
  | string quoted =>
      apply grows_leaf (lexesAs_quoted quoted)
      · rintro _ ⟨content, rfl⟩
        trivial
      · rintro _ _ _ ⟨content, rfl⟩
        rfl
  | @array items text _ spelled ih =>
      rw [← List.map_id items] at spelled
      refine (grows_array ih spelled).mono ?_
      rintro _ ⟨here, trees, after, rfl, each⟩
      exact Tree.passingFault?_array.mpr ⟨forall_right_of_forall₂ each fun _ _ passes => passes, rfl⟩
  | @object values text _ spelled ih =>
      have keys : ∀ value ∈ values, ∀ body, QuotedText body →
          LexesAs (fun token => ∃ content, token = .string content ∧ True) body := by
        intro _ _ body quoted rest halts
        obtain ⟨_, ⟨content, rfl⟩, lexeme⟩ := lexesAs_quoted quoted rest halts
        exact ⟨_, ⟨content, rfl, trivial⟩, lexeme⟩
      refine (grows_members keys ih spelled).mono ?_
      rintro _ ⟨here, members, after, rfl, each, -⟩
      exact Tree.passingFault?_object.mpr ⟨forall_right_of_forall₂ each fun _ _ member => member.2, rfl⟩

/-- The first value of a text is its tree. -/
theorem grown_ofText {inner : Language} {holds : Tree → Prop} (grows : ∀ body, inner body → Grows holds body)
    (padded : Padded inner text) : holds (.ofText text) := by
  obtain ⟨before, body, after, blank, is, blank', rfl⟩ := padded
  have ends : Halts after := by
    rw [← List.append_nil after]
    exact .append blank' fun _ member => (nomatch member)
  obtain ⟨tree, held, -, runs⟩ := grows body is after ends
  rw [Tree.ofText, lexemes_append blank, runs _ _ _ .value]
  exact held

end Values

end SwiftModel.Json
