/- In the tree of a text, an object whose brace closes behind its first member has no other member. -/
import SwiftModel.Proofs.Json.Tree

namespace SwiftModel.Json

/-- The object ends where a brace closes behind its first member. -/
def ClosesBehindFirst (members : List (Key × Tree)) (stop : ObjectStop) : Prop :=
  ∀ first rest, members = first :: rest → first.2.passingFault? = none →
    ∀ after, skipBlank first.2.after = '}' :: after → rest = [] ∧ stop = .closed after

inductive Tree.Coherent : Tree → Prop
  | missing : Tree.Coherent .missing
  | leaf {lexeme : Lexeme} : Tree.Coherent (.leaf lexeme)
  | array {here : List Char} {items : List Tree} {stop : ArrayStop} :
    (∀ item ∈ items, item.Coherent) → Tree.Coherent (.array here items stop)
  | object {here : List Char} {members : List (Key × Tree)} {stop : ObjectStop} :
    (∀ member ∈ members, member.2.Coherent) → ClosesBehindFirst members stop →
    Tree.Coherent (.object here members stop)

/-- No brace closes behind the first of the members; they are in reverse. -/
def GoesOn (members : List (Key × Tree)) : Prop :=
  ∀ first, members.getLast? = some first → ∀ after, skipBlank first.2.after ≠ '}' :: after

/-- The only member is followed by the rest of the text. -/
def EndsAt (members : List (Key × Tree)) (text : List Char) : Prop :=
  ∃ key tree, members = [(key, tree)] ∧ tree.after = text

def Enclosing.Coherent : Enclosing → Prop
  | .array _ items => ∀ item ∈ items, item.Coherent
  | .object _ members _ => (∀ member ∈ members, member.2.Coherent) ∧ GoesOn members

/-- What is built so far is coherent, in front of the rest of the text. -/
def Place.Coherent (text : List Char) : Place → Prop
  | .value => True
  | .inArray _ items _ => ∀ item ∈ items, item.Coherent
  | .inObject _ members due => (∀ member ∈ members, member.2.Coherent) ∧
    (GoesOn members ∨ due = .separator ∧ EndsAt members text)
  | .behindKey _ members _ => (∀ member ∈ members, member.2.Coherent) ∧ GoesOn members

def Progress.Coherent (text : List Char) : Progress → Prop
  | .done tree => tree.Coherent
  | .going place enclosing => place.Coherent text ∧ ∀ container ∈ enclosing, container.Coherent

variable {text : List Char} {tree : Tree} {items : List Tree} {members : List (Key × Tree)} {key : Key}
  {enclosing : List Enclosing} {lexeme : Lexeme} {stop : ObjectStop}

theorem goesOn_cons (goesOn : GoesOn members) (some : members ≠ []) (member : Key × Tree) :
    GoesOn (member :: members) := by
  intro first last
  rw [List.getLast?_cons_of_ne_nil some] at last
  exact goesOn first last

theorem closesBehindFirst_of_goesOn (goesOn : GoesOn members) : ClosesBehindFirst members.reverse stop := by
  intro first rest same _ after closes
  have last : members.getLast? = some first := by
    rw [← List.head?_reverse, same]
    rfl
  exact absurd closes (goesOn first last after)

theorem closesBehindFirst_of_endsAt (ends : EndsAt members text)
    (closes : ∀ after, skipBlank text = '}' :: after → stop = .closed after) :
    ClosesBehindFirst members.reverse stop := by
  obtain ⟨key, tree, rfl, rfl⟩ := ends
  rintro _ _ ⟨⟩ _ after closed
  exact ⟨rfl, closes after closed⟩

theorem coherent_array_reverse {here : List Char} {arrayStop : ArrayStop}
    (all : ∀ item ∈ items, item.Coherent) : (Tree.array here items.reverse arrayStop).Coherent :=
  .array fun item member => all item (List.mem_reverse.mp member)

theorem coherent_object_reverse {here : List Char} (all : ∀ member ∈ members, member.2.Coherent)
    (closes : ClosesBehindFirst members.reverse stop) : (Tree.object here members.reverse stop).Coherent :=
  .object (fun m member => all m (List.mem_reverse.mp member)) closes

/-- A container in which the text breaks off is no better than its last value, which is broken. -/
theorem coherent_brokenBy {container : Enclosing} (coherent : tree.Coherent)
    (faulty : tree.passingFault? ≠ none) (outer : container.Coherent) :
    (container.brokenBy tree).Coherent ∧ (container.brokenBy tree).passingFault? ≠ none := by
  cases container with
  | array here items =>
      refine ⟨coherent_array_reverse (List.forall_mem_cons.mpr ⟨coherent, outer⟩), fun none => faulty ?_⟩
      have each := (Tree.passingFault?_array.mp none).1
      exact each tree (List.mem_reverse.mpr List.mem_cons_self)
  | object here members key =>
      obtain ⟨all, goesOn⟩ := outer
      refine ⟨coherent_object_reverse (List.forall_mem_cons.mpr ⟨coherent, all⟩) ?_, fun none => faulty ?_⟩
      · cases members with
        | nil =>
            -- the broken value is the first member, and asked about only if it is whole
            rintro _ _ ⟨⟩ whole
            exact absurd whole faulty
        | cons member members =>
            exact closesBehindFirst_of_goesOn (goesOn_cons goesOn (List.cons_ne_nil _ _) _)
      · have each := (Tree.passingFault?_object.mp none).1
        exact each (key, tree) (List.mem_reverse.mpr List.mem_cons_self)

theorem coherent_breakOff (coherent : tree.Coherent) (faulty : tree.passingFault? ≠ none)
    (outer : ∀ container ∈ enclosing, container.Coherent) : (breakOff tree enclosing).Coherent := by
  induction enclosing generalizing tree with
  | nil => exact coherent
  | cons container enclosing ih =>
      obtain ⟨inner, outer⟩ := List.forall_mem_cons.mp outer
      obtain ⟨coherent, faulty⟩ := coherent_brokenBy coherent faulty inner
      exact ih coherent faulty outer

theorem coherent_deliver (coherent : tree.Coherent) (outer : ∀ container ∈ enclosing, container.Coherent) :
    (deliver tree enclosing).Coherent tree.after := by
  cases enclosing with
  | nil => exact coherent
  | cons container enclosing =>
      obtain ⟨inner, others⟩ := List.forall_mem_cons.mp outer
      cases container with
      | array here items => exact ⟨List.forall_mem_cons.mpr ⟨coherent, inner⟩, others⟩
      | object here members key =>
          obtain ⟨all, goesOn⟩ := inner
          refine ⟨⟨List.forall_mem_cons.mpr ⟨coherent, all⟩, ?_⟩, others⟩
          cases members with
          | nil => exact .inr ⟨rfl, key, tree, rfl, rfl⟩
          | cons member members => exact .inl (goesOn_cons goesOn (List.cons_ne_nil _ _) _)

theorem goesOn_nil : GoesOn [] := fun _ last => (nomatch last)

theorem coherent_begin (outer : ∀ container ∈ enclosing, container.Coherent) :
    (begin lexeme enclosing).Coherent lexeme.after := by
  rw [begin]
  split
  case h_1 => exact ⟨fun _ member => (nomatch member), outer⟩
  case h_2 => exact ⟨⟨fun _ member => (nomatch member), .inl goesOn_nil⟩, outer⟩
  case h_3 | h_4 | h_5 | h_6 => exact coherent_deliver .leaf outer
  all_goals
    refine coherent_breakOff .leaf (fun none => ?_) outer
    rename_i is
    rw [Tree.passingFault?, Lexeme.passingFault?, is] at none
    cases none

theorem coherent_stepArray {here : List Char} {due : Due} (all : ∀ item ∈ items, item.Coherent)
    (outer : ∀ container ∈ enclosing, container.Coherent) :
    (stepArray here items due lexeme enclosing).Coherent lexeme.after := by
  have stopped {arrayStop : ArrayStop} (broken : arrayStop.passingFault? ≠ none) :
      (breakOff (.array here items.reverse arrayStop) enclosing).Coherent :=
    coherent_breakOff (coherent_array_reverse all)
      (fun none => broken (Tree.passingFault?_array.mp none).2) outer
  unfold stepArray
  dsimp only
  split
  · exact stopped fun none => (nomatch none)
  · exact coherent_deliver (coherent_array_reverse all) outer
  · exact ⟨all, outer⟩
  · exact stopped fun none => (nomatch none)
  · exact coherent_begin (List.forall_mem_cons.mpr ⟨all, outer⟩)

/-- A brace behind the first member is what is read there next. -/
theorem coherent_stepObject {here : List Char} {due : Due} (all : ∀ member ∈ members, member.2.Coherent)
    (first : GoesOn members ∨ due = .separator ∧ EndsAt members text)
    (closing : ∀ after, skipBlank text = '}' :: after → lexeme.token = .closeObject ∧ lexeme.after = after)
    (outer : ∀ container ∈ enclosing, container.Coherent) :
    (stepObject here members due lexeme enclosing).Coherent lexeme.after := by
  have closesIf {stop : ObjectStop} (closed : lexeme.token = .closeObject → due = .separator →
      stop = .closed lexeme.after) : ClosesBehindFirst members.reverse stop := by
    rcases first with goesOn | ⟨separator, ends⟩
    · exact closesBehindFirst_of_goesOn goesOn
    · refine closesBehindFirst_of_endsAt ends fun after closes => ?_
      obtain ⟨token, rfl⟩ := closing after closes
      exact closed token separator
  have goesOn (other : lexeme.token ≠ .closeObject ∨ due ≠ .separator) : GoesOn members := by
    rcases first with goesOn | ⟨separator, key, tree, rfl, same⟩
    · exact goesOn
    · rintro _ ⟨⟩ after closes
      subst same
      rcases other with token | due
      · exact token (closing after closes).1
      · exact due separator
  have stopped {stop : ObjectStop} (broken : stop.passingFault? ≠ none)
      (other : lexeme.token ≠ .closeObject ∨ due ≠ .separator) :
      (breakOff (.object here members.reverse stop) enclosing).Coherent :=
    coherent_breakOff (coherent_object_reverse all (closesBehindFirst_of_goesOn (goesOn other)))
      (fun none => broken (Tree.passingFault?_object.mp none).2) outer
  unfold stepObject
  dsimp only
  split
  · exact stopped (fun none => (nomatch none)) (.inr fun separator => (nomatch separator))
  · exact coherent_deliver (coherent_object_reverse all (closesIf fun _ _ => rfl)) outer
  next comma => exact ⟨⟨all, .inl (goesOn (.inl fun closes => by rw [comma] at closes; cases closes))⟩, outer⟩
  next notClosing _ => exact stopped (fun none => (nomatch none)) (.inl notClosing)
  next separator string => exact ⟨⟨all, goesOn (.inr separator)⟩, outer⟩
  next notClosing _ _ _ => exact stopped (fun none => (nomatch none)) (.inl notClosing)

theorem coherent_step {place : Place}
    (closing : ∀ after, skipBlank text = '}' :: after → lexeme.token = .closeObject ∧ lexeme.after = after)
    (coherent : place.Coherent text) (outer : ∀ container ∈ enclosing, container.Coherent) :
    (step place enclosing lexeme).Coherent lexeme.after := by
  cases place with
  | value => exact coherent_begin outer
  | inArray here items due => exact coherent_stepArray coherent outer
  | inObject here members due => exact coherent_stepObject coherent.1 coherent.2 closing outer
  | behindKey here members key =>
      rw [step]
      split
      · exact ⟨trivial, List.forall_mem_cons.mpr ⟨coherent, outer⟩⟩
      · exact coherent_breakOff (coherent_object_reverse coherent.1 (closesBehindFirst_of_goesOn coherent.2))
          (fun none => (nomatch (Tree.passingFault?_object.mp none).2)) outer

theorem coherent_finish {place : Place} (ended : skipBlank text = [])
    (coherent : place.Coherent text) (outer : ∀ container ∈ enclosing, container.Coherent) :
    (finish place enclosing).Coherent := by
  have closes (members : List (Key × Tree)) {due : Due} {stop : ObjectStop}
      (first : GoesOn members ∨ due = .separator ∧ EndsAt members text) :
      ClosesBehindFirst members.reverse stop := by
    rcases first with goesOn | ⟨-, ends⟩
    · exact closesBehindFirst_of_goesOn goesOn
    · exact closesBehindFirst_of_endsAt ends fun after closes => by rw [ended] at closes; cases closes
  have missing {enclosing : List Enclosing} (outer : ∀ container ∈ enclosing, container.Coherent) :
      (breakOff .missing enclosing).Coherent := coherent_breakOff .missing (fun none => (nomatch none)) outer
  unfold finish
  split
  next => exact missing outer
  next => exact missing (List.forall_mem_cons.mpr ⟨coherent, outer⟩)
  next =>
    exact coherent_breakOff (coherent_array_reverse coherent)
      (fun none => (nomatch (Tree.passingFault?_array.mp none).2)) outer
  next =>
    exact coherent_breakOff (coherent_object_reverse coherent.1 (closes _ coherent.2))
      (fun none => (nomatch (Tree.passingFault?_object.mp none).2)) outer
  next =>
    exact coherent_breakOff (coherent_object_reverse coherent.1 (closesBehindFirst_of_goesOn coherent.2))
      (fun none => (nomatch (Tree.passingFault?_object.mp none).2)) outer

theorem lexemes_of_nil (ended : skipBlank text = []) : lexemes text = [] := by
  rw [lexemes]
  split
  next => rfl
  next more =>
    rw [ended] at more
    cases more

theorem lexemes_of_cons {c : Char} {cs : List Char} (next : skipBlank text = c :: cs) :
    lexemes text = lexemeAt c cs :: lexemes (lexemeAt c cs).after := by
  rw [lexemes]
  split
  next ended =>
    rw [next] at ended
    cases ended
  next same =>
    cases next.symm.trans same
    rfl

theorem coherent_run {place : Place} (coherent : place.Coherent text)
    (outer : ∀ container ∈ enclosing, container.Coherent) :
    (run place enclosing (lexemes text)).Coherent := by
  -- by induction on the text: what is behind a lexeme is shorter, and the step keeps what is built coherent
  induction text using lexemes.induct generalizing place enclosing with
  | case1 text ended =>
      rw [lexemes_of_nil ended]
      exact coherent_finish ended coherent outer
  | case2 text c cs next _ ih =>
      have closing : ∀ after, skipBlank text = '}' :: after →
          (lexemeAt c cs).token = .closeObject ∧ (lexemeAt c cs).after = after := by
        intro after closes
        cases next.symm.trans closes
        exact ⟨rfl, rfl⟩
      have stepped := coherent_step closing coherent outer
      rw [lexemes_of_cons next, run]
      cases came : step place enclosing (lexemeAt c cs) with
      | done tree =>
          rw [came] at stepped
          exact stepped
      | going place enclosing =>
          rw [came] at stepped
          exact ih stepped.1 stepped.2

theorem coherent_ofText (text : List Char) : (Tree.ofText text).Coherent :=
  coherent_run (show Place.Coherent text .value from trivial) fun _ member => (nomatch member)

end SwiftModel.Json
