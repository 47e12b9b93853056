/- The lines of a declaration are one block, with blocks in it: each line stands as deep as there are
blocks open in front of it, and the last line closes the block that the first opens. -/
import SwiftModel.Proofs.Emission.Reader

namespace SwiftModel.Emission
open SwiftModel.Identifier

def LineContent.opens : LineContent → Bool
  | .recordHeader _ | .enumerationHeader _ => true
  | .property _ => false
  | .fixed text => text == keyTableHeader

def LineContent.closes : LineContent → Bool
  | .recordHeader _ | .enumerationHeader _ | .property _ => false
  | .fixed text => text == "\x7d"

/-- The blocks that are open behind a line, each as the line that opened it, the innermost first. No
line closes a block where none is open. -/
def Line.passed (blocks : List Line) (line : Line) : Option (List Line) :=
  if line.content.opens then some (line :: blocks)
  else if line.content.closes then blocks.tail?
  else some blocks

/-- The blocks that lines leave open behind them, where some are open already. -/
def openBehind (blocks lines : List Line) : Option (List Line) := lines.foldlM Line.passed blocks

/-- A line stands at the level that the blocks around it make. One that closes a block stands where that
block was opened, and so is not in it. -/
def Line.StandsIn (line : Line) (blocks : List Line) : Prop :=
  if line.content.closes then
    ∃ opening outer, blocks = opening :: outer ∧ line.level = opening.level ∧ line.level = outer.length
  else line.level = blocks.length

section Passing

variable {line : Line} (blocks lines others : List Line)

theorem passed_of_opens (opens : line.content.opens = true) : line.passed blocks = some (line :: blocks) :=
  if_pos opens

theorem passed_of_closes (plain : line.content.opens = false) (closes : line.content.closes = true) :
    line.passed blocks = blocks.tail? := by
  rw [Line.passed, plain, closes]
  rfl

theorem passed_of_plain (plain : line.content.opens = false) (inside : line.content.closes = false) :
    line.passed blocks = some blocks := by
  rw [Line.passed, plain, inside]
  rfl

theorem openBehind_append : openBehind blocks (lines ++ others) =
      (openBehind blocks lines).bind fun between => openBehind between others := List.foldlM_append

theorem openBehind_cons (line : Line) : openBehind blocks (line :: lines) =
      (line.passed blocks).bind fun between => openBehind between lines := List.foldlM_cons

end Passing

/-- Lines that stand in blocks and leave them open, and close each block that they open. -/
inductive Blocks : Nat → List Line → Prop
  | nil {level : Nat} : Blocks level []
  | line {level : Nat} {content : LineContent} {lines : List Line} : content.opens = false →
      content.closes = false → Blocks level lines → Blocks level (⟨level, content⟩ :: lines)
  | block {level : Nat} {opening closing : LineContent} {inside lines : List Line} :
      opening.opens = true → closing.opens = false → closing.closes = true → Blocks (level + 1) inside →
      Blocks level lines → Blocks level (⟨level, opening⟩ :: inside ++ ⟨level, closing⟩ :: lines)

theorem Blocks.append {level : Nat} {lines others : List Line} (h : Blocks level lines)
    (h' : Blocks level others) : Blocks level (lines ++ others) := by
  induction h with
  | nil => exact h'
  | line plain inside _ ih => exact .line plain inside (ih h')
  | block opens plain closes inside _ _ ih =>
      rw [List.append_assoc, List.cons_append]
      exact .block opens plain closes inside (ih h')

/-! Blocks leave open what is open in front of them, and every line in them stands where it should. -/

/-- Behind these lines those at the end of `start` are still open, and each line stands where it should. -/
def StandOn (blocks start lines : List Line) : Prop :=
  ∀ before line after, lines = before ++ line :: after → ∃ inner,
    openBehind start before = some (inner ++ blocks) ∧ line.StandsIn (inner ++ blocks)

section StandOn

variable {blocks start next lines others : List Line} {line opening : Line}

theorem StandOn.nil (blocks start : List Line) : StandOn blocks start [] := by
  intro before line after same
  cases before <;> cases same

theorem StandOn.cons (inner : List Line) (stands : line.StandsIn (inner ++ blocks))
    (passed : line.passed (inner ++ blocks) = some next) (h : StandOn blocks next lines) :
    StandOn blocks (inner ++ blocks) (line :: lines) := by
  intro before other after same
  cases before with
  | nil =>
      obtain ⟨rfl, rfl⟩ := List.cons.inj same
      exact ⟨inner, rfl, stands⟩
  | cons first before =>
      obtain ⟨rfl, rest⟩ := List.cons.inj same
      rw [openBehind_cons, passed]
      exact h before other after rest

theorem StandOn.append (h : StandOn blocks start lines) (behind : openBehind start lines = some next)
    (h' : StandOn blocks next others) : StandOn blocks start (lines ++ others) := by
  intro before line after same
  rcases List.append_eq_append_iff.mp same with ⟨rest, rfl, later⟩ | ⟨rest, rfl, here⟩
  · rw [openBehind_append, behind]
    exact h' rest line after later
  · -- the line stands in the first part, unless nothing of that part is left for it
    cases rest with
    | nil =>
        rw [List.append_nil] at behind
        obtain ⟨inner, ran, stands⟩ := h' [] line after here.symm
        exact ⟨inner, behind.trans ran, stands⟩
    | cons first rest =>
        obtain ⟨rfl, rfl⟩ := List.cons.inj here
        exact h before line rest rfl

theorem StandOn.outer (h : StandOn (opening :: blocks) start lines) : StandOn blocks start lines := by
  intro before line after same
  obtain ⟨inner, ran, stands⟩ := h before line after same
  rw [List.append_cons] at ran stands
  exact ⟨inner ++ [opening], ran, stands⟩

end StandOn

theorem standsIn_of_plain {line : Line} {blocks : List Line} (inside : line.content.closes = false)
    (deep : line.level = blocks.length) : line.StandsIn blocks := by
  rw [Line.StandsIn, inside]
  exact deep

theorem closes_eq_false_of_opens {content : LineContent} (opens : content.opens = true) :
    content.closes = false := by
  cases content with
  | fixed text =>
      rw [LineContent.opens, beq_iff_eq] at opens
      rw [opens]
      rfl
  | _ => rfl

/-- By induction on the blocks: what is open around them is open behind them. -/
theorem Blocks.standOn {level : Nat} {lines : List Line} (h : Blocks level lines) {blocks : List Line}
    (deep : level = blocks.length) :
    openBehind blocks lines = some blocks ∧ StandOn blocks blocks lines := by
  induction h generalizing blocks with
  | nil => exact ⟨rfl, .nil blocks blocks⟩
  | @line level content lines plain inside _ ih =>
      obtain ⟨behind, stand⟩ := ih deep
      have passed : Line.passed blocks ⟨level, content⟩ = some blocks := passed_of_plain blocks plain inside
      rw [openBehind_cons, passed]
      exact ⟨behind, .cons [] (standsIn_of_plain inside deep) passed stand⟩
  | @block level opening closing inside lines opens plain closes _ _ within ih =>
      have deeper : level + 1 = (⟨level, opening⟩ :: blocks : List Line).length := congrArg Nat.succ deep
      obtain ⟨through, standInside⟩ := within deeper
      obtain ⟨behind, stand⟩ := ih deep
      have first : Line.passed blocks ⟨level, opening⟩ = some (⟨level, opening⟩ :: blocks) :=
        passed_of_opens blocks opens
      have last : Line.passed (⟨level, opening⟩ :: blocks) ⟨level, closing⟩ = some blocks :=
        passed_of_closes _ plain closes
      have closed : Line.StandsIn ⟨level, closing⟩ (⟨level, opening⟩ :: blocks) := by
        rw [Line.StandsIn, if_pos closes]
        exact ⟨_, blocks, rfl, rfl, deep⟩
      constructor
      · rw [List.cons_append, openBehind_cons, first, Option.bind_some, openBehind_append, through,
          Option.bind_some, openBehind_cons, last]
        exact behind
      · refine .cons [] (standsIn_of_plain (closes_eq_false_of_opens opens) deep) first ?_
        exact standInside.outer.append through (.cons [_] closed last stand)

/-- Lines that are one block: each stands where it should, and the last closes the block that the first
opens, which is open everywhere between them. -/
structure OneBlock (lines : List Line) : Prop where
  stands : ∀ before line after, lines = before ++ line :: after →
    ∃ blocks, openBehind [] before = some blocks ∧ line.StandsIn blocks
  root : ∃ opening inside closing, lines = opening :: inside ++ [closing] ∧
    opening.content.opens = true ∧ closing.content.closes = true ∧
    openBehind [] (opening :: inside) = some [opening] ∧
    ∀ before, before <+: inside → ∃ inner, openBehind [] (opening :: before) = some (inner ++ [opening])

theorem oneBlock_of_blocks {opening closing : LineContent} {inside : List Line}
    (opens : opening.opens = true) (plain : closing.opens = false) (closes : closing.closes = true)
    (h : Blocks 1 inside) : OneBlock (⟨0, opening⟩ :: inside ++ [⟨0, closing⟩]) := by
  have first : Line.passed [] ⟨0, opening⟩ = some [⟨0, opening⟩] := passed_of_opens [] opens
  have one : 1 = [(⟨0, opening⟩ : Line)].length := rfl
  have none : 0 = ([] : List Line).length := rfl
  obtain ⟨through, stand⟩ := h.standOn one
  obtain ⟨-, whole⟩ := (Blocks.block opens plain closes h .nil).standOn none
  constructor
  · intro before line after same
    obtain ⟨inner, ran, stands⟩ := whole before line after same
    exact ⟨_, ran, stands⟩
  · refine ⟨_, inside, _, rfl, opens, closes, ?_, ?_⟩
    · rw [openBehind_cons, first]
      exact through
    · rintro before ⟨after, rfl⟩
      rw [openBehind_cons, first]
      cases after with
      | nil =>
          rw [List.append_nil] at through
          exact ⟨[], through⟩
      | cons line after =>
          obtain ⟨inner, ran, -⟩ := stand before line after rfl
          exact ⟨inner, ran⟩

/-! What is emitted is made of blocks. -/

theorem written_ne {text : String} (h : text.toList.head? ≠ some 'c') (row : Case) (escaper : Escaper) :
    row.written escaper ≠ text := by
  rintro rfl
  rw [toList_written] at h
  exact h rfl

theorem blocks_caseLines (escaper : Escaper) (level : Nat) (cases : List Case) :
    Blocks level (caseLines escaper level cases) := by
  induction cases with
  | nil => exact .nil
  | cons row rows ih =>
      have plain : row.written escaper ≠ keyTableHeader := written_ne (by decide) row escaper
      have inside : row.written escaper ≠ "\x7d" := written_ne (by decide) row escaper
      exact .line (beq_false_of_ne plain) (beq_false_of_ne inside) ih

theorem blocks_keyTableLines (escaper : Escaper) (level : Nat) (keyTable : Option (List Case)) :
    Blocks level (keyTableLines escaper level keyTable) := by
  cases keyTable with
  | none => exact .nil
  | some cases =>
      exact .block (beq_self_eq_true keyTableHeader) rfl rfl (blocks_caseLines escaper (level + 1) cases) .nil

mutual

/-- The lines of a declaration, between the one that opens it and the one that closes it. -/
theorem blocks_inside (escaper : Escaper) (level : Nat) :
    (declaration : Declaration) → ∃ opening inside, opening.opens = true ∧ Blocks (level + 1) inside ∧
      declarationLines escaper level declaration = ⟨level, opening⟩ :: inside ++ [closingLine level]
  | .record name properties keyTable =>
    ⟨.recordHeader name, _, rfl, (blocks_propertyLines escaper (level + 1) properties).append
      (blocks_keyTableLines escaper (level + 1) keyTable), rfl⟩
  | .enumeration name cases =>
    ⟨.enumerationHeader name, _, rfl, blocks_caseLines escaper (level + 1) cases, rfl⟩

theorem blocks_propertyLines (escaper : Escaper) (level : Nat) :
    (properties : List (Property Declaration)) → Blocks level (propertyLines escaper level properties)
  | [] => .nil
  | ⟨_, _, none⟩ :: properties => .line rfl rfl (blocks_propertyLines escaper level properties)
  | ⟨_, _, some declaration⟩ :: properties => by
    obtain ⟨opening, inside, opens, blocks, same⟩ := blocks_inside escaper level declaration
    have own : Blocks level (declarationLines escaper level declaration) := by
      rw [same]
      exact .block opens rfl rfl blocks .nil
    exact .line rfl rfl (own.append (blocks_propertyLines escaper level properties))

end

theorem oneBlock_declarationLines (escaper : Escaper) (declaration : Declaration) :
    OneBlock (declarationLines escaper 0 declaration) := by
  obtain ⟨opening, inside, opens, blocks, same⟩ := blocks_inside escaper 0 declaration
  rw [same]
  exact oneBlock_of_blocks opens rfl rfl blocks

end SwiftModel.Emission
