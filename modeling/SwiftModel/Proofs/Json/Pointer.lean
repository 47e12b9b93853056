/- The text of a pointer leads back to its parts, and parts lead into a value one after the other. -/
import SwiftModel.Json.Pointer
import SwiftModel.Proofs.Text.Pieces

namespace SwiftModel.Json

theorem unescapePart_cons {c : Char} (h : c ≠ '~') (cs : List Char) :
    unescapePart (c :: cs) = c :: unescapePart cs := by
  rw [unescapePart.eq_4]
  · intro _ tilde
    exact absurd tilde h
  · intro _ tilde
    exact absurd tilde h

theorem unescapePart_escapePart (cs : List Char) : unescapePart (escapePart cs) = cs := by
  fun_induction escapePart cs with
  | case1 => rfl
  | case2 cs ih => rw [unescapePart, ih]
  | case3 cs ih => rw [unescapePart, ih]
  | case4 c cs tilde slash ih =>
      rw [unescapePart_cons (fun same => tilde same), ih]

theorem slash_not_mem_escapePart (cs : List Char) : '/' ∉ escapePart cs := by
  fun_induction escapePart cs with
  | case1 => exact List.not_mem_nil
  | case2 cs ih => simp [ih]
  | case3 cs ih => simp [ih]
  | case4 c cs tilde slash ih =>
      have other : '/' ≠ c := fun same => slash same.symm
      simp [ih, other]

/-- A text with `escape` for each `c` in it. -/
def writeEscape (c : Char) (escape cs : List Char) : List Char :=
  cs.flatMap fun d => if d = c then escape else [d]

theorem writeEscape_cons_self (c : Char) (escape cs : List Char) :
    writeEscape c escape (c :: cs) = escape ++ writeEscape c escape cs := by
  rw [writeEscape, List.flatMap_cons, if_pos rfl]
  rfl

theorem writeEscape_cons {c d : Char} (h : d ≠ c) (escape cs : List Char) :
    writeEscape c escape (d :: cs) = d :: writeEscape c escape cs := by
  rw [writeEscape, List.flatMap_cons, if_neg h]
  rfl

/-- Both escapes are written at once, but as if those of tildes were written first and then, in what that
gives, those of slashes. -/
theorem escapePart_eq_writeEscape (cs : List Char) :
    escapePart cs = writeEscape '/' ['~', '1'] (writeEscape '~' ['~', '0'] cs) := by
  fun_induction escapePart cs with
  | case1 => rfl
  | case2 cs ih =>
      -- what stands for a tilde has no slash in it
      rw [writeEscape_cons_self, List.cons_append, List.singleton_append, writeEscape_cons (by decide),
        writeEscape_cons (by decide), ih]
  | case3 cs ih =>
      rw [writeEscape_cons (by decide : '/' ≠ '~'), writeEscape_cons_self, ih]
      rfl
  | case4 c cs tilde slash ih =>
      rw [writeEscape_cons (fun same => tilde same), writeEscape_cons (fun same => slash same), ih]

/-- A text with `meaning` for each tilde that `digit` follows. -/
def readEscape (digit meaning : Char) : List Char → List Char
  | '~' :: d :: cs =>
    if d = digit then meaning :: readEscape digit meaning cs
    else '~' :: readEscape digit meaning (d :: cs)
  | c :: cs => c :: readEscape digit meaning cs
  | [] => []

theorem readEscape_cons {digit meaning c : Char} (h : c ≠ '~') (cs : List Char) :
    readEscape digit meaning (c :: cs) = c :: readEscape digit meaning cs := by
  rw [readEscape.eq_2]
  intro _ _ tilde
  exact absurd tilde h

/-- A tilde stays in front of what is read behind it, unless that is read as the digit. -/
theorem readEscape_tilde {digit meaning : Char} {cs : List Char} (h : cs.head? ≠ some digit) :
    readEscape digit meaning ('~' :: cs) = '~' :: readEscape digit meaning cs := by
  cases cs with
  | nil => rfl
  | cons d cs =>
      have other : d ≠ digit := fun same => h (congrArg some same)
      rw [readEscape, if_neg other]

theorem head?_readEscape {digit meaning d : Char} {cs : List Char} (h : cs.head? ≠ some d)
    (hm : meaning ≠ d) : (readEscape digit meaning cs).head? ≠ some d := by
  fun_induction readEscape digit meaning cs with
  | case1 => simpa using hm
  | case2 => simpa using h
  | case3 => simpa using h
  | case4 => simp

/-- Both escapes are read at once, but as if those of slashes were read first and then, in what that
gives, those of tildes. -/
theorem unescapePart_eq_readEscape (cs : List Char) :
    unescapePart cs = readEscape '0' '~' (readEscape '1' '/' cs) := by
  fun_induction unescapePart cs with
  | case1 => rfl
  | case2 cs ih =>
      have behind : readEscape '1' '/' ('0' :: cs) = '0' :: readEscape '1' '/' cs :=
        readEscape_cons (by decide) cs
      rw [readEscape_tilde (by simp), behind, readEscape, if_pos rfl, ih]
  | case3 cs ih =>
      rw [readEscape, if_pos rfl, readEscape_cons (by decide), ih]
  | case4 c cs notZero notOne ih =>
      by_cases h : c = '~'
      · -- no escape begins here, and the first reading puts no `0` behind the tilde
        subst h
        have zero : cs.head? ≠ some '0' := by
          intro same
          obtain ⟨rest, rfl⟩ := List.head?_eq_some_iff.mp same
          exact notZero rest rfl rfl
        have one : cs.head? ≠ some '1' := by
          intro same
          obtain ⟨rest, rfl⟩ := List.head?_eq_some_iff.mp same
          exact notOne rest rfl rfl
        rw [readEscape_tilde one, readEscape_tilde (head?_readEscape zero (by decide)), ih]
      · rw [readEscape_cons h, readEscape_cons h, ih]

theorem toList_pointerText (part : String) (parts : List String) :
    (pointerText (part :: parts)).toList =
      '/' :: ['/'].intercalate ((part :: parts).map fun p => escapePart p.toList) := by
  have joined : ∀ texts : List String, (pointerText texts).toList =
      texts.flatMap fun text => '/' :: escapePart text.toList := by
    intro texts
    simp [pointerText, List.flatMap_map]
  rw [joined]
  induction parts generalizing part with
  | nil => simp
  | cons next parts ih =>
      rw [List.flatMap_cons, ih next]
      simp only [List.map_cons, List.intercalate_cons_cons]
      simp

/-- Whatever the parts are made of, their text is read back to them. -/
theorem pointerParts?_pointerText (parts : List String) :
    pointerParts? (pointerText parts) = some parts := by
  cases parts with
  | nil => rfl
  | cons part parts =>
      have free : ∀ piece ∈ (part :: parts).map fun p => escapePart p.toList, '/' ∉ piece := by
        intro piece member
        obtain ⟨text, -, rfl⟩ := List.mem_map.mp member
        exact slash_not_mem_escapePart text.toList
      rw [pointerParts?, toList_pointerText]
      simp only [List.map_cons] at free ⊢
      rw [Text.pieces_intercalate free]
      simp [unescapePart_escapePart, Function.comp_def]

theorem pointer?_pointerText (value : Json) (parts : List String) :
    value.pointer? (pointerText parts) = value.at? parts := by
  rw [pointer?, pointerParts?_pointerText]
  rfl

theorem at?_cons (value : Json) (part : String) (parts : List String) :
    value.at? (part :: parts) = (value.child? part).bind (·.at? parts) := rfl

theorem child?_of_member? {value inner : Json} {key : String}
    (h : value.member? key = some inner) : value.child? key = some inner := by
  cases value with
  | object members => exact h
  | _ => cases h

end SwiftModel.Json
