/- What the parts of a path are made of. The name of a path and the components of its parent, and those of a
path inside a directory, are told by components alone, however the paths are written. -/
import SwiftModel.Proofs.Files.Path

namespace SwiftModel.Files.Path

/-- Segments without those that name nothing. -/
def named (segments : List String) : List String :=
  segments.filter fun segment => !(segment.isEmpty || segment == ".")

/-- The segments that are components: those that name something, and a point in front. -/
def significant (absolute : Bool) : List String → List String
  | [] => []
  | first :: rest => (if first.isEmpty || (first == "." && absolute) then [] else [first]) ++ named rest

theorem components_eq (path : Path) :
    path.components = (path.isAbsolute, significant path.isAbsolute path.segments) := by
  rw [components]
  cases path.segments <;> rfl

theorem significant_append {absolute : Bool} {segments : List String} (h : segments ≠ [])
    (rest : List String) :
    significant absolute (segments ++ rest) = significant absolute segments ++ named rest := by
  obtain ⟨first, others, rfl⟩ := List.exists_cons_of_ne_nil h
  rw [List.cons_append, significant, significant, named, List.filter_append, List.append_assoc]
  rfl

theorem significant_concat (absolute : Bool) (segments : List String) (last : String) :
    significant absolute (segments ++ [last]) = significant absolute segments ++
      if last.isEmpty || (last == "." && (absolute || !segments.isEmpty)) then [] else [last] := by
  cases segments with
  | nil => simp [significant, named]
  | cons first rest =>
      rw [significant_append (List.cons_ne_nil first rest), named, List.filter_cons, List.isEmpty_cons,
        Bool.not_false, Bool.or_true, Bool.and_true]
      cases last.isEmpty || last == "." <;> rfl

variable {absolute : Bool} {name : String} {segments before : List String}

/-- Nothing of significance is dropped from the end of a path. -/
theorem significant_dropNothing (absolute : Bool) (segments : List String) :
    significant absolute (dropNothing absolute segments).reverse = significant absolute segments.reverse := by
  induction segments with
  | nil => rfl
  | cons segment before ih =>
      rw [dropNothing, List.reverse_cons, significant_concat, List.isEmpty_reverse]
      split
      · rw [ih, List.append_nil]
      next kept => rw [List.reverse_cons, significant_concat, List.isEmpty_reverse, if_neg kept]

theorem significant_of_dropNothing_eq (h : dropNothing absolute segments = name :: before) :
    significant absolute segments.reverse = significant absolute before.reverse ++ [name] := by
  have kept : ¬ (name.isEmpty || (name == "." && (absolute || !before.isEmpty))) = true := by
    induction segments with
    | nil => cases h
    | cons segment rest ih =>
        rw [dropNothing] at h
        split at h
        next => exact ih h
        next something =>
          cases h
          exact something
  rw [← significant_dropNothing, h, List.reverse_cons, significant_concat, List.isEmpty_reverse, if_neg kept]

variable {path other directory directory' : Path}

theorem components_of_reversed_eq_nil (h : path.reversed = []) : path.components = (path.isAbsolute, []) := by
  have same := significant_dropNothing path.isAbsolute path.segments.reverse
  rw [reversed] at h
  rw [h, List.reverse_reverse] at same
  rw [components_eq, ← same]
  rfl

/-- The components of a path are those of its parent, and its last one. -/
theorem components_of_reversed_eq_cons (h : path.reversed = name :: before) :
    ∃ parent, path.parent? = some parent ∧
      path.components = (parent.components.1, parent.components.2 ++ [name]) := by
  refine ⟨ofReversed path.isAbsolute (dropNothing path.isAbsolute before), by rw [parent?, h], ?_⟩
  have front : (dropNothing path.isAbsolute before).reverse <+: path.segments := by
    obtain ⟨dropped, whole, -⟩ := exists_dropped path.isAbsolute path.segments.reverse
    obtain ⟨more, again, -⟩ := exists_dropped path.isAbsolute before
    rw [reversed] at h
    rw [h, again] at whole
    have turned := congrArg List.reverse whole
    rw [List.reverse_reverse] at turned
    refine ⟨more.reverse ++ name :: dropped.reverse, ?_⟩
    rw [turned]
    simp
  have written := segments_of_front front (by rw [h]; exact List.cons_ne_nil _ _)
  rw [List.reverse_reverse] at written
  have parent : significant path.isAbsolute (ofReversed path.isAbsolute
      (dropNothing path.isAbsolute before)).segments = significant path.isAbsolute before.reverse := by
    rw [written.2, ← significant_dropNothing]
    split
    next none => rw [none]; rfl
    next => rfl
  have whole := significant_of_dropNothing_eq h
  rw [List.reverse_reverse] at whole
  rw [components_eq, components_eq (ofReversed _ _), written.1, parent, whole]

/-- Paths with the same components have one name, and parents with the same components. -/
theorem parts_congr (same : path.components = other.components) :
    path.fileName? = other.fileName? ∧ path.parent?.map components = other.parent?.map components := by
  cases h : path.reversed with
  | nil =>
      have none := components_of_reversed_eq_nil h
      cases h' : other.reversed with
      | nil => simp [fileName?, parent?, h, h']
      | cons name before =>
          obtain ⟨parent, -, some⟩ := components_of_reversed_eq_cons h'
          rw [same, some] at none
          simp at none
  | cons name before =>
      obtain ⟨parent, above, whole⟩ := components_of_reversed_eq_cons h
      cases h' : other.reversed with
      | nil =>
          rw [same, components_of_reversed_eq_nil h'] at whole
          simp at whole
      | cons name' before' =>
          obtain ⟨parent', above', whole'⟩ := components_of_reversed_eq_cons h'
          rw [whole, whole', Prod.mk.injEq] at same
          obtain ⟨rest, last⟩ := List.append_inj' same.2 rfl
          rw [fileName?, fileName?, h, h', List.singleton_inj.mp last, above, above', Option.map_some,
            Option.map_some]
          exact ⟨rfl, congrArg some (Prod.ext same.1 rest)⟩

theorem fileStem?_congr (same : path.components = other.components) : path.fileStem? = other.fileStem? := by
  rw [fileStem?, fileStem?, (parts_congr same).1]

/-! A path inside a directory. -/

theorem segments_of_slash {rest : List Char} (h : path.text.toList = '/' :: rest) :
    path.isAbsolute = true ∧ path.segments = (Text.pieces '/' rest).map String.ofList := by
  rcases path.segments_cases with ⟨_, slash, absolute, same⟩ | ⟨none, -, -⟩
  · cases h.symm.trans slash
    exact ⟨absolute, same⟩
  · exact absurd h (none rest)

theorem segments_of_isAbsolute_false (h : path.isAbsolute = false) :
    path.segments = (Text.pieces '/' path.text.toList).map String.ofList := by
  rcases path.segments_cases with ⟨_, -, absolute, -⟩ | ⟨-, -, same⟩
  · rw [h] at absolute
    cases absolute
  · exact same

/-- What comes behind a slash adds the components that it has. -/
theorem components_append_slash {front : List Char} (written : front ≠ []) (behind : List Char) :
    (⟨.ofList (front ++ '/' :: behind)⟩ : Path).components =
      ((⟨.ofList front⟩ : Path).components.1,
        (⟨.ofList front⟩ : Path).components.2 ++ named ((Text.pieces '/' behind).map String.ofList)) := by
  have cut (cs : List Char) : (Text.pieces '/' (cs ++ '/' :: behind)).map String.ofList =
      (Text.pieces '/' cs).map String.ofList ++ (Text.pieces '/' behind).map String.ofList := by
    rw [Text.pieces_append_cons, List.map_append]
  have nonempty (cs : List Char) : (Text.pieces '/' cs).map String.ofList ≠ [] :=
    fun none => Text.pieces_ne_nil '/' cs (List.map_eq_nil_iff.mp none)
  obtain ⟨c, cs, rfl⟩ := List.exists_cons_of_ne_nil written
  rw [components_eq, components_eq]
  by_cases slash : c = '/'
  · subst slash
    have slashed (more : List Char) := @segments_of_slash ⟨.ofList ('/' :: more)⟩ more String.toList_ofList
    rw [List.cons_append, (slashed _).1, (slashed _).2, (slashed cs).1, (slashed cs).2, cut,
      significant_append (nonempty cs)]
  · have relative (more : List Char) : (⟨.ofList (c :: more)⟩ : Path).isAbsolute = false := by
      rw [isAbsolute, String.toList_ofList]
      simpa using slash
    have whole := segments_of_isAbsolute_false (relative (cs ++ '/' :: behind))
    have own := segments_of_isAbsolute_false (relative cs)
    rw [String.toList_ofList] at whole own
    rw [List.cons_append, relative, relative, whole, own, ← List.cons_append, cut,
      significant_append (nonempty _)]

theorem text_eq_empty_iff : path.text = "" ↔ path.components = (false, []) := by
  constructor
  · intro empty
    obtain ⟨text⟩ := path
    cases empty
    decide
  · intro none
    rw [components_eq, Prod.mk.injEq] at none
    obtain ⟨relative, none⟩ := none
    refine Decidable.byContradiction fun written => ?_
    have first := head?_segments relative (by simpa using written)
    cases whole : path.segments with
    | nil =>
        rw [segments_of_isAbsolute_false relative, List.map_eq_nil_iff] at whole
        exact Text.pieces_ne_nil _ _ whole
    | cons segment rest =>
        rw [whole, List.head?_cons] at first
        have kept : (segment.isEmpty || (segment == "." && false)) = false := by
          simpa using fun empty => first (congrArg some empty)
        rw [relative, whole, significant, kept] at none
        cases none

theorem significant_true (segments : List String) : significant true segments = named segments := by
  cases segments with
  | nil => rfl
  | cons first rest =>
      rw [significant, Bool.and_true, named, named, List.filter_cons]
      cases first.isEmpty || first == "." <;> rfl

/-- A relative path comes behind one slash, which the directory may end with. -/
theorem join_cases (relative : path.isAbsolute = false) (written : directory.text ≠ "") :
    ∃ front, (directory.text.toList = front ++ ['/'] ∨ front ≠ [] ∧ directory.text.toList = front) ∧
      directory.join path = ⟨.ofList (front ++ '/' :: path.text.toList)⟩ := by
  rw [join, relative, if_neg Bool.false_ne_true]
  cases last : directory.text.toList.getLast? with
  | none =>
      rw [List.getLast?_eq_none_iff, String.toList_eq_nil_iff] at last
      exact absurd last written
  | some c =>
      obtain ⟨front, whole⟩ := List.getLast?_eq_some_iff.mp last
      split
      next none => cases none
      next slash =>
        cases slash
        refine ⟨front, .inl whole, congrArg Path.mk ?_⟩
        rw [← String.toList_inj, String.toList_append, String.toList_ofList, whole, List.append_assoc]
        rfl
      next =>
        refine ⟨directory.text.toList, .inr ⟨?_, rfl⟩, congrArg Path.mk ?_⟩
        · rw [whole]
          exact List.append_ne_nil_of_right_ne_nil front (List.cons_ne_nil c [])
        · rw [← String.toList_inj, String.toList_append, String.toList_append, String.toList_ofList,
            String.toList_ofList, List.append_assoc]
          rfl

/-- A relative path inside a directory adds the components that it has. -/
theorem components_join (relative : path.isAbsolute = false) (written : directory.text ≠ "") :
    (directory.join path).components =
      (directory.components.1, directory.components.2 ++ named path.segments) := by
  obtain ⟨front, own, joined⟩ := join_cases relative written
  rw [segments_of_isAbsolute_false relative, joined]
  have same : directory = ⟨.ofList directory.text.toList⟩ := by rw [String.ofList_toList]
  rcases own with slash | ⟨nonempty, whole⟩
  · rw [same, slash]
    by_cases root : front = []
    · -- a slash in front is no component, so nothing stands before what is added
      subst root
      have slashed (more : List Char) := @segments_of_slash ⟨.ofList ('/' :: more)⟩ more String.toList_ofList
      rw [List.nil_append, List.nil_append, components_eq, components_eq, (slashed _).1, (slashed _).2,
        (slashed []).1, (slashed []).2, significant_true]
      rfl
    · rw [components_append_slash root, components_append_slash root]
      simp [Text.pieces, named]
  · rw [same, whole, components_append_slash nonempty]

theorem components_join_congr (same : directory.components = directory'.components) (path : Path) :
    (directory.join path).components = (directory'.join path).components := by
  cases absolute : path.isAbsolute with
  | true => rw [join, join, absolute, if_pos rfl, if_pos rfl]
  | false =>
      by_cases empty : directory.text = ""
      · have empty' : directory'.text = "" := by
          rw [text_eq_empty_iff, ← same, ← text_eq_empty_iff]
          exact empty
        rw [join, join, empty, empty']
      · have written' : directory'.text ≠ "" := by
          rw [Ne, text_eq_empty_iff, ← same, ← text_eq_empty_iff]
          exact empty
        rw [components_join absolute empty, components_join absolute written', same]

end SwiftModel.Files.Path
