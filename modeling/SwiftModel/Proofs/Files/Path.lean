/- The parent of a path lies on the way to where the path leads. -/
import SwiftModel.Proofs.Files.FileSystem
import SwiftModel.Proofs.Text.Pieces

namespace SwiftModel.Files

/-- A segment that leads nowhere else. -/
def NamesNothing (segment : String) : Prop := segment = "" ∨ segment = "."

theorem next_of_namesNothing {segment : String} (h : NamesNothing segment) (location : Location) :
    FileSystem.next location segment = location := if_pos h

section Lookups

variable {location : Location} {segments : List String}

theorem foldl_next_of_namesNothing (h : ∀ segment ∈ segments, NamesNothing segment) :
    segments.foldl FileSystem.next location = location := by
  induction segments with
  | nil => rfl
  | cons segment segments ih =>
      rw [List.forall_mem_cons] at h
      rw [List.foldl_cons, next_of_namesNothing h.1, ih h.2]

theorem eq_of_mem_lookups (h : ∀ segment ∈ segments, NamesNothing segment) {at_ : Location}
    (member : at_ ∈ lookups location segments) : at_ = location := by
  induction segments with
  | nil => cases member
  | cons segment segments ih =>
      rw [List.forall_mem_cons] at h
      rw [lookups, next_of_namesNothing h.1, List.mem_cons] at member
      exact member.elim id (ih h.2)

end Lookups

namespace Path

/-- A path that neither goes up nor begins with a point. -/
def Plain (path : Path) : Prop :=
  ".." ∉ path.segments ∧ (path.isAbsolute = false → path.segments.head? ≠ some ".")

instance (path : Path) : Decidable path.Plain := inferInstanceAs (Decidable (_ ∧ _))

theorem foldl_next_of_not_mem {segments : List String} (level : ".." ∉ segments) (location : Location) :
    segments.foldl FileSystem.next location =
      location ++ segments.filter fun segment => !(segment.isEmpty || segment == ".") := by
  induction segments generalizing location with
  | nil => exact (List.append_nil location).symm
  | cons segment segments ih =>
      rw [List.mem_cons, not_or] at level
      rw [List.foldl_cons, ih level.2]
      by_cases nothing : NamesNothing segment
      · have dropped : (!(segment.isEmpty || segment == ".")) = false := by
          rcases nothing with rfl | rfl <;> rfl
        rw [next_of_namesNothing nothing, List.filter_cons, dropped]
        rfl
      · have kept : (!(segment.isEmpty || segment == ".")) = true := by
          simpa [NamesNothing] using nothing
        have further : FileSystem.next location segment = location ++ [segment] := by
          rw [FileSystem.next]
          exact (if_neg nothing).trans (if_neg (Ne.symm level.1))
        rw [further, List.filter_cons, kept, List.append_assoc]
        rfl

/-- Where a plain path leads is told by its components. -/
theorem place_of_plain {path : Path} (plain : path.Plain) (current : Location) :
    path.place current = path.origin current ++ path.components.2 := by
  rw [place, foldl_next_of_not_mem plain.1, components]
  congr 1
  cases whole : path.segments with
  | nil => rfl
  | cons first rest =>
      have same : (first.isEmpty || (first == "." && path.isAbsolute)) =
          (first.isEmpty || first == ".") := by
        cases absolute : path.isAbsolute with
        | true => rw [Bool.and_true]
        | false =>
            have other : first ≠ "." := by
              rintro rfl
              exact plain.2 absolute (by rw [whole]; rfl)
            rw [beq_eq_false_iff_ne.mpr other]
            rfl
      simp only [same, List.filter_cons]
      cases first.isEmpty || first == "." <;> rfl

/-- What is dropped from the end of a path names nothing. -/
theorem exists_dropped (absolute : Bool) (segments : List String) :
    ∃ dropped, segments = dropped ++ dropNothing absolute segments ∧
      (∀ segment ∈ dropped, NamesNothing segment) ∧
      ∀ name ∈ (dropNothing absolute segments).head?, name ≠ "" := by
  induction segments with
  | nil => exact ⟨[], rfl, by simp, by simp [dropNothing]⟩
  | cons segment before ih =>
      rw [dropNothing]
      split
      next nothing =>
        obtain ⟨dropped, whole, none, named⟩ := ih
        refine ⟨segment :: dropped, congrArg (List.cons segment) whole, ?_, named⟩
        rw [List.forall_mem_cons]
        refine ⟨?_, none⟩
        rw [Bool.or_eq_true, Bool.and_eq_true, beq_iff_eq] at nothing
        exact nothing.imp String.isEmpty_iff.mp And.left
      next something =>
        refine ⟨[], rfl, by simp, ?_⟩
        rintro name ⟨⟩ rfl
        simp at something

theorem dropNothing_dropNothing (absolute : Bool) (segments : List String) :
    dropNothing absolute (dropNothing absolute segments) = dropNothing absolute segments := by
  induction segments with
  | nil => rfl
  | cons segment before ih =>
      rw [dropNothing]
      split
      next => exact ih
      next something => rw [dropNothing, if_neg something]

/-- The segments of a path are those of its parent, a name, and what names nothing. -/
theorem exists_name {path parent : Path} (h : path.parent? = some parent) :
    ∃ (kept : List String) (name : String) (before behind : List String),
      path.segments = kept ++ before ++ name :: behind ∧ name ≠ "" ∧
      (∀ segment ∈ before ++ behind, NamesNothing segment) ∧
      path.reversed.length + behind.length = path.segments.length ∧
      dropNothing path.isAbsolute kept.reverse = kept.reverse ∧
      parent = ofReversed path.isAbsolute kept.reverse := by
  obtain ⟨dropped, whole, behind, named⟩ := exists_dropped path.isAbsolute path.segments.reverse
  rw [parent?, reversed] at h
  split at h
  next => cases h
  next name rest last =>
    cases h
    obtain ⟨more, again, before, -⟩ := exists_dropped path.isAbsolute rest
    refine ⟨(dropNothing path.isAbsolute rest).reverse, name, more.reverse, dropped.reverse,
      ?_, ?_, ?_, ?_, ?_, ?_⟩
    · rw [last, again] at whole
      have turned := congrArg List.reverse whole
      simpa using turned
    · exact named name (by rw [last]; rfl)
    · simpa [or_imp, forall_and] using And.intro before behind
    · have counted := congrArg List.length whole
      rw [List.length_append, List.length_reverse] at counted
      rw [reversed, List.length_reverse, counted, Nat.add_comm]
    · rw [List.reverse_reverse, dropNothing_dropNothing]
    · rw [List.reverse_reverse]

/-- A path is absolute and begins with a slash, or it is relative and begins with none; its segments
are the pieces of the rest. -/
theorem segments_cases (path : Path) :
    (∃ rest, path.text.toList = '/' :: rest ∧ path.isAbsolute = true ∧
      path.segments = (Text.pieces '/' rest).map String.ofList) ∨
    ((∀ rest, path.text.toList ≠ '/' :: rest) ∧ path.isAbsolute = false ∧
      path.segments = (Text.pieces '/' path.text.toList).map String.ofList) := by
  rw [segments, isAbsolute]
  split
  next rest whole => exact .inl ⟨rest, whole, by rw [whole]; rfl, rfl⟩
  next other =>
    refine .inr ⟨other, ?_, rfl⟩
    rw [beq_eq_false_iff_ne]
    intro slash
    obtain ⟨behind, whole⟩ := List.head?_eq_some_iff.mp slash
    exact other behind whole

theorem slash_not_mem_segment {path : Path} {segment : String} (h : segment ∈ path.segments) :
    '/' ∉ segment.toList := by
  rcases path.segments_cases with ⟨_, -, -, same⟩ | ⟨-, -, same⟩
  all_goals
    rw [same] at h
    obtain ⟨piece, member, rfl⟩ := List.mem_map.mp h
    rw [String.toList_ofList]
    exact Text.sep_not_mem_of_mem_pieces member

theorem toList_intercalate_pieces (cs : List Char) :
    ("/".intercalate ((Text.pieces '/' cs).map String.ofList)).toList = cs := by
  have same : String.toList ∘ String.ofList = id := by
    funext cs
    exact String.toList_ofList
  rw [String.toList_intercalate, List.map_map, same, List.map_id]
  exact Text.intercalate_pieces '/' cs

/-- Nothing of a path is lost between its segments. -/
theorem text_eq (path : Path) :
    path.text = (if path.isAbsolute then "/" else "") ++ "/".intercalate path.segments := by
  apply String.toList_injective
  rw [String.toList_append]
  rcases path.segments_cases with ⟨rest, whole, absolute, same⟩ | ⟨-, relative, same⟩
  · rw [same, toList_intercalate_pieces, absolute, whole]
    rfl
  · rw [same, toList_intercalate_pieces, relative]
    rfl

/-- A relative path that is not empty begins with a segment that is not. -/
theorem head?_segments {path : Path} (relative : path.isAbsolute = false)
    (written : path.text.isEmpty = false) : path.segments.head? ≠ some "" := by
  rcases path.segments_cases with ⟨_, -, absolute, -⟩ | ⟨other, -, same⟩
  · rw [relative] at absolute
    cases absolute
  · intro empty
    cases whole : path.text.toList with
    | nil =>
        rw [String.toList_eq_nil_iff] at whole
        rw [whole] at written
        cases written
    | cons c cs =>
        have plain : c ≠ '/' := fun slash => other cs (slash ▸ whole)
        rw [same, whole, Text.pieces, if_neg plain] at empty
        split at empty
        all_goals
          rw [List.map_cons, List.head?_cons, Option.some.injEq] at empty
          have letters := congrArg String.toList empty
          rw [String.toList_ofList] at letters
          cases letters

/-- Segments without slashes, with no empty one in front of a relative path, are the segments of the
path that is written with them. -/
theorem segments_ofReversed {absolute : Bool} {kept : List String}
    (free : ∀ segment ∈ kept, '/' ∉ segment.toList)
    (first : absolute = false → kept.head? ≠ some "") :
    (ofReversed absolute kept.reverse).isAbsolute = absolute ∧
      (ofReversed absolute kept.reverse).segments = if kept = [] then [""] else kept := by
  have written : (ofReversed absolute kept.reverse).text.toList =
      (if absolute then ['/'] else []) ++ ['/'].intercalate (kept.map String.toList) := by
    rw [ofReversed, List.reverse_reverse, String.toList_append, String.toList_intercalate]
    cases absolute <;> rfl
  have read : (Text.pieces '/' (['/'].intercalate (kept.map String.toList))).map String.ofList =
      if kept = [] then [""] else kept := by
    cases kept with
    | nil => rfl
    | cons segment kept =>
        have free' : ∀ piece ∈ segment.toList :: kept.map String.toList, '/' ∉ piece := by
          rw [← List.map_cons]
          intro piece member
          obtain ⟨text, inside, rfl⟩ := List.mem_map.mp member
          exact free text inside
        have same : String.ofList ∘ String.toList = id := by
          funext text
          exact String.ofList_toList
        rw [List.map_cons, Text.pieces_intercalate free', ← List.map_cons, List.map_map, same,
          List.map_id, if_neg (List.cons_ne_nil _ _)]
  rcases (ofReversed absolute kept.reverse).segments_cases with
    ⟨rest, slash, isAbsolute, segments⟩ | ⟨other, relative, segments⟩
  · rw [isAbsolute, segments]
    cases absolute with
    | true =>
        rw [written] at slash
        obtain rfl := (List.cons.inj slash).2
        exact ⟨rfl, read⟩
    | false =>
        -- the first segment is not empty and holds no slash, so no slash comes first
        rw [written] at slash
        cases kept with
        | nil => cases slash
        | cons segment kept =>
            cases letters : segment.toList with
            | nil =>
                rw [String.toList_eq_nil_iff] at letters
                exact absurd (congrArg some letters) (first rfl)
            | cons c cs =>
                have head : c = '/' := by
                  rw [List.map_cons, letters, List.intercalate_cons_cons_left] at slash
                  exact (List.cons.inj slash).1
                exact absurd (head ▸ letters ▸ List.mem_cons_self)
                  (free segment List.mem_cons_self)
  · rw [relative, segments]
    cases absolute with
    | true => exact absurd written (other _)
    | false =>
        rw [written]
        exact ⟨rfl, read⟩

section Parent

variable {path parent : Path}

/-- A path with a name in it is not empty, so what is written with its first segments has these segments. -/
theorem segments_of_front {kept : List String} (front : kept <+: path.segments)
    (named : path.reversed ≠ []) :
    (ofReversed path.isAbsolute kept.reverse).isAbsolute = path.isAbsolute ∧
      (ofReversed path.isAbsolute kept.reverse).segments = if kept = [] then [""] else kept := by
  apply segments_ofReversed
  · exact fun segment member => slash_not_mem_segment (front.subset member)
  · intro relative empty
    have written : path.text.isEmpty = false := by
      rw [Bool.eq_false_iff]
      intro none
      obtain ⟨text⟩ := path
      cases String.isEmpty_iff.mp none
      exact named rfl
    obtain ⟨rest, whole⟩ := front
    apply head?_segments relative written
    rw [← whole]
    cases kept with
    | nil => cases empty
    | cons segment kept => exact empty

/-- A parent is written with the first segments of its path. -/
theorem segments_parent (h : path.parent? = some parent) :
    ∃ (kept : List String) (name : String) (before behind : List String),
      path.segments = kept ++ before ++ name :: behind ∧ name ≠ "" ∧
      (∀ segment ∈ before ++ behind, NamesNothing segment) ∧
      path.reversed.length + behind.length = path.segments.length ∧
      dropNothing path.isAbsolute kept.reverse = kept.reverse ∧
      parent.isAbsolute = path.isAbsolute ∧
      parent.segments = if kept = [] then [""] else kept := by
  obtain ⟨kept, name, before, behind, whole, named, nothing, counted, trimmed, rfl⟩ := exists_name h
  refine ⟨kept, name, before, behind, whole, named, nothing, counted, trimmed, ?_⟩
  apply segments_of_front
  · rw [whole, List.append_assoc]
    exact List.prefix_append _ _
  · intro none
    rw [parent?, none] at h
    cases h

theorem isAbsolute_parent (h : path.parent? = some parent) : parent.isAbsolute = path.isAbsolute := by
  obtain ⟨_, _, _, _, -, -, -, -, -, absolute, -⟩ := segments_parent h
  exact absolute

/-- The way of a path is that of its parent, then the place of the parent, and then its own place for
each segment behind its name. -/
theorem exists_way_parent (h : path.parent? = some parent) (current : Location) :
    ∃ behind : List String, path.reversed.length + behind.length = path.segments.length ∧
      (∀ at_ ∈ parent.way current, at_ ∈ path.way current) ∧
      parent.place current ∈ path.way current ∧
      ∀ at_ ∈ path.way current, at_ ∈ parent.way current ∨ at_ = parent.place current ∨
        at_ = path.place current ∧ behind ≠ [] := by
  obtain ⟨kept, name, before, behind, whole, -, nothing, counted, -, absolute, segments⟩ :=
    segments_parent h
  refine ⟨behind, counted, ?_⟩
  have origin : parent.origin current = path.origin current := by
    rw [Path.origin, Path.origin, absolute]
  rw [List.forall_mem_append] at nothing
  have place : parent.place current = kept.foldl FileSystem.next (path.origin current) := by
    rw [Path.place, origin, segments]
    split
    next none => rw [none, List.foldl_cons, next_of_namesNothing (.inl rfl)]
    next => rfl
  have arrived : path.place current = FileSystem.next (parent.place current) name := by
    rw [Path.place, whole, List.append_assoc, List.foldl_append, ← place, List.foldl_append,
      foldl_next_of_namesNothing nothing.1, List.foldl_cons, foldl_next_of_namesNothing nothing.2]
  have way : path.way current = lookups (path.origin current) kept ++
      (lookups (parent.place current) before ++
        parent.place current :: lookups (path.place current) behind) := by
    rw [Path.way, whole, List.append_assoc, FileSystem.lookups_append, FileSystem.lookups_append,
      ← place, foldl_next_of_namesNothing nothing.1, lookups, ← arrived]
  have beginning : ∀ at_, at_ ∈ lookups (path.origin current) kept → at_ ∈ parent.way current := by
    intro at_ member
    rw [Path.way, origin, segments]
    cases kept with
    | nil => cases member
    | cons segment kept => exact member
  have here : parent.place current ∈ path.way current := by
    rw [way]
    simp
  refine ⟨?_, here, ?_⟩
  · intro at_ member
    rw [Path.way, origin, segments] at member
    split at member
    next none =>
      -- the parent is empty, and what it looks up is where the path begins
      rw [lookups, lookups, List.mem_singleton] at member
      rw [place, none, List.foldl_nil, ← member] at here
      exact here
    next =>
      rw [way]
      exact List.mem_append_left _ member
  · intro at_ member
    rw [way, List.mem_append, List.mem_append, List.mem_cons] at member
    rcases member with inside | inside | rfl | inside
    · exact .inl (beginning at_ inside)
    · exact .inr (.inl (eq_of_mem_lookups nothing.1 inside))
    · exact .inr (.inl rfl)
    · refine .inr (.inr ⟨eq_of_mem_lookups nothing.2 inside, ?_⟩)
      rintro rfl
      cases inside

/-- Where one path leads through and to, when it lies along another. -/
def Along (inner path : Path) : Prop := ∀ current, ∀ at_ ∈ inner.trail current, at_ ∈ path.trail current

theorem mem_way_of_parent (h : path.parent? = some parent) {current at_ : Location}
    (member : at_ ∈ parent.trail current) : at_ ∈ path.way current := by
  obtain ⟨_, -, way, place, -⟩ := exists_way_parent h current
  rcases mem_trail.mp member with inside | rfl
  · exact way at_ inside
  · exact place

theorem along_of_parent (h : path.parent? = some parent) : parent.Along path :=
  fun _ _ member => mem_trail_of_mem_way (mem_way_of_parent h member)

theorem mem_way (h : path.parent? = some parent) {current at_ : Location}
    (member : at_ ∈ path.way current) : at_ ∈ parent.trail current ∨ at_ = path.place current := by
  obtain ⟨_, -, -, -, only⟩ := exists_way_parent h current
  rcases only at_ member with inside | here | ⟨own, -⟩
  · exact .inl (mem_trail_of_mem_way inside)
  · exact .inl (mem_trail.mpr (.inr here))
  · exact .inr own

/-- A parent is written without anything behind its name. -/
theorem mem_way_parent {above : Path} (h : path.parent? = some parent)
    (h' : parent.parent? = some above) {current at_ : Location}
    (member : at_ ∈ parent.way current) : at_ ∈ above.trail current := by
  obtain ⟨kept, _, _, _, -, -, -, -, trimmed, absolute, segments⟩ := segments_parent h
  obtain ⟨behind, counted, -, -, only⟩ := exists_way_parent h' current
  have whole : parent.reversed.length = parent.segments.length := by
    rw [reversed, absolute, segments]
    split
    next none =>
      -- an empty parent has no parent
      rw [parent?, reversed, absolute, segments, if_pos none] at h'
      cases h'
    next => rw [trimmed, List.length_reverse]
  have none : behind = [] := by
    apply List.length_eq_zero_iff.mp
    omega
  rcases only at_ member with inside | here | ⟨-, some⟩
  · exact mem_trail_of_mem_way inside
  · exact mem_trail.mpr (.inr here)
  · exact absurd none some

theorem length_intercalate_pos {segments : List String} {name : String} (member : name ∈ segments)
    (named : name ≠ "") : 0 < ("/".intercalate segments).length := by
  have slash : "/".length = 1 := rfl
  cases segments with
  | nil => cases member
  | cons first rest =>
      cases rest with
      | nil =>
          rw [List.mem_singleton] at member
          rw [String.intercalate_singleton, ← member]
          exact Nat.pos_of_ne_zero fun none => named (String.length_eq_zero_iff.mp none)
      | cons second rest =>
          rw [String.intercalate_cons_cons, String.length_append, String.length_append]
          omega

theorem length_parent (h : path.parent? = some parent) : parent.text.length < path.text.length := by
  have slash : "/".length = 1 := rfl
  obtain ⟨kept, name, before, behind, whole, named, -, -, -, absolute, segments⟩ := segments_parent h
  have inside : name ∈ before ++ name :: behind := List.mem_append_right _ List.mem_cons_self
  rw [text_eq path, text_eq parent, absolute, segments, whole, String.length_append,
    String.length_append, List.append_assoc]
  apply Nat.add_lt_add_left
  split
  next none =>
    subst none
    rw [List.nil_append, String.intercalate_singleton]
    exact length_intercalate_pos inside named
  next some =>
    rw [String.intercalate_append_of_ne_nil some (List.ne_nil_of_mem inside), String.length_append,
      String.length_append]
    omega

theorem dropNothing_concat_ne_nil {first : String} (named : first ≠ "") (segments : List String) :
    dropNothing false (segments ++ [first]) ≠ [] := by
  induction segments with
  | nil =>
      have kept : first.isEmpty = false := by simpa using named
      simp [dropNothing, kept]
  | cons segment segments ih =>
      rw [List.cons_append, dropNothing]
      split
      · exact ih
      · exact List.cons_ne_nil _ _

/-- The empty path leads nowhere but to where it begins. -/
theorem eq_origin_of_mem_trail (empty : path.text.isEmpty) {current at_ : Location}
    (member : at_ ∈ path.trail current) : at_ = path.origin current := by
  obtain ⟨text⟩ := path
  cases String.isEmpty_iff.mp empty
  simpa [trail, way, place, segments, Text.pieces, lookups, FileSystem.next] using member

/-- A path without a parent is empty or leads through the root alone. -/
theorem way_of_parent?_eq_none (h : path.parent? = none) (written : path.text.isEmpty = false)
    (current : Location) : ∀ at_ ∈ path.way current, at_ = [] := by
  have none : dropNothing path.isAbsolute path.segments.reverse = [] := by
    rw [parent?, reversed] at h
    split at h
    next none => exact none
    next => cases h
  cases absolute : path.isAbsolute with
  | false =>
      cases whole : path.segments with
      | nil => exact fun at_ member => by rw [Path.way, whole] at member; cases member
      | cons first rest =>
          have named : first ≠ "" := by
            intro empty
            apply head?_segments absolute written
            rw [whole, empty]
            rfl
          rw [absolute, whole, List.reverse_cons] at none
          exact absurd none (dropNothing_concat_ne_nil named rest.reverse)
  | true =>
      obtain ⟨dropped, whole, nothing, -⟩ := exists_dropped path.isAbsolute path.segments.reverse
      rw [none, List.append_nil] at whole
      intro at_ member
      have origin : path.origin current = [] := by rw [Path.origin, absolute]; rfl
      rw [Path.way, origin] at member
      apply eq_of_mem_lookups _ member
      intro segment inside
      exact nothing segment (whole ▸ List.mem_reverse.mpr inside)

end Parent

end Path

end SwiftModel.Files
