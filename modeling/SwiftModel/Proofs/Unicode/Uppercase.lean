/- Capitals are their own capital form, since the tables of capitals do not lead on from what they lead to;
and none of them is an underscore. -/
import Mathlib.Data.List.Chain
import SwiftModel.Unicode.Uppercase

namespace SwiftModel.Unicode

/-- The code points from `low` to `high`, of which a stride of two leaves out every other. -/
structure Stretch where
  low : Nat
  high : Nat
  stride : Nat

structure Stretch.Has (s : Stretch) (n : Nat) : Prop where
  low : s.low ≤ n
  high : n ≤ s.high
  parity : s.stride = 2 → n % 2 = s.low % 2

/-- The capitals of a run; where there is but one, any stride will do. -/
def CaseRun.capitals (r : CaseRun) : Stretch where
  low := r.capital
  high := r.capital + (r.last - r.first)
  stride := bif Nat.beq r.first r.last then 2 else r.step

def Stretch.single (n : Nat) : Stretch := ⟨n, n, 2⟩

/-- No run covers a code point of the stretch. The search ends at the first run behind it. -/
def Stretch.liesBetween (s : Stretch) : List CaseRun → Bool
  | [] => true
  | ⟨first, last, step, _⟩ :: runs =>
    bif Nat.ble first s.high then
      bif Nat.ble s.low last then
        Nat.beq s.stride 2 && Nat.beq step 2 && Nat.beq ((s.low + first) % 2) 1 && liesBetween s runs
      else liesBetween s runs
    else true

/-- No expansion is of a code point of the stretch. -/
def Stretch.isUnexpanded (s : Stretch) : List (Nat × List Nat) → Bool
  | [] => true
  | (n, _) :: rest =>
    bif Nat.ble n s.high then bif Nat.ble s.low n then false else isUnexpanded s rest else true

/-- The code points are those of characters, and none is that of the underscore. -/
def Stretch.isProper (s : Stretch) : Bool :=
  (Nat.blt s.high 95 || Nat.blt 95 s.low)
    && (Nat.blt s.high 0xD800 || (Nat.ble 0xE000 s.low && Nat.blt s.high 0x110000))

/-- A stretch of capitals that have no other capital form. -/
def Stretch.isCapital (s : Stretch) : Bool :=
  s.liesBetween caseRuns && s.isUnexpanded expansions

theorem caseRuns_ascend : caseRuns.Pairwise fun r r' => r.first ≤ r'.first := by
  have chain : caseRuns.IsChain fun r r' => r.first ≤ r'.first := by decide +kernel
  exact chain.pairwise

theorem expansions_ascend : expansions.Pairwise fun e e' => e.1 ≤ e'.1 := by
  have chain : expansions.IsChain fun e e' => e.1 ≤ e'.1 := by decide +kernel
  exact chain.pairwise

theorem isCapital_run : caseRuns.all (·.capitals.isCapital) = true := by decide +kernel

theorem isCapital_expansion :
    expansions.all (fun e => e.2.head?.any fun n => (Stretch.single n).isCapital) = true := by
  decide +kernel

theorem isProper_run : caseRuns.all (·.capitals.isProper) = true := by decide +kernel

theorem isProper_expansion :
    expansions.all (fun e => e.2.all fun n => (Stretch.single n).isProper) = true := by decide +kernel

variable {s : Stretch} {n : Nat}

theorem Stretch.has_single (n : Nat) : (single n).Has n :=
  ⟨Nat.le_refl n, Nat.le_refl n, fun _ => rfl⟩

theorem CaseRun.has_capitals {r : CaseRun} (covered : r.covers n = true) :
    r.capitals.Has (r.capital + (n - r.first)) := by
  simp only [covers, Bool.and_eq_true, decide_eq_true_eq, beq_iff_eq] at covered
  obtain ⟨⟨low, high⟩, step⟩ := covered
  refine ⟨Nat.le_add_right _ _, Nat.add_le_add_left (Nat.sub_le_sub_right high _) _, ?_⟩
  intro stride
  change (bif Nat.beq r.first r.last then 2 else r.step) = 2 at stride
  change (r.capital + (n - r.first)) % 2 = r.capital % 2
  cases one : Nat.beq r.first r.last with
  | true =>
      have same := Nat.eq_of_beq_eq_true one
      omega
  | false =>
      rw [one, cond_false] at stride
      rw [stride] at step
      omega

theorem covers_of_liesBetween {runs : List CaseRun}
    (ascend : runs.Pairwise fun r r' => r.first ≤ r'.first) (between : s.liesBetween runs = true)
    (has : s.Has n) : ∀ r ∈ runs, r.covers n = false := by
  obtain ⟨low, high, parity⟩ := has
  induction runs with
  | nil => exact fun _ member => (nomatch member)
  | cons r runs ih =>
      obtain ⟨least, rest⟩ := List.pairwise_cons.mp ascend
      have missed {q : CaseRun} (behind : n < q.first) : q.covers n = false := by
        simp only [CaseRun.covers, Bool.and_eq_false_iff, decide_eq_false_iff_not]
        omega
      rw [Stretch.liesBetween] at between
      cases reached : Nat.ble r.first s.high with
      | false =>
          rw [← Bool.not_eq_true, Nat.ble_eq] at reached
          have first : n < r.first := by omega
          refine List.forall_mem_cons.mpr ⟨missed first, fun q member => missed ?_⟩
          exact Nat.lt_of_lt_of_le first (least q member)
      | true =>
          rw [reached, cond_true] at between
          cases passed : Nat.ble s.low r.last with
          | false =>
              rw [passed, cond_false] at between
              rw [← Bool.not_eq_true, Nat.ble_eq] at passed
              refine List.forall_mem_cons.mpr ⟨?_, ih rest between⟩
              simp only [CaseRun.covers, Bool.and_eq_false_iff, decide_eq_false_iff_not]
              omega
          | true =>
              rw [passed, cond_true, Bool.and_eq_true, Bool.and_eq_true, Bool.and_eq_true] at between
              obtain ⟨⟨⟨stride, step⟩, odd⟩, between⟩ := between
              refine List.forall_mem_cons.mpr ⟨?_, ih rest between⟩
              have even := parity (Nat.eq_of_beq_eq_true stride)
              have two := Nat.eq_of_beq_eq_true step
              have apart := Nat.eq_of_beq_eq_true odd
              simp only [CaseRun.covers, two, Bool.and_eq_false_iff, decide_eq_false_iff_not,
                beq_eq_false_iff_ne]
              omega

theorem ne_of_isUnexpanded {entries : List (Nat × List Nat)}
    (ascend : entries.Pairwise fun e e' => e.1 ≤ e'.1) (free : s.isUnexpanded entries = true)
    (has : s.Has n) : ∀ e ∈ entries, e.1 ≠ n := by
  obtain ⟨low, high, -⟩ := has
  induction entries with
  | nil => exact fun _ member => (nomatch member)
  | cons e entries ih =>
      obtain ⟨least, rest⟩ := List.pairwise_cons.mp ascend
      rw [Stretch.isUnexpanded] at free
      cases reached : Nat.ble e.1 s.high with
      | false =>
          rw [← Bool.not_eq_true, Nat.ble_eq] at reached
          have first : n < e.1 := by omega
          refine List.forall_mem_cons.mpr ⟨Nat.ne_of_gt first, fun e' member => Nat.ne_of_gt ?_⟩
          exact Nat.lt_of_lt_of_le first (least e' member)
      | true =>
          rw [reached, cond_true] at free
          cases passed : Nat.ble s.low e.1 with
          | true => rw [passed, cond_true] at free; cases free
          | false =>
              rw [passed, cond_false] at free
              rw [← Bool.not_eq_true, Nat.ble_eq] at passed
              exact List.forall_mem_cons.mpr ⟨by omega, ih rest free⟩

theorem Stretch.Has.isValidChar (has : s.Has n) (proper : s.isProper = true) : n.isValidChar := by
  obtain ⟨low, high, -⟩ := has
  simp only [isProper, Nat.blt_eq, Bool.and_eq_true, Bool.or_eq_true, Nat.ble_eq] at proper
  obtain ⟨-, below | ⟨above, limit⟩⟩ := proper
  · exact .inl (by omega)
  · exact .inr ⟨by omega, by omega⟩

theorem toNat_ofNat (valid : n.isValidChar) : (Char.ofNat n).toNat = n := by
  rw [Char.ofNat, dif_pos valid]
  rfl

theorem Stretch.Has.ne_underscore (has : s.Has n) (proper : s.isProper = true) :
    Char.ofNat n ≠ '_' := by
  intro same
  have code := congrArg Char.toNat same
  rw [toNat_ofNat (has.isValidChar proper)] at code
  obtain ⟨low, high, -⟩ := has
  simp only [isProper, Nat.blt_eq, Bool.and_eq_true, Bool.or_eq_true] at proper
  change n = 95 at code
  omega

theorem Stretch.Has.upper_eq (has : s.Has n) (proper : s.isProper = true) (capital : s.isCapital = true) :
    upper (Char.ofNat n) = [Char.ofNat n] := by
  rw [isCapital, Bool.and_eq_true] at capital
  have free := ne_of_isUnexpanded expansions_ascend capital.2 has
  have between := covers_of_liesBetween caseRuns_ascend capital.1 has
  rw [upper, toNat_ofNat (has.isValidChar proper)]
  have unexpanded : expansions.find? (·.1 == n) = none :=
    List.find?_eq_none.mpr fun e member => by simpa using free e member
  have uncovered : caseRuns.find? (·.covers n) = none :=
    List.find?_eq_none.mpr fun r member => by simp [between r member]
  rw [unexpanded, uncovered]

/-- A capital form begins with a character that is its own capital form. -/
theorem exists_upper_eq (c : Char) : ∃ d ds, upper c = d :: ds ∧ upper d = [d] := by
  cases expanded : expansions.find? (·.1 == c.toNat) with
  | some e =>
      have member := List.mem_of_find?_eq_some expanded
      have known := List.all_eq_true.mp isCapital_expansion e member
      have proper := List.all_eq_true.mp (List.all_eq_true.mp isProper_expansion e member)
      obtain ⟨code, capitals⟩ := e
      cases capitals with
      | nil => cases known
      | cons n rest =>
          have capital := (Stretch.has_single n).upper_eq (proper n List.mem_cons_self) known
          refine ⟨_, rest.map Char.ofNat, ?_, capital⟩
          rw [upper, expanded]
          rfl
  | none =>
      cases covered : caseRuns.find? (·.covers c.toNat) with
      | some r =>
          have member := List.mem_of_find?_eq_some covered
          have covers := List.find?_some covered
          have has := CaseRun.has_capitals covers
          have proper := List.all_eq_true.mp isProper_run r member
          have capital := List.all_eq_true.mp isCapital_run r member
          refine ⟨_, [], ?_, has.upper_eq proper capital⟩
          rw [upper, expanded, covered]
      | none =>
          have same : upper c = [c] := by rw [upper, expanded, covered]
          exact ⟨c, [], same, same⟩

/-- No capital is an underscore. -/
theorem underscore_not_mem_upper {c : Char} (h : c ≠ '_') : '_' ∉ upper c := by
  intro member
  rcases mem_upper_cases member with ⟨e, listed, n, inside, same⟩ | ⟨r, listed, covered, same⟩ | same
  · have proper := List.all_eq_true.mp (List.all_eq_true.mp isProper_expansion e listed) n inside
    exact (Stretch.has_single n).ne_underscore proper same.symm
  · have proper := List.all_eq_true.mp isProper_run r listed
    exact (CaseRun.has_capitals covered).ne_underscore proper same.symm
  · exact h same.symm

end SwiftModel.Unicode
