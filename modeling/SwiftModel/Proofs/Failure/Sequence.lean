/- Steps that may fail, one after the other. -/

namespace SwiftModel

section Sequence

variable {ε α β : Type} {result : Except ε α} {next : α → Except ε β}

theorem bind_eq_ok {value : β} :
    result.bind next = .ok value ↔ ∃ first, result = .ok first ∧ next first = .ok value := by
  cases result with
  | error problem => exact ⟨fun h => (nomatch h), fun ⟨_, h, _⟩ => (nomatch h)⟩
  | ok first =>
      refine ⟨fun h => ⟨first, rfl, h⟩, ?_⟩
      rintro ⟨_, ⟨⟩, h⟩
      exact h

theorem bind_eq_error {problem : ε} :
    result.bind next = .error problem ↔
      result = .error problem ∨ ∃ first, result = .ok first ∧ next first = .error problem := by
  cases result with
  | error other =>
      constructor
      · intro h
        cases h
        exact .inl rfl
      · rintro (h | ⟨_, h, -⟩)
        · cases h
          rfl
        · cases h
  | ok first =>
      constructor
      · intro h
        exact .inr ⟨first, rfl, h⟩
      · rintro (h | ⟨_, ⟨⟩, h⟩)
        · cases h
        · exact h

theorem map_eq_ok {f : α → β} {value : β} (h : result.map f = .ok value) :
    ∃ first, result = .ok first ∧ f first = value := by
  cases result with
  | error problem => cases h
  | ok first => exact ⟨first, rfl, Except.ok.inj h⟩

theorem map_eq_error {f : α → β} {problem : ε} :
    result.map f = .error problem ↔ result = .error problem := by
  cases result with
  | error other => exact ⟨fun h => congrArg Except.error (Except.error.inj h), fun h => h ▸ rfl⟩
  | ok first => exact ⟨fun h => (nomatch h), fun h => (nomatch h)⟩

theorem mapError_eq_ok {δ : Type} {f : ε → δ} {value : α} (h : result.mapError f = .ok value) :
    result = .ok value := by
  cases result with
  | error problem => cases h
  | ok first => exact congrArg Except.ok (Except.ok.inj h)

theorem mapError_eq_error {δ : Type} {f : ε → δ} {problem : δ} (h : result.mapError f = .error problem) :
    ∃ first, result = .error first ∧ f first = problem := by
  cases result with
  | error first => exact ⟨first, rfl, Except.error.inj h⟩
  | ok value => cases h

theorem exists_ok_of_isOk (h : result.isOk = true) : ∃ value, result = .ok value := by
  cases result with
  | error problem => cases h
  | ok value => exact ⟨value, rfl⟩

theorem exists_error_of_isOk (h : result.isOk = false) : ∃ problem, result = .error problem := by
  cases result with
  | error problem => exact ⟨problem, rfl⟩
  | ok value => cases h

end Sequence

/-- Results that are there both, and related, or that failed both for one reason. -/
inductive Tallies {ε α β : Type} (related : α → β → Prop) : Except ε α → Except ε β → Prop
  | ok {first : α} {second : β} : related first second → Tallies related (.ok first) (.ok second)
  | error (problem : ε) : Tallies related (.error problem) (.error problem)

section Tallies

variable {ε α β γ δ : Type} {related : α → β → Prop} {result : Except ε α} {result' : Except ε β}

theorem Tallies.bind (h : Tallies related result result') {related' : γ → δ → Prop}
    {next : α → Except ε γ} {next' : β → Except ε δ}
    (step : ∀ first second, related first second → Tallies related' (next first) (next' second)) :
    Tallies related' (result.bind next) (result'.bind next') := by
  cases h with
  | ok first => exact step _ _ first
  | error problem => exact .error problem

theorem Tallies.mapError (h : Tallies related result result') (f : ε → δ) :
    Tallies related (result.mapError f) (result'.mapError f) := by
  cases h with
  | ok first => exact .ok first
  | error problem => exact .error (f problem)

theorem Tallies.rfl {result : Except ε α} : Tallies Eq result result := by
  cases result with
  | ok value => exact .ok (.refl value)
  | error problem => exact .error problem

theorem Tallies.eq {result result' : Except ε α} (h : Tallies Eq result result') : result = result' := by
  cases h with
  | ok same => exact congrArg Except.ok same
  | error problem => exact Eq.refl _

end Tallies

end SwiftModel
