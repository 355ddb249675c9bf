namespace Except

variable {ε α β γ : Type}

theorem bind_eq_ok_iff {first : Except ε α} {next : α → Except ε β} {result : β} :
    first >>= next = .ok result ↔ ∃ middle, first = .ok middle ∧ next middle = .ok result := by
  cases first with
  | error failure => simp [Bind.bind, Except.bind]
  | ok middle => simp [Bind.bind, Except.bind]

theorem map_eq_ok_iff {first : Except ε α} {function : α → β} {result : β} :
    first.map function = .ok result ↔ ∃ middle, first = .ok middle ∧ function middle = result := by
  cases first with
  | error failure => simp [Except.map]
  | ok middle => simp [Except.map]

theorem both_eq_ok_iff {first : Except ε α} {second : Except ε β} {combine : α → β → γ}
    {result : γ} :
    (do
      let front ← first
      let back ← second
      return combine front back) = .ok result ↔
      ∃ front back, first = .ok front ∧ second = .ok back ∧ combine front back = result := by
  cases first with
  | error failure => simp [Bind.bind, Except.bind]
  | ok front =>
    cases second with
    | error failure => simp [Bind.bind, Except.bind]
    | ok back => simp [Bind.bind, Except.bind, Pure.pure, Except.pure]

theorem bind_eq_error_iff {first : Except ε α} {next : α → Except ε β} {failure : ε} :
    first >>= next = .error failure ↔
      first = .error failure ∨ ∃ middle, first = .ok middle ∧ next middle = .error failure := by
  cases first with
  | error other => simp [Bind.bind, Except.bind]
  | ok middle => simp [Bind.bind, Except.bind]

theorem map_eq_error_iff {first : Except ε α} {function : α → β} {failure : ε} :
    first.map function = .error failure ↔ first = .error failure := by
  cases first with
  | error other => simp [Except.map]
  | ok middle => simp [Except.map]

end Except
