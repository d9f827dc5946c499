import Mathlib.Tactic

/-!
# Code that may throw

A computation that may throw is an `Except`. It *returns* if no exception leaves it, and it
*ensures* what holds of its value whenever it returns.
-/

namespace Except

variable {ε α β : Type}

/-- No exception leaves the computation. -/
def Returns (action : Except ε α) : Prop :=
  ∃ value, action = .ok value

instance (action : Except ε α) : Decidable action.Returns :=
  match action with
  | .ok value => .isTrue ⟨value, rfl⟩
  | .error _ => .isFalse fun ⟨_, same⟩ => nomatch same

variable {action : Except ε α}

theorem exists_eq_ok : (∃ value, action = .ok value) ↔ action.Returns :=
  Iff.rfl

@[simp]
theorem returns_ok (value : α) : (Except.ok value : Except ε α).Returns :=
  ⟨value, rfl⟩

@[simp]
theorem returns_pure (value : α) : (pure value : Except ε α).Returns :=
  ⟨value, rfl⟩

@[simp]
theorem not_returns_error (error : ε) : ¬(Except.error error : Except ε α).Returns := by
  rintro ⟨_, same⟩
  cases same

@[simp]
theorem ok_bind (value : α) (next : α → Except ε β) : (Except.ok value >>= next) = next value :=
  rfl

@[simp]
theorem returns_map (change : α → β) (action : Except ε α) :
    (change <$> action).Returns ↔ action.Returns := by
  cases action with
  | error error => simp [Functor.map, Except.map]
  | ok value => simp [Functor.map, Except.map]

variable {next : α → Except ε β}

theorem bind_eq_ok {result : β} :
    action >>= next = .ok result ↔ ∃ value, action = .ok value ∧ next value = .ok result := by
  cases action with
  | error error => simp [bind, Except.bind]
  | ok value => simp

theorem returns_bind :
    (action >>= next).Returns ↔ ∃ value, action = .ok value ∧ (next value).Returns := by
  cases action with
  | error error => simp [bind, Except.bind]
  | ok value => simp

theorem returns_bind_expect [DecidableEq α] {expected : α} {other : β} {next : Except ε β} :
    (action >>= fun value => if value ≠ expected then pure other else next).Returns ↔
      action.Returns ∧ (action = .ok expected → next.Returns) := by
  cases action with
  | error error => simp [bind, Except.bind]
  | ok value =>
    by_cases same : value = expected
    · simp [same]
    · simp [same]

section Ensures

/-- What holds of the value if the computation returns. -/
def Ensures (action : Except ε α) (post : α → Prop) : Prop :=
  ∀ value, action = .ok value → post value

variable {post : β → Prop}

theorem ensures_pure {value : β} (holds : post value) : (pure value : Except ε β).Ensures post := by
  intro result returned
  cases returned
  exact holds

theorem ensures_bind
    (ensures : ∀ value, (next value).Ensures post) : (action >>= next).Ensures post := by
  intro result returned
  obtain ⟨value, -, follows⟩ := bind_eq_ok.mp returned
  exact ensures value result follows

end Ensures

end Except
