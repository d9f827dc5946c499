import Mathlib.Tactic

/-!
# Code that changes a state and may throw

A computation of `EStateM` that throws leaves the state as it is at that moment. `Ensures` says what
holds when a computation returns and what holds when it throws.
-/

namespace EStateM

variable {ε σ α β : Type} {before : σ} {post : α → σ → Prop} {raised : ε → σ → Prop}

/-- From `before`, the computation returns with `post` or throws with `raised`. -/
def Ensures (action : EStateM ε σ α) (before : σ) (post : α → σ → Prop)
    (raised : ε → σ → Prop) : Prop :=
  match action before with
  | .ok value after => post value after
  | .error error after => raised error after

/-- From `before`, the computation returns with `post`. -/
def Returns (action : EStateM ε σ α) (before : σ) (post : α → σ → Prop) : Prop :=
  action.Ensures before post fun _ _ => False

variable {action : EStateM ε σ α}

theorem Ensures.mono {post' : α → σ → Prop} {raised' : ε → σ → Prop}
    (ensures : action.Ensures before post raised)
    (returned : ∀ value after, post value after → post' value after)
    (threw : ∀ error after, raised error after → raised' error after) :
    action.Ensures before post' raised' := by
  unfold Ensures at ensures ⊢
  cases result : action before with
  | ok value after =>
    rw [result] at ensures
    exact returned value after ensures
  | error error after =>
    rw [result] at ensures
    exact threw error after ensures

theorem Returns.mono {post' : α → σ → Prop} (returns : action.Returns before post)
    (returned : ∀ value after, post value after → post' value after) :
    action.Ensures before post' raised :=
  Ensures.mono returns returned fun _ _ impossible => impossible.elim

def result? (action : EStateM ε σ α) (before : σ) : Option (α × σ) :=
  match action before with
  | .ok value after => some (value, after)
  | .error _ _ => none

theorem result?_eq_some {value : α} {after : σ} :
    action.result? before = some (value, after) ↔ action before = .ok value after := by
  unfold result?
  cases action before with
  | ok value after => simp
  | error error after => simp

theorem returns_iff :
    action.Returns before post ↔ ∃ value after, action before = .ok value after ∧ post value after := by
  unfold Returns Ensures
  cases action before with
  | ok value after => simp
  | error error after => simp

theorem ensures_pure {value : α} (holds : post value before) :
    (pure value : EStateM ε σ α).Ensures before post raised := holds

theorem ensures_get {post : σ → σ → Prop} (holds : post before before) :
    (get : EStateM ε σ σ).Ensures before post raised := holds

variable {next : α → EStateM ε σ β} {post : β → σ → Prop}

theorem ensures_bind
    (ensures : action.Ensures before (fun value after => (next value).Ensures after post raised)
      raised) :
    (action >>= next).Ensures before post raised := by
  unfold Ensures at ensures ⊢
  change match EStateM.bind action next before with
    | .ok value after => post value after
    | .error error after => raised error after
  unfold EStateM.bind
  cases result : action before with
  | ok value after =>
    rw [result] at ensures
    exact ensures
  | error error after =>
    rw [result] at ensures
    exact ensures

theorem Ensures.bind {middle : α → σ → Prop}
    {threw : ε → σ → Prop} (ensures : action.Ensures before middle threw)
    (rest : ∀ value after, middle value after → (next value).Ensures after post raised)
    (failed : ∀ error after, threw error after → raised error after) :
    (action >>= next).Ensures before post raised :=
  ensures_bind (ensures.mono rest failed)

theorem Returns.bind {middle : α → σ → Prop} (returns : action.Returns before middle)
    (rest : ∀ value after, middle value after → (next value).Ensures after post raised) :
    (action >>= next).Ensures before post raised :=
  Ensures.bind returns rest fun _ _ impossible => impossible.elim

theorem ensures_tryCatch {post : α → σ → Prop} {handle : ε → EStateM ε σ α}
    (ensures : action.Ensures before post fun error after =>
      (handle error).Ensures after post raised) :
    (tryCatch action handle).Ensures before post raised := by
  unfold Ensures at ensures ⊢
  change match EStateM.tryCatch action handle before with
    | .ok value after => post value after
    | .error error after => raised error after
  unfold EStateM.tryCatch
  cases result : action before with
  | ok value after =>
    rw [result] at ensures
    exact ensures
  | error error after =>
    rw [result] at ensures
    exact ensures

end EStateM
