import Mathlib.Tactic

/-!
# Runs of event-driven systems

A system is given by a partial step function: `step state event` is the state after `event`, and
`none` when the event cannot happen in `state`.

`Run step condition start events finish` is a run whose every event also meets a condition on the
state it is taken from. An invariant that holds at the start and that each such step preserves holds
at the end (`Run.invariant`).
-/

namespace EventSystem

open List

universe u v

variable {State : Type u} {Event : Type v}

/-- A run from `start` in which every event happens under `condition`. -/
inductive Run (step : State → Event → Option State) (condition : State → Event → Prop)
    (start : State) : List Event → State → Prop where
  | nil : Run step condition start [] start
  | snoc {events : List Event} {before after : State} {event : Event}
      (earlier : Run step condition start events before)
      (meets : condition before event) (taken : step before event = some after) :
      Run step condition start (events ++ [event]) after

namespace Run

variable {step : State → Event → Option State} {condition : State → Event → Prop}
  {start finish : State} {events : List Event}

theorem invariant {Invariant : State → Prop} (initially : Invariant start)
    (preserved : ∀ {before after : State} {event : Event}, condition before event →
      step before event = some after → Invariant before → Invariant after)
    (run : Run step condition start events finish) : Invariant finish := by
  induction run with
  | nil => exact initially
  | snoc _ meets taken ih => exact preserved meets taken ih

theorem trans {middle : State} {later : List Event}
    (first : Run step condition start events middle)
    (second : Run step condition middle later finish) :
    Run step condition start (events ++ later) finish := by
  induction second with
  | nil => simpa using first
  | snoc _ meets taken ih =>
    rw [← append_assoc]
    exact .snoc ih meets taken

theorem single {event : Event} (meets : condition start event)
    (taken : step start event = some finish) : Run step condition start [event] finish :=
  .snoc .nil meets taken

theorem restrict {meets : Event → Prop} (run : Run step condition start events finish)
    (all : ∀ event ∈ events, meets event) :
    Run step (fun _ event => meets event) start events finish := by
  induction run with
  | nil => exact .nil
  | snoc _ _ taken ih =>
    rw [forall_mem_append, forall_mem_singleton] at all
    exact .snoc (ih all.1) all.2 taken

theorem replay {View : Type*} (view : State → View) {viewStep : View → Event → View}
    {relevant : Event → Bool} (Invariant : State → Prop) (initially : Invariant start)
    (preserved : ∀ {before after : State} {event : Event}, condition before event →
      step before event = some after → Invariant before → Invariant after)
    (changes : ∀ {before after : State} {event : Event}, condition before event →
      step before event = some after → Invariant before →
      view after = if relevant event then viewStep (view before) event else view before)
    (run : Run step condition start events finish) :
    view finish = (events.filter relevant).foldl viewStep (view start) := by
  induction run with
  | nil => rfl
  | @snoc events before after event earlier meets taken ih =>
    rw [changes meets taken (earlier.invariant initially preserved), filter_append,
      foldl_append, ← ih]
    cases seen : relevant event <;> simp [seen]

end Run

section Execute

variable (step : State → Event → Option State) (condition : State → Event → Prop)
  [∀ state event, Decidable (condition state event)]

def execute (start : State) (events : List Event) : Option State :=
  events.foldlM (fun state event => if condition state event then step state event else none) start

variable {step condition}

theorem Run.of_execute {start finish : State} {events : List Event}
    (executed : execute step condition start events = some finish) :
    Run step condition start events finish := by
  induction events using List.reverseRecOn generalizing finish with
  | nil =>
    cases executed
    exact .nil
  | append_singleton events event ih =>
    simp only [execute, foldlM_append, foldlM_cons, foldlM_nil,
      Option.bind_eq_bind, Option.bind_eq_some_iff] at executed
    rcases executed with ⟨before, earlier, after, taken, same⟩
    cases same
    split at taken
    · next meets => exact .snoc (ih earlier) meets taken
    · cases taken

theorem Run.exists_of_execute {start : State} {events : List Event} {Outcome : State → Prop}
    (facts : State → Bool) (checked : (execute step condition start events).any facts = true)
    (follows : ∀ finish, Run step condition start events finish → facts finish = true →
      Outcome finish) :
    ∃ finish, Run step condition start events finish ∧ Outcome finish := by
  rw [Option.any_eq_true] at checked
  rcases checked with ⟨finish, executed, holds⟩
  exact ⟨finish, .of_execute executed, follows finish (.of_execute executed) holds⟩

end Execute

end EventSystem
