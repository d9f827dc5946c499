import Mathlib.Tactic

/-!
# Interleaved calls

Calls in progress at the same time. A call is the list of the atomic actions that it has still to
take; the actions that an action leads to come before the rest of its call.

Invariants mostly speak about the pending actions of all calls. They are a multiset, and a call that
goes on takes one action out of it and puts others in (`pending_of_next`).
-/

namespace Interleaving

open Multiset

universe u

variable {Action : Type u}

def pending (calls : List (List Action)) : Multiset Action := calls.flatten

def next? (calls : List (List Action)) (index : ℕ) : Option Action :=
  calls[index]?.bind List.head?

def resume (calls : List (List Action)) (index : ℕ) (more : List Action) : List (List Action) :=
  calls.modify index fun call => more ++ call.tail

/-- Actions that a call takes before those that it has still to take. -/
def prepend (calls : List (List Action)) (index : ℕ) (more : List Action) : List (List Action) :=
  calls.modify index (more ++ ·)

def start (calls : List (List Action)) (call : List Action) : List (List Action) :=
  calls ++ [call]

@[simp] theorem pending_nil : pending ([] : List (List Action)) = 0 := rfl

theorem pending_cons (call : List Action) (calls : List (List Action)) :
    pending (call :: calls) = call + pending calls := by
  simp [pending]

@[simp] theorem coe_cons_add (action : Action) (more : List Action) (others : Multiset Action) :
    ((action :: more : List Action) : Multiset Action) + others = action ::ₘ (more + others) := by
  rw [← cons_coe, cons_add]

@[simp] theorem coe_nil_add (others : Multiset Action) :
    (([] : List Action) : Multiset Action) + others = others := by
  rw [coe_nil, zero_add]

theorem pending_start (calls : List (List Action)) (call : List Action) :
    pending (start calls call) = call + pending calls := by
  simpa [pending, start] using List.perm_append_comm

theorem next?_start (calls : List (List Action)) (action : Action) (rest : List Action) :
    next? (start calls (action :: rest)) calls.length = some action := by
  simp [next?, start]

variable {index : ℕ} {action : Action}

theorem next?_start_of_next {calls : List (List Action)}
    (next : next? calls index = some action) (call : List Action) :
    next? (start calls call) index = some action := by
  obtain ⟨own, isOwn, first⟩ := Option.bind_eq_some_iff.mp next
  have inRange := (List.getElem?_eq_some_iff.mp isOwn).1
  rw [next?, start, List.getElem?_append_left inRange, isOwn]
  exact first

theorem resume_start (calls : List (List Action)) (action : Action) (rest more : List Action) :
    resume (start calls (action :: rest)) calls.length more = start calls (more ++ rest) := by
  induction calls with
  | nil => rfl
  | cons call calls ih =>
    have later := congrArg (call :: ·) ih
    simpa [resume, start] using later

@[simp] theorem length_prepend (calls : List (List Action)) (index : ℕ) (more : List Action) :
    (prepend calls index more).length = calls.length :=
  List.length_modify _ _ _

theorem pending_prepend {calls : List (List Action)} (inCall : index < calls.length)
    (more : List Action) : pending (prepend calls index more) = more + pending calls := by
  induction calls generalizing index with
  | nil => simp at inCall
  | cons call calls ih =>
    cases index with
    | zero => simp [prepend, pending_cons, ← coe_add, add_assoc]
    | succ index =>
      have later := ih (by simpa using inCall)
      simp only [prepend, List.modify_succ_cons, pending_cons] at later ⊢
      rw [later, add_left_comm]

theorem pending_of_next {calls : List (List Action)} (next : next? calls index = some action) :
    ∃ others : Multiset Action, pending calls = action ::ₘ others ∧
      ∀ more : List Action, pending (resume calls index more) = more + others := by
  induction calls generalizing index with
  | nil => simp [next?] at next
  | cons call calls ih =>
    cases index with
    | zero =>
      cases call with
      | nil => simp [next?] at next
      | cons head rest =>
        simp only [next?, List.getElem?_cons_zero, Option.bind_some, List.head?_cons,
          Option.some.injEq] at next
        subst next
        refine ⟨rest + pending calls, ?_, ?_⟩
        · rw [pending_cons, coe_cons_add]
        · intro more
          simp [resume, pending_cons, ← coe_add, add_assoc]
    | succ index =>
      rcases ih (by simpa [next?] using next) with ⟨others, before, after⟩
      refine ⟨call + others, by simp [pending_cons, before], ?_⟩
      intro more
      have later := after more
      simp only [resume, List.modify_succ_cons, pending_cons] at later ⊢
      rw [later, add_left_comm]

section Invariant

variable {calls : List (List Action)} {Before After : Action → Prop}

theorem mem_pending_of_next (next : next? calls index = some action) : action ∈ pending calls := by
  obtain ⟨others, before, -⟩ := pending_of_next next
  rw [before]
  exact mem_cons_self action others

variable {more : List Action}

theorem mem_pending_resume {other : Action}
    (next : next? calls index = some action) (mem : other ∈ pending calls) :
    other = action ∨ other ∈ pending (resume calls index more) := by
  obtain ⟨others, before, after⟩ := pending_of_next next
  rw [before, mem_cons] at mem
  rw [after more, mem_add]
  exact mem.imp_right .inr

theorem mem_pending_resume_of_mem {other : Action}
    (next : next? calls index = some action) (mem : other ∈ more) :
    other ∈ pending (resume calls index more) := by
  obtain ⟨others, -, after⟩ := pending_of_next next
  rw [after more, mem_add]
  exact .inl mem

theorem mem_pending_start {call : List Action} {other : Action} (mem : other ∈ pending calls) :
    other ∈ pending (start calls call) := by
  rw [pending_start, mem_add]
  exact .inr mem

theorem forall_pending_resume
    (next : next? calls index = some action) (old : ∀ action ∈ pending calls, Before action)
    (keeps : ∀ action, Before action → After action) (new : ∀ action ∈ more, After action) :
    ∀ action ∈ pending (resume calls index more), After action := by
  obtain ⟨others, before, after⟩ := pending_of_next next
  intro pendingAction mem
  rw [after more, mem_add, mem_coe] at mem
  rcases mem with isNew | isOther
  · exact new pendingAction isNew
  · apply keeps
    apply old
    rw [before]
    exact mem_cons_of_mem isOther

theorem forall_pending_start {call : List Action} (old : ∀ action ∈ pending calls, Before action)
    (keeps : ∀ action, Before action → After action) (new : ∀ action ∈ call, After action) :
    ∀ action ∈ pending (start calls call), After action := by
  intro action mem
  rw [pending_start, mem_add, mem_coe] at mem
  rcases mem with isNew | isOld
  · exact new action isNew
  · exact keeps action (old action isOld)

end Invariant

end Interleaving
