import Mathlib.Tactic

/-!
# Commands over a lossy connection

A client sends a command to a server and resends it when no answer comes back. The client does not
know whether the server ran a lost command, so a resent command may meet the effect of its own first
copy.

`perform` is the client's loop over the attempts it is given.
-/

namespace Remote

universe u v

variable {Server : Type u} {Answer : Type v}

inductive Attempt where
  | unreachable
  | refused
  | lost (executed : Bool)
  | answered
  deriving DecidableEq, Repr

/-- Send a command until it is answered; give up when the server cannot be reached or refuses
the command, and after the last attempt. -/
def perform (serve : Server → Server × Answer) : Server → List Attempt → Server × Option Answer
  | server, [] => (server, none)
  | server, .unreachable :: _ => (server, none)
  | server, .refused :: _ => (server, none)
  | server, .lost executed :: rest =>
    perform serve (if executed then (serve server).1 else server) rest
  | server, .answered :: _ => ((serve server).1, some (serve server).2)

def executes : List Attempt → Bool
  | .lost executed :: rest => executed || executes rest
  | .answered :: _ => true
  | _ => false

def delivers : List Attempt → Bool
  | .lost _ :: rest => delivers rest
  | .answered :: _ => true
  | _ => false

/-- Whether the client gets an answer to a copy that the server ran after an earlier one. -/
def repeats : List Attempt → Bool
  | .lost true :: rest => delivers rest
  | .lost false :: rest => repeats rest
  | _ => false

theorem executes_of_delivers {attempts : List Attempt} (answer : delivers attempts = true) :
    executes attempts = true := by
  induction attempts with
  | nil => cases answer
  | cons attempt rest ih =>
    cases attempt with
    | unreachable => cases answer
    | refused => cases answer
    | lost executed => simp [executes, ih answer]
    | answered => rfl

section Idempotent

variable {serve : Server → Server × Answer}
  (idempotent : ∀ server, (serve (serve server).1).1 = (serve server).1)
include idempotent

theorem perform_server (server : Server) (attempts : List Attempt) :
    (perform serve server attempts).1 = if executes attempts then (serve server).1 else server := by
  induction attempts generalizing server with
  | nil => rfl
  | cons attempt rest ih =>
    cases attempt with
    | unreachable => rfl
    | refused => rfl
    | lost executed =>
      cases executed with
      | false => exact ih server
      | true =>
        simp [perform, executes, ih, idempotent]
    | answered => rfl

theorem perform_answer (server : Server) (attempts : List Attempt) :
    (perform serve server attempts).2 =
      if delivers attempts then
        some (if repeats attempts then (serve (serve server).1).2 else (serve server).2)
      else none := by
  induction attempts generalizing server with
  | nil => rfl
  | cons attempt rest ih =>
    cases attempt with
    | unreachable => rfl
    | refused => rfl
    | lost executed =>
      cases executed with
      | false => exact ih server
      | true =>
        -- the rest of the loop starts from a server that has run the command
        simp only [perform, if_true, ih, idempotent, ite_self, delivers, repeats]
        by_cases answer : delivers rest = true
        · simp only [answer, if_true]
        · simp [answer]
    | answered => rfl

end Idempotent

end Remote
