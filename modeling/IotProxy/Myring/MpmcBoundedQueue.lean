import IotProxy.Lib.Run
import Mathlib.Data.Nat.Bitwise

/-!
# The bounded queue of `myring`

`MpmcBoundedQueue` is an array of cells, each with an atomic sequence number, and two atomic
counters from which the calls draw their tickets. A producer claims a ticket by a
compare-and-exchange on `enqueue_pos_`, constructs the value in the cell of the ticket and then
publishes it by a store to the cell's sequence number; a consumer does the same with `dequeue_pos_`,
takes the value and stores the sequence number of the ticket that uses the cell next.

One step is one atomic access of one thread. The state also holds the history of the queue, which no
call reads: the values and the tickets in the order of the steps.
-/

namespace IotProxy.Myring

/-- The capacities that the static assertions of the class let through are the powers of two between
`2` and `2 ^ 62`. -/
structure QueueConfig where
  exponent : ℕ
  atLeastTwo : 1 ≤ exponent
  halfRange : exponent ≤ 62

namespace QueueConfig

variable (config : QueueConfig)

def capacity : ℕ := 2 ^ config.exponent

theorem capacity_pos : 0 < config.capacity := Nat.two_pow_pos _

theorem capacity_le : config.capacity ≤ 2 ^ 62 :=
  Nat.pow_le_pow_right Nat.two_pos config.halfRange

theorem capacity_dvd : config.capacity ∣ 2 ^ 63 :=
  Nat.pow_dvd_pow 2 (config.halfRange.trans (by decide))

end QueueConfig

def Counter.wrap (counter : ℕ) : ℕ := counter % 2 ^ 64

/-- `before`: the difference is in the upper half of the range. -/
def Counter.before (a b : ℕ) : Bool := 2 ^ 63 ≤ (a + 2 ^ 64 - b) % 2 ^ 64

theorem Counter.wrap_of_lt {counter : ℕ} (small : counter < 2 ^ 64) :
    wrap counter = counter :=
  Nat.mod_eq_of_lt small

theorem Counter.not_before_of_le {a b : ℕ} (order : b ≤ a) (close : a - b < 2 ^ 63) :
    before a b = false := by
  have shifted : a + 2 ^ 64 - b = a - b + 2 ^ 64 := by omega
  rw [before, shifted, Nat.add_mod_right, Nat.mod_eq_of_lt (by omega)]
  exact decide_eq_false (by omega)

namespace MpmcBoundedQueue

structure Cell (Value : Type*) where
  sequence : ℕ
  storage : Option Value := none

/-- Where a thread stands in a call of `try_push` or `try_pop`, by its next atomic access. -/
inductive Point (Value : Type*) where
  | idle
  | loadEnqueuePos (value : Value)
  | loadPushSequence (value : Value) (pos : ℕ)
  | claimPush (value : Value) (pos : ℕ)
  | construct (value : Value) (pos : ℕ)
  | publish (pos : ℕ)
  | pushed (result : Bool)
  | loadDequeuePos
  | loadPopSequence (pos : ℕ)
  | claimPop (pos : ℕ)
  | take (pos : ℕ)
  | release (pos : ℕ) (value : Value)
  | popped (result : Option Value)
deriving DecidableEq

namespace Point

variable {Value : Type*}

def isFree : Point Value → Bool
  | idle | pushed _ | popped _ => true
  | _ => false

/-- The ticket of a producer that has claimed one and has not published it. -/
def producing : Point Value → Option ℕ
  | construct _ pos | publish pos => some pos
  | _ => none

/-- The ticket of a consumer that has claimed one and has not released its cell. -/
def consuming : Point Value → Option ℕ
  | take pos | release pos _ => some pos
  | _ => none

end Point

end MpmcBoundedQueue

open MpmcBoundedQueue in
structure MpmcBoundedQueue (Value : Type*) where
  buffer : ℕ → Cell Value
  dequeuePos : ℕ := 0
  enqueuePos : ℕ := 0
  values : List Value := []
  written : List ℕ := []
  published : List ℕ := []
  claims : List ℕ := []
  taken : List (ℕ × Value) := []
  removed : List ℕ := []

namespace MpmcBoundedQueue

variable {Value : Type*} (config : QueueConfig)

def create : MpmcBoundedQueue Value := { buffer := fun index => { sequence := index } }

def indexOf (sequence : ℕ) : ℕ := sequence &&& (config.capacity - 1)

theorem indexOf_eq (sequence : ℕ) : indexOf config sequence = sequence % config.capacity :=
  Nat.and_two_pow_sub_one_eq_mod sequence config.exponent

variable (queue : MpmcBoundedQueue Value)

def cell (pos : ℕ) : Cell Value := queue.buffer (indexOf config pos)

def setCell (pos : ℕ) (cell : Cell Value) : ℕ → Cell Value :=
  Function.update queue.buffer (indexOf config pos) cell

section Accesses

def enqueue (value : Value) (pos : ℕ) : MpmcBoundedQueue Value :=
  { queue with
    enqueuePos := Counter.wrap (pos + 1)
    values := queue.values ++ [value] }

def construct (value : Value) (pos : ℕ) : MpmcBoundedQueue Value :=
  { queue with
    buffer := queue.setCell config pos { queue.cell config pos with storage := some value }
    written := queue.written ++ [pos] }

def publish (pos : ℕ) : MpmcBoundedQueue Value :=
  { queue with
    buffer := queue.setCell config pos
      { queue.cell config pos with sequence := Counter.wrap (pos + 1) }
    published := queue.published ++ [pos] }

def dequeue (pos : ℕ) : MpmcBoundedQueue Value :=
  { queue with
    dequeuePos := Counter.wrap (pos + 1)
    claims := queue.claims ++ [pos] }

def take (pos : ℕ) (value : Value) : MpmcBoundedQueue Value :=
  { queue with
    buffer := queue.setCell config pos { queue.cell config pos with storage := none }
    taken := queue.taken ++ [(pos, value)] }

def release (pos : ℕ) : MpmcBoundedQueue Value :=
  { queue with
    buffer := queue.setCell config pos
      { queue.cell config pos with sequence := Counter.wrap (pos + config.capacity) }
    removed := queue.removed ++ [pos] }

end Accesses

/-- One access of `try_emplace_impl` or of `try_pop`, and where the call goes on. A weak
compare-and-exchange may fail without a reason; when it fails it has loaded the counter. To take a
value out of a cell that holds none is undefined. -/
def access (spurious : Bool) : Point Value → Option (MpmcBoundedQueue Value × Point Value)
  | .loadEnqueuePos value => some (queue, .loadPushSequence value queue.enqueuePos)
  | .loadPushSequence value pos =>
    let seq := (queue.cell config pos).sequence
    if seq = pos then some (queue, .claimPush value pos)
    else if Counter.before seq pos then some (queue, .pushed false)
    else some (queue, .loadEnqueuePos value)
  | .claimPush value pos =>
    if queue.enqueuePos = pos ∧ spurious = false then
      some (queue.enqueue value pos, .construct value pos)
    else some (queue, .loadPushSequence value queue.enqueuePos)
  | .construct value pos => some (queue.construct config value pos, .publish pos)
  | .publish pos => some (queue.publish config pos, .pushed true)
  | .loadDequeuePos => some (queue, .loadPopSequence queue.dequeuePos)
  | .loadPopSequence pos =>
    let seq := (queue.cell config pos).sequence
    let expectedSeq := Counter.wrap (pos + 1)
    if seq = expectedSeq then some (queue, .claimPop pos)
    else if Counter.before seq expectedSeq then some (queue, .popped none)
    else some (queue, .loadDequeuePos)
  | .claimPop pos =>
    if queue.dequeuePos = pos ∧ spurious = false then some (queue.dequeue pos, .take pos)
    else some (queue, .loadPopSequence queue.dequeuePos)
  | .take pos =>
    (queue.cell config pos).storage.map fun value =>
      (queue.take config pos value, .release pos value)
  | .release pos value => some (queue.release config pos, .popped (some value))
  | .idle | .pushed _ | .popped _ => none

inductive Accesses (config : QueueConfig) (queue : MpmcBoundedQueue Value) :
    Point Value → MpmcBoundedQueue Value → Point Value → Prop where
  | loadEnqueuePos {value : Value} :
      Accesses config queue (.loadEnqueuePos value) queue (.loadPushSequence value queue.enqueuePos)
  | pushFree {value : Value} {pos : ℕ} (free : (queue.cell config pos).sequence = pos) :
      Accesses config queue (.loadPushSequence value pos) queue (.claimPush value pos)
  | pushFull {value : Value} {pos : ℕ} (different : (queue.cell config pos).sequence ≠ pos)
      (behind : Counter.before (queue.cell config pos).sequence pos = true) :
      Accesses config queue (.loadPushSequence value pos) queue (.pushed false)
  | pushStale {value : Value} {pos : ℕ} :
      Accesses config queue (.loadPushSequence value pos) queue (.loadEnqueuePos value)
  | enqueue {value : Value} :
      Accesses config queue (.claimPush value queue.enqueuePos)
        (queue.enqueue value queue.enqueuePos) (.construct value queue.enqueuePos)
  | pushMissed {value : Value} {pos : ℕ} :
      Accesses config queue (.claimPush value pos) queue (.loadPushSequence value queue.enqueuePos)
  | construct {value : Value} {pos : ℕ} :
      Accesses config queue (.construct value pos) (queue.construct config value pos) (.publish pos)
  | publish {pos : ℕ} :
      Accesses config queue (.publish pos) (queue.publish config pos) (.pushed true)
  | loadDequeuePos :
      Accesses config queue .loadDequeuePos queue (.loadPopSequence queue.dequeuePos)
  | popReady {pos : ℕ} (ready : (queue.cell config pos).sequence = Counter.wrap (pos + 1)) :
      Accesses config queue (.loadPopSequence pos) queue (.claimPop pos)
  | popEmpty {pos : ℕ} (different : (queue.cell config pos).sequence ≠ Counter.wrap (pos + 1))
      (behind : Counter.before (queue.cell config pos).sequence (Counter.wrap (pos + 1)) = true) :
      Accesses config queue (.loadPopSequence pos) queue (.popped none)
  | popStale {pos : ℕ} : Accesses config queue (.loadPopSequence pos) queue .loadDequeuePos
  | dequeue :
      Accesses config queue (.claimPop queue.dequeuePos) (queue.dequeue queue.dequeuePos)
        (.take queue.dequeuePos)
  | popMissed {pos : ℕ} :
      Accesses config queue (.claimPop pos) queue (.loadPopSequence queue.dequeuePos)
  | take {pos : ℕ} {value : Value} (held : (queue.cell config pos).storage = some value) :
      Accesses config queue (.take pos) (queue.take config pos value) (.release pos value)
  | release {pos : ℕ} {value : Value} :
      Accesses config queue (.release pos value) (queue.release config pos) (.popped (some value))

theorem accesses_of_access {config : QueueConfig} {queue after : MpmcBoundedQueue Value}
    {spurious : Bool} {mine next : Point Value}
    (accessed : queue.access config spurious mine = some (after, next)) :
    Accesses config queue mine after next := by
  cases mine with
  | loadPushSequence value pos =>
    simp only [access] at accessed
    split at accessed
    · next free =>
        cases accessed
        exact .pushFree free
    · next different =>
        split at accessed <;> cases accessed
        · next behind => exact .pushFull different behind
        · exact .pushStale
  | claimPush value pos =>
    simp only [access] at accessed
    split at accessed
    · next exchanged =>
        cases accessed
        rcases exchanged with ⟨rfl, _⟩
        exact .enqueue
    · cases accessed
      exact .pushMissed
  | loadPopSequence pos =>
    simp only [access] at accessed
    split at accessed
    · next ready =>
        cases accessed
        exact .popReady ready
    · next different =>
        split at accessed <;> cases accessed
        · next behind => exact .popEmpty different behind
        · exact .popStale
  | claimPop pos =>
    simp only [access] at accessed
    split at accessed
    · next exchanged =>
        cases accessed
        rcases exchanged with ⟨rfl, _⟩
        exact .dequeue
    · cases accessed
      exact .popMissed
  | take pos =>
    simp only [access, Option.map_eq_some_iff] at accessed
    rcases accessed with ⟨value, held, same⟩
    cases same
    exact .take held
  | loadEnqueuePos value => cases accessed; exact .loadEnqueuePos
  | construct value pos => cases accessed; exact .construct
  | publish pos => cases accessed; exact .publish
  | loadDequeuePos => cases accessed; exact .loadDequeuePos
  | release pos value => cases accessed; exact .release
  | idle | pushed result | popped result => cases accessed

structure System (Value : Type*) where
  queue : MpmcBoundedQueue Value := create
  threads : ℕ → Point Value := fun _ => .idle

inductive Event (Value : Type*) where
  | tryPush (thread : ℕ) (value : Value)
  | tryPop (thread : ℕ)
  | access (thread : ℕ) (spurious : Bool)

namespace System

variable (system : System Value)

def goto (thread : ℕ) (point : Point Value) : System Value :=
  { system with threads := Function.update system.threads thread point }

/-- One access of a thread to the queue. -/
def step : Event Value → Option (System Value)
  | .tryPush thread value =>
    if (system.threads thread).isFree then some (system.goto thread (.loadEnqueuePos value))
    else none
  | .tryPop thread =>
    if (system.threads thread).isFree then some (system.goto thread .loadDequeuePos) else none
  | .access thread spurious =>
    (system.queue.access config spurious (system.threads thread)).map fun moved =>
      { system.goto thread moved.2 with queue := moved.1 }

end System

section Cells

variable {config} {queue}

def SameCell (config : QueueConfig) (pos other : ℕ) : Prop :=
  pos % config.capacity = other % config.capacity

theorem SameCell.cell_eq {pos other : ℕ} (same : SameCell config pos other) :
    queue.cell config pos = queue.cell config other := by
  rw [cell, cell, indexOf_eq, indexOf_eq, same]

theorem cell_of_setCell {after : MpmcBoundedQueue Value} {pos other : ℕ} {cell : Cell Value}
    (buffer : after.buffer = queue.setCell config pos cell) (same : SameCell config other pos) :
    after.cell config other = cell := by
  rw [MpmcBoundedQueue.cell, buffer, setCell, indexOf_eq, indexOf_eq, same]
  exact Function.update_self _ _ _

theorem cell_of_setCell_of_not_same {after : MpmcBoundedQueue Value} {pos other : ℕ}
    {cell : Cell Value} (buffer : after.buffer = queue.setCell config pos cell)
    (different : ¬ SameCell config other pos) :
    after.cell config other = queue.cell config other := by
  rw [MpmcBoundedQueue.cell, MpmcBoundedQueue.cell, buffer, setCell, indexOf_eq, indexOf_eq]
  exact Function.update_of_ne different _ _

end Cells

end MpmcBoundedQueue

end IotProxy.Myring
